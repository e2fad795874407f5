import FirstSeen.Proofs.Sifting

/-!
# Requests of a stage beside a world

A stage that stands beside a world is asked for one element after another. As long as its end is not met, its replies are
what is told of the rounds that its world goes through, and where warnings are not raised, it issues one for each round
that meets its limit.

So two stages that stand beside the same world, with limits of their own, reply alike. They do so however they are used:
asked, peeked at, taken back to their beginning and forced.
-/

set_option autoImplicit false

namespace FirstSeen

namespace Run

/-- Whether something came to an end. -/
def metEnd {α : Type} (ended : Except Halt α) : Bool := (faultOf ended).any (·.isEnd)

/-- Whether calls did not suffice for something. -/
def isSpent {α : Type} : Except Halt α → Bool
  | .error .outOfFuel => true
  | _ => false

end Run

namespace Calls

open Run Store

/-- So many requests for the next element in turn, whatever becomes of each: the replies, and the store in the end. -/
def nexts (c : Calls) (id : SequenceId) : (many : Nat) → Store → List (Except Halt Value) × Store
  | 0, store => ([], store)
  | many + 1, store =>
    let asked := (c.next id).from? store
    let later := c.nexts id many asked.2
    (asked.1 :: later.1, later.2)

/-- Whether replies belong to one pass: calls sufficed for each of them, and none but the last met the end. -/
def OnePass : List (Except Halt Value) → Prop
  | [] => True
  | reply :: rest => isSpent reply = false ∧ (metEnd reply = true → rest.isEmpty = true) ∧ OnePass rest

instance decidableOnePass : (replies : List (Except Halt Value)) → Decidable (OnePass replies)
  | [] => inferInstanceAs (Decidable True)
  | reply :: rest =>
    have := decidableOnePass rest
    inferInstanceAs (Decidable (isSpent reply = false ∧ (metEnd reply = true → rest.isEmpty = true) ∧ OnePass rest))

/-- The keys that a stage has seen after sifting: none after its end. -/
def Sifted.kept (sifted : Sifted) : Seen := if metEnd sifted.ended then .empty else sifted.seen

/-- What a consumer does with a sequence. -/
inductive Use where
  | next
  | peek
  | rewind
  | force

/-- The elements that a use hands out. -/
def Use.run (c : Calls) (id : SequenceId) : Use → Run (List Value)
  | next => do return [← c.next id]
  | peek => do return [← c.peek id]
  | rewind => do
    c.rewind id
    return []
  | force => c.force id

/-- What becomes of uses in turn. -/
def outcomes (c : Calls) (id : SequenceId) : List Use → Store → List (Except Halt (List Value))
  | [], _ => []
  | use :: rest, store =>
    let used := (use.run c id).from? store
    used.1 :: c.outcomes id rest used.2

/-- The store that uses in turn leave. -/
def leftBy (c : Calls) (id : SequenceId) : List Use → Store → Store
  | [], store => store
  | use :: rest, store => c.leftBy id rest ((use.run c id).from? store).2

theorem length_nexts (c : Calls) (id : SequenceId) (many : Nat) (store : Store) :
    (c.nexts id many store).1.length = many := by
  induction many generalizing store with
  | zero => rfl
  | succ many ih => exact congrArg (· + 1) (ih _)

section

variable {hidden : Ref → Prop} {stage supply : SequenceId} {key limit : Value} {multi : Bool} {m : Nat} {bar : Option Nat}
  {world actual : Store} {seen : Seen}

/-! ## Requests in a pass -/

/-- At its end, a stage forgets the keys that it has seen. -/
theorem Minds.signalEnd (minds : Minds hidden stage supply key limit multi m bar world actual seen)
    (inside : hidden (.sequence stage)) :
    ∃ after, (Run.signalEnd stage).from? actual = (.ok (), after) ∧
      Minds hidden stage supply key limit multi m bar world after .empty ∧
      after.sequence stage = { actual.sequence stage with
        exhausted := true, body := .distinct supply key limit .empty } ∧
      after.warnings stage = actual.warnings stage := by
  let mark : SequenceState → SequenceState := fun state => { state with exhausted := true }
  let clear : SequenceState → SequenceState := fun state => { state with body := .distinct supply key limit .empty }
  let notice := Notice.exhausted stage .distinct
  let marked : Store := { actual.updated stage mark with journal := actual.journal.push notice }
  obtain ⟨minds', state⟩ := minds.changed inside (f := mark) (by exact minds.body) rfl (actual.journal.push notice)
  obtain ⟨minds'', state'⟩ := minds'.changed inside (f := clear) rfl rfl marked.journal
  have marks : (do
      updateSequence stage mark
      Run.tell (.exhausted stage (← Run.sequence stage).body.kind)).from? actual = (.ok (), marked) := by
    have kind : ((actual.updated stage mark).sequence stage).body.kind = .distinct := by
      rw [sequence_updated (minds.hides.sequenceThere stage inside)]
      exact congrArg Body.kind minds.body
    rw [from?_bind_ok (from?_updateSequence ..), from?_bind_ok (from?_sequence ..)]
    exact (congrArg (fun kind => (Run.tell (.exhausted stage kind)).from? (actual.updated stage mark)) kind).trans rfl
  have clears : (cleanUp stage).from? marked = (.ok (), { marked.updated stage clear with journal := marked.journal }) := by
    rw [cleanUp, from?_bind_ok (from?_sequence ..), minds'.body]
    rfl
  refine ⟨_, ?_, minds'', state'.trans (by rw [state]), ?_⟩
  · have split : Run.signalEnd stage = (do
        updateSequence stage mark
        Run.tell (.exhausted stage (← Run.sequence stage).body.kind)) >>= fun _ => cleanUp stage := by
      simp only [Run.signalEnd, bind_assoc]
      rfl
    rw [split, from?_bind_ok marks, clears]
  · change (actual.journal.push notice).count (.limitReached stage) = _
    rw [Array.count_push]
    rfl

section

variable (inside : hidden (.sequence stage)) (apart : ¬hidden (.sequence supply)) (avoids : key.Avoids hidden)
include inside apart avoids

/-- Where no element waits and the end was not met, a request ends as sifting rounds in the world does. Unless warnings
are raised, as many are issued as there are rounds that meet the limit. -/
theorem Minds.next (minds : Minds hidden stage supply key limit multi m bar world actual seen)
    (unawaited : (actual.sequence stage).Unawaited) (before : (actual.sequence stage).exhausted = false) (n : Nat) :
    ∃ after, ((calls (n + 1)).next stage).from? actual = ((sift bar supply key multi n world seen).ended, after) ∧
      Minds hidden stage supply key limit multi m bar (sift bar supply key multi n world seen).left after
        (sift bar supply key multi n world seen).kept ∧
      after.sequence stage = { actual.sequence stage with
        started := true, exhausted := metEnd (sift bar supply key multi n world seen).ended,
        body := .distinct supply key limit (sift bar supply key multi n world seen).kept } ∧
      (bar = none →
        after.warnings stage = actual.warnings stage + seen.meetings m (sift bar supply key multi n world seen).rounds) := by
  obtain ⟨begun, state⟩ := minds.changed inside (f := fun state => { state with started := true }) (by exact minds.body)
    rfl actual.journal
  obtain ⟨left, pulled, minds', state', warned⟩ := begun.pull inside apart avoids n
  have asked := next_unawaited (c := calls n) unawaited before
  change ((calls (n + 1)).next stage).from? actual = _ at asked
  have started : ((calls n).pull stage).from? (actual.updated stage fun state => { state with started := true }) =
      ((sift bar supply key multi n world seen).ended, left) := pulled
  rw [asked, started]
  rw [state] at state'
  generalize sift bar supply key multi n world seen = sifted at minds' state' warned
  obtain ⟨ended, world', seen', rounds⟩ := sifted
  have unended : { (actual.sequence stage) with started := true, body := .distinct supply key limit seen' } =
      { (actual.sequence stage) with
        started := true, exhausted := false, body := .distinct supply key limit seen' } := by rw [← before]
  rcases ended with (fault | _) | v
  · cases met : fault.isEnd with
    | true =>
      obtain ⟨after, signalled, minds'', state'', unwarned⟩ := minds'.signalEnd inside
      have ends : metEnd (.error (.fault fault) : Except Halt Value) = true := met
      simp only [Sifted.kept, ends, if_true, met, signalled]
      refine ⟨after, rfl, minds'', ?_, fun calm => unwarned.trans (warned calm)⟩
      rw [state'', state']
    | false =>
      have goesOn : metEnd (.error (.fault fault) : Except Halt Value) = false := met
      simp only [Sifted.kept, goesOn, Bool.false_eq_true, if_false, met]
      exact ⟨left, rfl, minds', state'.trans unended, warned⟩
  · exact ⟨left, rfl, minds', state'.trans unended, warned⟩
  · exact ⟨left, rfl, minds', state'.trans unended, warned⟩

/-- As long as the end is not met, the replies of a stage are what rounds that come in turn in the world come down to.
Unless warnings are raised, as many are issued as there are rounds that meet the limit. -/
theorem Minds.nexts (minds : Minds hidden stage supply key limit multi m bar world actual seen)
    (unawaited : (actual.sequence stage).Unawaited) (before : (actual.sequence stage).exhausted = false) {n many : Nat}
    (onePass : OnePass ((calls (n + 1)).nexts stage many actual).1) :
    ∃ found left, (calls n).GoesThrough supply key multi world found left ∧
      ComesTo bar seen found ((calls (n + 1)).nexts stage many actual).1 ∧
      (bar = none → ((calls (n + 1)).nexts stage many actual).2.warnings stage =
        actual.warnings stage + seen.meetings m found) ∧
      ((calls (n + 1)).nexts stage many actual).2.seenBy stage =
        if ((calls (n + 1)).nexts stage many actual).1.any metEnd then .empty else seen.after bar found := by
  induction many generalizing world actual seen with
  | zero =>
    refine ⟨[], world, goesThrough_nil world, comesTo_nil bar seen, fun _ => rfl, ?_⟩
    change actual.seenBy stage = seen
    rw [seenBy, minds.body]
  | succ many ih =>
    obtain ⟨after, asked, minds', state, warned⟩ := minds.next inside apart avoids unawaited before n
    have unfolded : (calls (n + 1)).nexts stage (many + 1) actual =
        ((sift bar supply key multi n world seen).ended :: ((calls (n + 1)).nexts stage many after).1,
          ((calls (n + 1)).nexts stage many after).2) := by
      rw [Calls.nexts, asked]
    rw [unfolded] at onePass ⊢
    obtain ⟨enough, last, onePass⟩ := onePass
    have unspent : (sift bar supply key multi n world seen).ended ≠ .error .outOfFuel := by
      intro spent
      rw [spent] at enough
      cases enough
    obtain ⟨goes, seen', told⟩ := sift_ends unspent
    cases met : metEnd (sift bar supply key multi n world seen).ended with
    | true =>
      -- The pass is over, so that there were no further requests.
      have none : many = 0 := by
        rw [← length_nexts (calls (n + 1)) stage many after, List.isEmpty_iff.mp (last met)]
        rfl
      subst none
      refine ⟨_, _, goes, told, warned, ?_⟩
      change after.seenBy stage = _
      rw [seenBy, state, Sifted.kept, met]
      simp [met]
    | false =>
      rw [Sifted.kept, met] at minds' state
      obtain ⟨rest, left, further, replies, warned', kept⟩ := ih minds' (by rw [state]; exact unawaited) (by rw [state]) onePass
      rw [seen'] at replies
      refine ⟨_, left, goes.append further, told.append replies, fun calm => ?_, ?_⟩
      · subst calm
        rw [warned' rfl, warned rfl, Seen.meetings_append, ← seen', Nat.add_assoc]
        rfl
      · rw [kept, List.any_cons, met, Bool.false_or, Seen.after_append, ← seen']
        rfl

end

/-- Taking a stage back to its beginning ends as it does for its supply in the world. It then is at its beginning, and
has seen nothing; if the supply fails, the stage stays as it is. -/
theorem Minds.rewind (minds : Minds hidden stage supply key limit multi m bar world actual seen)
    (inside : hidden (.sequence stage)) (apart : ¬hidden (.sequence supply)) (n : Nat) :
    ∃ after, ((calls (n + 1)).rewind stage).from? actual = ((((calls n).rewind supply).from? world).1, after) ∧
      (∀ halt, (((calls n).rewind supply).from? world).1 = .error halt →
        Minds hidden stage supply key limit multi m bar (((calls n).rewind supply).from? world).2 after seen ∧
          after.sequence stage = actual.sequence stage) ∧
      ((((calls n).rewind supply).from? world).1 = .ok () →
        Minds hidden stage supply key limit multi m bar (((calls n).rewind supply).from? world).2 after .empty ∧
          after.sequence stage = ⟨.distinct supply key limit .empty, multi, false, false, none⟩) := by
  obtain ⟨same, minds', state, -⟩ := minds.heeding inside ((heeds_calls n).rewind supply apart)
  have unfolded : ((calls (n + 1)).rewind stage).from? actual =
      ((calls n).rewind supply >>= fun _ => do
        Run.setBody stage (.distinct supply key limit .empty)
        updateSequence stage fun state => { state with started := false, exhausted := false, peeked := none }
        Run.tell (.rewound stage (← Run.sequence stage).body.kind)).from? actual := by
    change ((calls n).rewindWith stage).from? actual = _
    rw [rewindWith, reset, bind_assoc, from?_bind_ok (from?_sequence ..), minds.body]
    simp only [bind_assoc]
  rcases drawn : ((calls n).rewind supply).from? actual with ⟨ended, left⟩
  rw [drawn] at same minds' state
  obtain rfl : ended = _ := same
  rw [unfolded]
  rcases outcome : (((calls n).rewind supply).from? world).1 with halt | _
  · rw [outcome] at drawn
    rw [from?_bind_error drawn]
    exact ⟨left, rfl, fun _ _ => ⟨minds', state⟩, fun given => (by cases given)⟩
  · rw [outcome] at drawn
    let clear : SequenceState → SequenceState := fun state => { state with body := .distinct supply key limit .empty }
    let restart : SequenceState → SequenceState := fun state =>
      { state with started := false, exhausted := false, peeked := none }
    let notice := Notice.rewound stage .distinct
    have minds' : Minds hidden stage supply key limit multi m bar _ left seen := minds'
    obtain ⟨cleared, here⟩ := minds'.changed inside (f := clear) rfl rfl left.journal
    obtain ⟨again, here'⟩ := cleared.changed inside (f := restart) (by exact cleared.body) rfl (left.journal.push notice)
    refine ⟨_, ?_, fun _ given => (by cases given), fun _ => ⟨again, ?_⟩⟩
    · rw [from?_bind_ok drawn, from?_bind_ok (from?_setBody ..), from?_bind_ok (from?_updateSequence ..),
        from?_bind_ok (from?_sequence ..)]
      have kind : (({ left.updated stage clear with journal := left.journal }.updated stage restart).sequence
          stage).body.kind = .distinct := congrArg Body.kind again.body
      exact congrArg (fun kind => (Run.tell (.rewound stage kind)).from?
        ({ left.updated stage clear with journal := left.journal }.updated stage restart)) kind
    · rw [here', here, ← minds'.flag]

/-! ## Stages beside the same world -/

variable (hidden stage supply key multi) in
/-- Whether a stage stands beside the same world in two stores, with a limit of its own in each, where warnings are not
raised. -/
def Twins (one other : Store) : Prop :=
  ∃ world seen limit limit' m m', Minds hidden stage supply key limit multi m none world one seen ∧
    Minds hidden stage supply key limit' multi m' none world other seen ∧
    other.sequence stage = { one.sequence stage with body := .distinct supply key limit' seen }

variable (hidden stage supply key multi) in
/-- Whether a run ends alike where a stage stands beside the same world, and leaves it there. -/
def Alike {α : Type} (run : Run α) : Prop :=
  ∀ one other, Twins hidden stage supply key multi one other →
    (run.from? other).1 = (run.from? one).1 ∧
      Twins hidden stage supply key multi (run.from? one).2 (run.from? other).2

section

variable {α β : Type}

theorem Alike.bind {run : Run α} {next : α → Run β} (first : Alike hidden stage supply key multi run)
    (rest : ∀ a, Alike hidden stage supply key multi (next a)) : Alike hidden stage supply key multi (run >>= next) := by
  intro one other twins
  obtain ⟨same, twins'⟩ := first one other twins
  rcases ends : run.from? one with ⟨ended, left⟩
  rcases ends' : run.from? other with ⟨ended', left'⟩
  rw [ends, ends'] at same twins'
  obtain rfl : ended' = ended := same
  cases ended' with
  | error halt =>
    rw [from?_bind_error ends, from?_bind_error ends']
    exact ⟨rfl, twins'⟩
  | ok a =>
    rw [from?_bind_ok ends, from?_bind_ok ends']
    exact rest a left left' twins'

theorem Alike.onFault {run : Run α} {handler : Fault → Run α} (first : Alike hidden stage supply key multi run)
    (handled : ∀ fault, Alike hidden stage supply key multi (handler fault)) :
    Alike hidden stage supply key multi (Run.onFault run handler) := by
  intro one other twins
  obtain ⟨same, twins'⟩ := first one other twins
  rw [from?_onFault, from?_onFault]
  rcases ends : run.from? one with ⟨ended, left⟩
  rcases ends' : run.from? other with ⟨ended', left'⟩
  rw [ends, ends'] at same twins'
  obtain rfl : ended' = ended := same
  rcases ended' with (fault | _) | a
  · exact handled fault left left' twins'
  · exact ⟨rfl, twins'⟩
  · exact ⟨rfl, twins'⟩

theorem Alike.ite {c : Prop} [Decidable c] {run run' : Run α} (first : Alike hidden stage supply key multi run)
    (second : Alike hidden stage supply key multi run') : Alike hidden stage supply key multi (if c then run else run') := by
  split
  · exact first
  · exact second

section

variable (inside : hidden (.sequence stage)) (apart : ¬hidden (.sequence supply)) (avoids : key.Avoids hidden)
include inside apart avoids

end

end

end

end Calls

end FirstSeen
