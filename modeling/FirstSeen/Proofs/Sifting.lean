import FirstSeen.Proofs.Forgetting
import FirstSeen.Proofs.Limiting

/-!
# A pass of a stage in rounds

A distinct stage whose supply and key function do not lead back to it goes through *rounds*, in each of which it asks its
supply for an element and its key function for the key. What a round comes to does not depend on the stage. It can be told
in a *world*, a store in which nobody asks the stage and the same rounds are gone through by hand.

`sift` tells what pulling from the stage comes to by rounds in a world: it goes on until a verdict is worth telling. The
stage, in its own store, ends alike and has seen the same keys then. So one request after another tells the verdicts on
rounds that come in turn, until the supply ends.
-/

set_option autoImplicit false

namespace FirstSeen

namespace Store

/-- How many warnings a stage issued. -/
def warnings (store : Store) (stage : SequenceId) : Nat := store.journal.count (.limitReached stage)

/-- What was told does not matter to what is hidden. -/
theorem Hides.told {hidden : Ref → Prop} {store : Store} (hides : store.Hides hidden) (journal : Array Notice) :
    ({ store with journal := journal } : Store).Hides hidden :=
  ⟨hides.sequence, hides.cursor, hides.datum, hides.list, hides.source, hides.key, hides.step, hides.sequenceThere,
    hides.cursorThere, hides.datumThere, hides.listThere⟩

/-- A hidden sequence may change, and something may be told. -/
theorem Beside.changed {hidden : Ref → Prop} {store other : Store} {id : SequenceId} (beside : store.Beside hidden other)
    (inside : hidden (.sequence id)) {f : SequenceState → SequenceState}
    (kind : (f (other.sequence id)).body.kind = (other.sequence id).body.kind) (journal : Array Notice) :
    store.Beside hidden { other.updated id f with journal := journal } := by
  have there : ∀ id', ({ other.updated id f with journal := journal } : Store).sequence id' =
      if id.index = id'.index ∧ id'.index < other.sequences.size then f (other.sequence id') else other.sequence id' :=
    fun id' => getD_modify other.sequences id.index f default id'.index
  refine ⟨?_, ?_, fun id' free => ?_, fun id' => ?_⟩
  · rw [updated, beside.same]
  · simpa using beside.size
  · have apart : ¬(id.index = id'.index ∧ id'.index < other.sequences.size) := by
      rintro ⟨same, -⟩
      obtain rfl : id = id' := by cases id; cases id'; simp_all
      exact free inside
    rw [there, if_neg apart, beside.sequence id' free]
  · rw [there]
    split
    · rename_i here
      obtain rfl : id = id' := by cases id; cases id'; simp_all
      rw [kind, beside.kind]
    · exact beside.kind id'

/-- A number that a value holds is there with its contents. -/
theorem integer?_contents {store : Store} {v : Value} {k : Int} (counts : (store.plain v).integer? = some k) :
    (store.contents v).integer? = some k := by
  have number : ∀ (depth : Nat) (held : Value), held.integer? = some k → (store.contentsTo depth held).integer? = some k := by
    intro depth held counts
    have plain : held.refs = [] := by cases held <;> first | rfl | simp [Value.integer?] at counts
    cases depth with
    | zero => exact counts
    | succ depth =>
      rw [contentsTo, Value.mapRefs_of_refs_nil plain]
      exact counts
  unfold Store.plain at counts
  split at counts
  · rename_i id
    rw [contents, contentsTo]
    exact number _ (store.datum id) counts
  · exact number _ v counts

/-- Objects that stay as they are hold the same number later. -/
theorem Spared.integer? {hidden : Ref → Prop} {store after : Store} {v : Value} {k : Int}
    (spared : store.Spared hidden after) (counts : (store.plain v).integer? = some k) :
    (after.plain v).integer? = some k := by
  unfold Store.plain at counts ⊢
  split at counts
  · rename_i id
    have there : store.data[id.index]? = some (store.datum id) := by
      rw [Store.datum, Array.getD_eq_getD_getElem?] at counts ⊢
      cases held : store.data[id.index]? with
      | some w => rfl
      | none =>
        rw [held] at counts
        cases counts
    have kept : after.datum id = store.datum id := by
      rw [Store.datum, Array.getD_eq_getD_getElem?, spared.datum _ _ there, Option.getD_some]
    simpa only [kept] using counts
  · exact counts

end Store

namespace Run

/-- As many warnings are told of a stage as there are notices of its limit. -/
theorem warnings_tellSeen (id : SequenceId) (key : Value) (notices : List SeenNotice) (store : Store) :
    ((tellSeen id key notices).from? store).2.warnings id = store.warnings id + notices.count .limitReached := by
  induction notices generalizing store with
  | nil => rfl
  | cons notice rest ih =>
    cases notice with
    | listLookup =>
      have untold : ({ store with journal := store.journal.push (.listLookup id (store.typeName key)) } : Store).warnings id =
          store.warnings id := by simp [Store.warnings]
      rw [List.count_cons_of_ne (by simp), ← untold]
      exact ih _
    | limitReached =>
      have told : ({ store with journal := store.journal.push (.limitReached id) } : Store).warnings id =
          store.warnings id + 1 := by simp [Store.warnings]
      rw [List.count_cons_self, Nat.add_comm _ 1, ← Nat.add_assoc, ← told]
      exact ih _

end Run

namespace Calls

open Run Store

/-! ## Rounds in a world -/

section

variable (c : Calls) (supply : SequenceId) (key : Value) (multi : Bool)

/-- An element of a supply, and its key. -/
def round : Run (Value × Value) := do
  let element ← c.next supply
  let k ← c.keyFor key multi element
  return (element, k)

/-- What follows a round of a stage that is pulled from. -/
theorem pullWith_round {c : Calls} {stage supply : SequenceId} {key limit : Value} {seen : Seen} {store : Store}
    (body : (store.sequence stage).body = .distinct supply key limit seen) :
    (c.pullWith stage).from? store = (c.round supply key (store.sequence stage).multiValue >>= fun found => do
      if ← Run.remember stage found.2 then return found.1 else c.pull stage).from? store := by
  rw [pullWith, from?_bind_ok (from?_sequence ..), body]
  simp only [pullDistinct, Calls.round, bind_assoc, pure_bind]

/-- What a round came to, in the store that it left, unless calls did not suffice. -/
def roundIn? (left : Store) : Except Halt (Value × Value) → Option Round
  | .ok (element, k) => some (.ok (element, left.contents k))
  | .error (.fault fault) => some (.error fault)
  | .error .outOfFuel => none

/-- So many rounds in turn, and the store that they leave, if calls suffice. -/
def rounds : (many : Nat) → Store → Option (List Round × Store)
  | 0, store => some ([], store)
  | many + 1, store => do
    let drawn := (c.round supply key multi).from? store
    let first ← roundIn? drawn.2 drawn.1
    let (rest, last) ← rounds many drawn.2
    return (first :: rest, last)

/-- Whether these rounds come in turn from a store. -/
def GoesThrough (store : Store) (found : List Round) (last : Store) : Prop :=
  c.rounds supply key multi found.length store = some (found, last)

end

section

variable {c wider : Calls} {supply : SequenceId} {key : Value} {multi : Bool} {store mid last : Store} {first : Round}
  {found rest : List Round}

theorem goesThrough_nil (store : Store) : c.GoesThrough supply key multi store [] store := rfl

theorem goesThrough_cons : c.GoesThrough supply key multi store (first :: rest) last ↔
    roundIn? ((c.round supply key multi).from? store).2 ((c.round supply key multi).from? store).1 = some first ∧
      c.GoesThrough supply key multi ((c.round supply key multi).from? store).2 rest last := by
  unfold GoesThrough
  rw [List.length_cons, rounds]
  simp only [Option.bind_eq_bind, Option.bind_eq_some_iff, Option.pure_def, Option.some.injEq, Prod.mk.injEq,
    List.cons.injEq, Prod.exists]
  constructor
  · rintro ⟨first', came, rest', last', further, ⟨rfl, rfl⟩, rfl⟩
    exact ⟨came, further⟩
  · rintro ⟨came, further⟩
    exact ⟨first, came, rest, last, further, ⟨rfl, rfl⟩, rfl⟩

theorem GoesThrough.append (before : c.GoesThrough supply key multi store found mid)
    (further : c.GoesThrough supply key multi mid rest last) :
    c.GoesThrough supply key multi store (found ++ rest) last := by
  induction found generalizing store with
  | nil =>
    cases before
    exact further
  | cons first found ih =>
    obtain ⟨came, before⟩ := goesThrough_cons.mp before
    exact goesThrough_cons.mpr ⟨came, ih before⟩

theorem within_round (within : c.Within wider) : (c.round supply key multi).Within (wider.round supply key multi) :=
  (within.next supply).bind fun element => (within.keyFor key multi element).bind fun _ => within_refl _

/-- Rounds that come within a bound on calls come within a wider one. -/
theorem GoesThrough.widen (within : c.Within wider) (goes : c.GoesThrough supply key multi store found last) :
    wider.GoesThrough supply key multi store found last := by
  induction found generalizing store with
  | nil => exact goes
  | cons first rest ih =>
    obtain ⟨came, further⟩ := goesThrough_cons.mp goes
    have same : (wider.round supply key multi).from? store = (c.round supply key multi).from? store := by
      rcases within_round within store with spent | same
      · rw [spent] at came
        cases came
      · exact same
    rw [goesThrough_cons, same]
    exact ⟨came, ih further⟩

end

/-! ## Sifting rounds -/

/-- What pulling comes to by rounds: how it ends, the world that it leaves, the keys seen then, and the rounds. -/
structure Sifted where
  ended : Except Halt Value
  left : Store
  seen : Seen
  rounds : List Round

/-- Goes through rounds in a world, with so many calls for the first one and one less for each further one, until a
verdict is told. -/
def sift (bar : Option Nat) (supply : SequenceId) (key : Value) (multi : Bool) : (n : Nat) → Store → Seen → Sifted
  | 0, world, seen => ⟨.error .outOfFuel, world, seen, []⟩
  | n + 1, world, seen =>
    let drawn := ((calls n).round supply key multi).from? world
    match roundIn? drawn.2 drawn.1 with
    | none => ⟨.error .outOfFuel, drawn.2, seen, []⟩
    | some first =>
      match (seen.judge bar first).1.told? with
      | some told => ⟨told.mapError .fault, drawn.2, (seen.judge bar first).2, [first]⟩
      | none =>
        let later := sift bar supply key multi n drawn.2 (seen.judge bar first).2
        { later with rounds := first :: later.rounds }

/-- What is told of rounds in turn. -/
def toldOf (bar : Option Nat) (seen : Seen) (found : List Round) : List (Except Fault Value) :=
  (seen.verdicts bar found).filterMap Verdict.told?

theorem toldOf_append (bar : Option Nat) (seen : Seen) (found rest : List Round) :
    toldOf bar seen (found ++ rest) = toldOf bar seen found ++ toldOf bar (seen.after bar found) rest := by
  induction found generalizing seen with
  | nil => rfl
  | cons first found ih =>
    have split := ih (seen.judge bar first).2
    unfold toldOf Seen.verdicts at split ⊢
    rw [List.cons_append, Seen.along, Seen.along, Seen.after, List.map_cons, List.map_cons, List.filterMap_cons,
      List.filterMap_cons, split]
    split <;> rfl

/-- Whether rounds come down to these replies, and no fewer of them do. -/
def ComesTo (bar : Option Nat) (seen : Seen) (found : List Round) (replies : List (Except Halt Value)) : Prop :=
  (toldOf bar seen found).map (Except.mapError Halt.fault) = replies ∧
    ∀ before rest, found = before ++ rest → rest ≠ [] → (toldOf bar seen before).length < replies.length

theorem comesTo_nil (bar : Option Nat) (seen : Seen) : ComesTo bar seen [] [] := by
  refine ⟨rfl, fun before rest split more => ?_⟩
  exact absurd (List.append_eq_nil_iff.mp split.symm).2 more

theorem ComesTo.append {bar : Option Nat} {seen : Seen} {found rest : List Round} {replies replies' : List (Except Halt Value)}
    (first : ComesTo bar seen found replies) (second : ComesTo bar (seen.after bar found) rest replies') :
    ComesTo bar seen (found ++ rest) (replies ++ replies') := by
  refine ⟨by rw [toldOf_append, List.map_append, first.1, second.1], fun before after split more => ?_⟩
  have length : (toldOf bar seen found).length = replies.length := by rw [← first.1, List.length_map]
  rw [List.length_append]
  rcases List.append_eq_append_iff.mp split with ⟨further, rfl, rfl⟩ | ⟨further, rfl, rfl⟩
  · have fewer := second.2 further after rfl more
    rw [toldOf_append, List.length_append, length]
    omega
  · by_cases none : further = []
    · subst none
      have fewer := second.2 [] rest rfl (by simpa using more)
      rw [List.append_nil] at length
      omega
    · have fewer := first.2 before further rfl none
      omega

section

variable {bar : Option Nat} {supply : SequenceId} {key : Value} {multi : Bool}

/-- Sifting that ends goes through rounds that come in turn, and they come down to its end. -/
theorem sift_ends {n : Nat} {world : Store} {seen : Seen} (enough : (sift bar supply key multi n world seen).ended ≠
      .error .outOfFuel) :
    (calls n).GoesThrough supply key multi world (sift bar supply key multi n world seen).rounds
        (sift bar supply key multi n world seen).left ∧
      (sift bar supply key multi n world seen).seen = seen.after bar (sift bar supply key multi n world seen).rounds ∧
      ComesTo bar seen (sift bar supply key multi n world seen).rounds
        [(sift bar supply key multi n world seen).ended] := by
  induction n generalizing world seen with
  | zero => exact absurd rfl enough
  | succ n ih =>
    have within : (calls n).Within (calls (n + 1)) := within_calls (Nat.le_succ n)
    rw [sift] at enough ⊢
    cases came : roundIn? (((calls n).round supply key multi).from? world).2
        (((calls n).round supply key multi).from? world).1 with
    | none =>
      simp only [came] at enough
      exact absurd rfl enough
    | some first =>
      simp only [came] at enough ⊢
      have told_cons : ∀ rest, toldOf bar seen (first :: rest) =
          (seen.judge bar first).1.told?.toList ++ toldOf bar (seen.judge bar first).2 rest := by
        intro rest
        rw [← List.singleton_append, toldOf_append, toldOf, Seen.verdicts, Seen.along, List.map_cons, List.filterMap_cons]
        cases (seen.judge bar first).1.told? <;> rfl
      cases judged : (seen.judge bar first).1.told? with
      | some told =>
        simp only [judged] at enough ⊢
        refine ⟨(goesThrough_cons.mpr ⟨came, goesThrough_nil _⟩).widen within, rfl, ?_, fun before rest split more => ?_⟩
        · rw [told_cons, judged]
          rfl
        · cases before with
          | nil => exact Nat.one_pos
          | cons first' before =>
            have empty : before ++ rest = [] := (List.cons.inj split).2.symm
            exact absurd (List.append_eq_nil_iff.mp empty).2 more
      | none =>
        simp only [judged] at enough ⊢
        obtain ⟨further, seen', told, fewest⟩ := ih enough
        refine ⟨(goesThrough_cons.mpr ⟨came, further⟩).widen within, seen', ?_, fun before rest split more => ?_⟩
        · rw [told_cons, judged]
          exact told
        · cases before with
          | nil => exact Nat.one_pos
          | cons first' before =>
            obtain ⟨same, further⟩ := List.cons.inj split
            rw [← same, told_cons, judged]
            exact fewest before rest further more

end

/-! ## A stage beside a world -/

/-- Whether a stage stands beside a world, where nobody asks it: the same holds of everything that is not hidden, and the
stage has seen these keys. -/
structure Minds (hidden : Ref → Prop) (stage supply : SequenceId) (key limit : Value) (multi : Bool) (m : Nat)
    (bar : Option Nat) (world actual : Store) (seen : Seen) : Prop where
  untouched : world.Hides hidden
  hides : actual.Hides hidden
  beside : world.Beside hidden actual
  body : (actual.sequence stage).body = .distinct supply key limit seen
  flag : (actual.sequence stage).multiValue = multi
  counts : (actual.plain limit).integer? = some (m : Int)
  barred : bar = if actual.raising then some m else none

section

variable {hidden : Ref → Prop} {stage supply : SequenceId} {key limit : Value} {multi : Bool} {m : Nat} {bar : Option Nat}
  {world actual : Store} {seen : Seen}

/-- What the stage has seen may change, and something may be told. -/
theorem Minds.changed (minds : Minds hidden stage supply key limit multi m bar world actual seen)
    (inside : hidden (.sequence stage)) {f : SequenceState → SequenceState} {seen' : Seen}
    (body : (f (actual.sequence stage)).body = .distinct supply key limit seen')
    (flag : (f (actual.sequence stage)).multiValue = (actual.sequence stage).multiValue) (journal : Array Notice) :
    Minds hidden stage supply key limit multi m bar world { actual.updated stage f with journal := journal } seen' ∧
      ({ actual.updated stage f with journal := journal } : Store).sequence stage = f (actual.sequence stage) := by
  have state : ({ actual.updated stage f with journal := journal } : Store).sequence stage = f (actual.sequence stage) :=
    sequence_updated (minds.hides.sequenceThere stage inside)
  refine ⟨⟨minds.untouched, (minds.hides.updated inside f).told journal, minds.beside.changed inside ?_ journal, ?_, ?_, ?_,
    minds.barred⟩, state⟩
  · rw [body, minds.body]
    rfl
  · rw [state, body]
  · rw [state, flag, minds.flag]
  · have same : ({ actual.updated stage f with journal := journal } : Store).plain limit = actual.plain limit := by
      cases limit with
      | object ref => cases ref <;> rfl
      | _ => rfl
    rw [same]
    exact minds.counts

/-! ### One round -/

section

variable (inside : hidden (.sequence stage)) (apart : ¬hidden (.sequence supply)) (avoids : key.Avoids hidden)
include inside

/-- What heeds a hidden stage comes to the same beside a world. It leaves the stage as it is and issues no warning of it. -/
theorem Minds.heeding {α : Type} {good : α → Prop} {run : Run α} (heeds : run.Heeds hidden good)
    (minds : Minds hidden stage supply key limit multi m bar world actual seen) :
    (run.from? actual).1 = (run.from? world).1 ∧
      Minds hidden stage supply key limit multi m bar (run.from? world).2 (run.from? actual).2 seen ∧
      (run.from? actual).2.sequence stage = actual.sequence stage ∧
      (run.from? actual).2.warnings stage = actual.warnings stage := by
  obtain ⟨untouched, -, -, blind⟩ := heeds world minds.untouched
  obtain ⟨hides, spared, -, -⟩ := heeds actual minds.hides
  obtain ⟨same, beside⟩ := blind actual minds.beside
  have state := spared.sequence stage inside
  refine ⟨same, ⟨untouched, hides, beside, ?_, ?_, spared.integer? minds.counts, ?_⟩, state, spared.told _ inside⟩
  · rw [state, minds.body]
  · rw [state, minds.flag]
  · rw [spared.raising, minds.barred]

include apart avoids

omit inside in
theorem heeds_round (multi : Bool) (n : Nat) : ((calls n).round supply key multi).Heeds hidden fun _ => True :=
  ((heeds_calls n).next supply apart).bind fun _ fine =>
    ((heeds_calls n).keyFor avoids multi fine).bind fun _ _ => heeds_pure trivial

omit apart avoids in
/-- Remembering a key judges the round with it. A warning is issued if it meets the limit and warnings are not raised. -/
theorem Minds.remember (minds : Minds hidden stage supply key limit multi m bar world actual seen) (element k : Value) :
    ∃ (outcome : Except Fault Bool) (after : Store),
      (Run.remember stage k).from? actual = (outcome.mapError Halt.fault, after) ∧
      (seen.judge bar (.ok (element, world.contents k))).1 =
        outcome.map (fun fresh => if fresh then some element else none) ∧
      Minds hidden stage supply key limit multi m bar world after
        (seen.judge bar (.ok (element, world.contents k))).2 ∧
      after.sequence stage = { actual.sequence stage with
        body := .distinct supply key limit (seen.judge bar (.ok (element, world.contents k))).2 } ∧
      (bar = none → after.warnings stage =
        actual.warnings stage + if seen.meets m (.ok (element, world.contents k)) then 1 else 0) := by
  have held : actual.contents k = world.contents k := outward_contents k world actual minds.beside
  have counts := integer?_contents minds.counts
  rw [← held]
  let recording := seen.record (actual.contents limit) actual.raising (actual.contents k)
  let kept : Store := actual.updated stage fun state => { state with body := .distinct supply key limit recording.seen }
  obtain ⟨judged, notices⟩ := Seen.judge_record counts actual.raising element (actual.contents k)
  have calm : bar = none → actual.raising = false := by
    rw [minds.barred]
    cases actual.raising <;> simp
  rw [← minds.barred] at judged
  obtain ⟨journal, told⟩ := from?_tellSeen stage k recording.notices kept
  have warned := warnings_tellSeen stage k recording.notices kept
  rw [told] at warned
  have remembers : (Run.remember stage k).from? actual =
      (recording.outcome.mapError Halt.fault, { kept with journal := journal }) := by
    rw [Run.remember, from?_bind_ok (from?_sequence ..), minds.body]
    simp only
    rw [from?_bind_ok (from?_contents ..), from?_bind_ok (from?_view ..), from?_bind_ok (from?_contents ..),
      from?_bind_ok (from?_setBody ..)]
    exact (from?_bind_ok told).trans (from?_ofExcept ..)
  obtain ⟨minds', state⟩ := minds.changed inside (f := fun state => { state with
    body := .distinct supply key limit recording.seen }) rfl rfl journal
  rw [judged]
  exact ⟨recording.outcome, _, remembers, rfl, minds', state, fun free => warned.trans (by rw [notices (calm free)]; rfl)⟩

/-! ### Many rounds -/

/-- Pulling from a stage ends as sifting rounds in its world does, and leaves the stage with the same keys seen. Unless
warnings are raised, as many are issued as there are rounds that meet the limit. -/
theorem Minds.pull (minds : Minds hidden stage supply key limit multi m bar world actual seen) (n : Nat) :
    ∃ after, ((calls n).pull stage).from? actual = ((sift bar supply key multi n world seen).ended, after) ∧
      Minds hidden stage supply key limit multi m bar (sift bar supply key multi n world seen).left after
        (sift bar supply key multi n world seen).seen ∧
      after.sequence stage = { actual.sequence stage with
        body := .distinct supply key limit (sift bar supply key multi n world seen).seen } ∧
      (bar = none →
        after.warnings stage = actual.warnings stage + seen.meetings m (sift bar supply key multi n world seen).rounds) := by
  induction n generalizing world actual seen with
  | zero => exact ⟨actual, rfl, minds, by rw [sift, ← minds.body], fun _ => rfl⟩
  | succ n ih =>
    obtain ⟨same, minds', state, unwarned⟩ := minds.heeding inside (heeds_round apart avoids multi n)
    have unfolded : ((calls (n + 1)).pull stage).from? actual =
        ((calls n).round supply key multi >>= fun found => do
          if ← Run.remember stage found.2 then return found.1 else (calls n).pull stage).from? actual := by
      rw [← minds.flag]
      exact pullWith_round minds.body
    have unchanged : { actual.sequence stage with body := .distinct supply key limit seen } = actual.sequence stage := by
      rw [← minds.body]
    rw [unfolded, sift]
    rcases drawn : ((calls n).round supply key multi).from? world with ⟨ended, left⟩
    rcases drawn' : ((calls n).round supply key multi).from? actual with ⟨ended', left'⟩
    rw [drawn, drawn'] at same minds'
    rw [drawn'] at state unwarned
    obtain rfl : ended' = ended := same
    have beside : Minds hidden stage supply key limit multi m bar left left' seen := minds'
    have here : left'.sequence stage = actual.sequence stage := state
    have silent : left'.warnings stage = actual.warnings stage := unwarned
    rcases ended' with (fault | _) | ⟨element, k⟩
    · -- The supply or the key function failed.
      rw [from?_bind_error drawn']
      exact ⟨left', rfl, beside, here.trans unchanged.symm, fun _ => silent⟩
    · rw [from?_bind_error drawn']
      exact ⟨left', rfl, beside, here.trans unchanged.symm, fun _ => silent⟩
    · rw [from?_bind_ok drawn']
      obtain ⟨outcome, after, remembers, judged, beside', there, warned⟩ := beside.remember inside element k
      rw [here] at there
      rw [silent] at warned
      simp only [roundIn?]
      rcases outcome with fault | (_ | _)
      · rw [from?_bind_error remembers, judged]
        exact ⟨after, rfl, beside', there, fun calm => (warned calm).trans (by rw [← Seen.meetings_one]; rfl)⟩
      · -- The element is dropped, and the stage goes on.
        rw [from?_bind_ok remembers, judged]
        obtain ⟨last, ends, beside2, there', warned'⟩ := ih beside'
        rw [there] at there'
        refine ⟨last, ends, beside2, there', fun calm => ?_⟩
        subst calm
        rw [warned' rfl, warned rfl, Nat.add_assoc]
        exact congrArg (actual.warnings stage + ·) (Seen.meetings_cons ..).symm
      · rw [from?_bind_ok remembers, judged]
        exact ⟨after, rfl, beside', there, fun calm => (warned calm).trans (by rw [← Seen.meetings_one]; rfl)⟩

end

end

end Calls

end FirstSeen
