import FirstSeen.Proofs.History.Session
import FirstSeen.Proofs.Tower.Building
import FirstSeen.Proofs.Tower.Emitting

/-!
# Failures on the way

A distinct stage over a source that goes on after faults tells each fault of the source and each fault of its key
function, where it comes up, and remembers nothing of an element that failed. The elements that it hands out are those
that it hands out if faults and failed elements are left out of the source, and the others keep their keys.

A key function may fail in any of its calls: what it answers depends on all that it was asked before. What becomes of
the events of a source is therefore told along with the key function, as a list of *attempts*. The stage tells an
attempt that failed, and an element whose key is fresh; it goes on with the next attempt otherwise.
-/

set_option autoImplicit false

namespace FirstSeen

/-! ## Attempts -/

namespace KeyFunction

/-- The key function after it was asked with these arguments. -/
def asked (key : KeyFunction) (arguments : List Value) : KeyFunction :=
  { key with history := key.history.push arguments }

/-- What a key function answers next, to arguments that are no objects of a store. -/
def answerNext (key : KeyFunction) (arguments : List Value) : Except Fault Value :=
  key.respond Value.plainName key.history arguments

/-- Whether the answers of a key function to elements without references are values of their own, whatever it was
asked before, and do not depend on the names of other types. -/
def GivesOwn (multi : Bool) (key : KeyFunction) : Prop :=
  ∀ item : Item, item.Plain → ∀ arguments, item.arguments multi = .ok arguments →
    ∀ nameOf earlier, (∀ v, v.refs = [] → nameOf v = v.plainName) →
      key.respond nameOf earlier arguments = key.respond Value.plainName earlier arguments ∧
        ∀ k, key.respond Value.plainName earlier arguments = .ok k → k.refs = []

end KeyFunction

/-- The key of an element, or the fault that comes up instead, and the key function from then on. -/
def Item.tryKey (multi : Bool) (item : Item) : Option KeyFunction → Except Fault Value × Option KeyFunction
  | none => (.ok item.contents, none)
  | some key =>
    match item.arguments multi with
    | .error fault => (.error (Run.insteadOfEnd .keySignalledEnd fault), some key)
    | .ok arguments =>
      ((key.answerNext arguments).mapError (Run.insteadOfEnd .keySignalledEnd), some (key.asked arguments))

theorem Run.isEnd_insteadOfEnd {replacement : Fault} (noEnd : replacement.isEnd = false) (fault : Fault) :
    (Run.insteadOfEnd replacement fault).isEnd = false := by
  rw [Run.insteadOfEnd]
  split
  · exact noEnd
  · simpa using ‹¬ fault.isEnd = true›

/-- Only a source may signal the end, and no key function. -/
theorem Item.isEnd_tryKey {multi : Bool} (item : Item) {key : Option KeyFunction} {fault : Fault}
    (failed : (item.tryKey multi key).1 = .error fault) : fault.isEnd = false := by
  cases key with
  | none => cases failed
  | some key =>
    simp only [tryKey] at failed
    cases given : item.arguments multi with
    | error fault' =>
      rw [given] at failed
      cases failed
      exact Run.isEnd_insteadOfEnd rfl fault'
    | ok arguments =>
      rw [given] at failed
      cases answered : key.answerNext arguments with
      | ok k => simp [answered, Except.mapError] at failed
      | error fault' =>
        simp only [answered, Except.mapError] at failed
        cases failed
        exact Run.isEnd_insteadOfEnd rfl fault'

/-- What becomes of an event below a stage: a fault, or the contents of an element with their key. -/
abbrev Attempt := Except Fault (Value × Value)

namespace Attempt

/-- What becomes of events in turn. -/
def ofEvents (multi : Bool) : Option KeyFunction → List Draw → List Attempt
  | _, [] => []
  | key, .error fault :: rest => .error fault :: ofEvents multi key rest
  | key, .ok item :: rest =>
    (item.tryKey multi key).1.map (item.contents, ·) :: ofEvents multi (item.tryKey multi key).2 rest

/-- What a stage tells of attempts in turn: faults, and the contents of elements whose keys are fresh. -/
def told (limit : Value) : Seen → List Attempt → List (Except Fault Value)
  | _, [] => []
  | seen, .error fault :: rest => .error fault :: told limit seen rest
  | seen, .ok (contents, key) :: rest =>
    let recording := seen.record limit false key
    match recording.outcome with
    | .error fault => .error fault :: told limit recording.seen rest
    | .ok true => .ok contents :: told limit recording.seen rest
    | .ok false => told limit recording.seen rest

/-- What a stage has seen after an attempt. -/
def leaves (limit : Value) (seen : Seen) : Attempt → Seen
  | .error _ => seen
  | .ok (_, key) => (seen.record limit false key).seen

/-- Whether no look-up of a key fails. -/
def Smooth (limit : Value) : Seen → List Attempt → Prop
  | _, [] => True
  | seen, .error _ :: rest => Smooth limit seen rest
  | seen, .ok (_, key) :: rest =>
    (∃ fresh, (seen.record limit false key).outcome = .ok fresh) ∧
      Smooth limit (seen.record limit false key).seen rest

variable {limit : Value} {seen : Seen}

/-- The faults that are told are those of the attempts, in their order. -/
theorem told_faults {attempts : List Attempt} (smooth : Smooth limit seen attempts) :
    (told limit seen attempts).filter (!·.isOk) = (attempts.map (·.map Prod.fst)).filter (!·.isOk) := by
  induction attempts generalizing seen with
  | nil => rfl
  | cons attempt rest ih =>
    match attempt with
    | .error fault =>
      change .error fault :: (told limit seen rest).filter (!·.isOk) =
        .error fault :: (rest.map (·.map Prod.fst)).filter (!·.isOk)
      rw [ih smooth]
    | .ok (contents, key) =>
      obtain ⟨⟨fresh, outcome⟩, smooth⟩ := smooth
      change _ = (rest.map (·.map Prod.fst)).filter (!·.isOk)
      simp only [told, outcome]
      cases fresh with
      | false => exact ih smooth
      | true => exact ih smooth

/-- Without the attempts that failed, the same elements are told. -/
theorem told_kept {attempts : List Attempt} (smooth : Smooth limit seen attempts) :
    told limit seen (attempts.filter (·.isOk)) = (told limit seen attempts).filter (·.isOk) ∧
      Smooth limit seen (attempts.filter (·.isOk)) := by
  induction attempts generalizing seen with
  | nil => exact ⟨rfl, trivial⟩
  | cons attempt rest ih =>
    match attempt with
    | .error fault => exact ih smooth
    | .ok (contents, key) =>
      obtain ⟨⟨fresh, outcome⟩, smooth⟩ := smooth
      obtain ⟨same, kept⟩ := ih smooth
      rw [List.filter_cons_of_pos rfl]
      refine ⟨?_, ⟨fresh, outcome⟩, kept⟩
      simp only [told, outcome]
      cases fresh with
      | false => exact same
      | true => rw [same, List.filter_cons_of_pos rfl]

/-- No fault of an attempt signals the end if none of the events does. -/
theorem noEnd_ofEvents {multi : Bool} {key : Option KeyFunction} {events : List Draw} {fault : Fault}
    (noEnd : ∀ fault, .error fault ∈ events → fault.isEnd = false) (member : .error fault ∈ ofEvents multi key events) :
    fault.isEnd = false := by
  induction events generalizing key with
  | nil => cases member
  | cons event rest ih =>
    have noEnd' : ∀ fault, .error fault ∈ rest → fault.isEnd = false := fun fault member =>
      noEnd fault (List.mem_cons_of_mem _ member)
    cases event with
    | error first =>
      rcases List.mem_cons.mp member with same | member
      · cases same
        exact noEnd fault List.mem_cons_self
      · exact ih noEnd' member
    | ok item =>
      rcases List.mem_cons.mp member with same | member
      · cases tried : (item.tryKey multi key).1 with
        | ok k => rw [tried] at same; cases same
        | error fault' =>
          rw [tried] at same
          cases same
          exact item.isEnd_tryKey tried
      · exact ih noEnd' member

end Attempt

namespace Store

/-- The key function that a key is, if it is one. -/
def keyFunction? (store : Store) : Value → Option KeyFunction
  | .object (.key id) => store.keys[id.index]?
  | _ => none

/-- Whether a key is none at all, or a key function of the store that gives values of its own. -/
def Keyed (store : Store) (multi : Bool) (key : Value) : Prop :=
  key = .null ∨ ∃ id function, key = .object (.key id) ∧ store.keys[id.index]? = some function ∧ function.GivesOwn multi

/-! ## One attempt -/

/-- Whether a distinct stage can be made on data that go on through faults up to their end. -/
structure Tries (store : Store) (multi : Bool) (d key limit : Value) (events : List Draw) : Prop where
  raw : store.Raw d
  emits : (store.originOf d).Emits events
  keyed : store.Keyed multi key
  /-- The key function does not make the data. -/
  apart : d ≠ key
  data : store.IsData limit
  calm : store.raising = false

/-- Whether a stage on a sequence over data is ahead of events, given the keys that it has seen. -/
structure Faces (first : Store) (multi : Bool) (d key limit : Value) (supply stage : SequenceId) (seen : Seen)
    (events : List Draw) (store : Store) : Prop where
  passes : ∃ started, store.Passes Item.Plain stage ⟨started, false, none⟩
  flag : (store.sequence stage).multiValue = multi
  body : (store.sequence stage).body = .distinct supply key limit seen
  apart : stage ≠ supply
  below : ∃ origin, Supplies first d multi supply origin store ∧ origin.Emits events
  keyed : store.Keyed multi key

section Facing

variable {first store : Store} {multi : Bool} {d key limit : Value} {supply stage : SequenceId} {seen : Seen}
  {event : Draw} {events rest : List Draw} {n : Nat}

/-- A key stays what it is while what its key function was asked stays. -/
theorem Keyed.later (keyed : store.Keyed multi key) (after : Store)
    (same : ∀ id : KeyId, key = .object (.key id) → after.keys[id.index]? = store.keys[id.index]?) :
    after.Keyed multi key ∧ after.keyFunction? key = store.keyFunction? key := by
  rcases keyed with rfl | ⟨id, function, rfl, found, own⟩
  · exact ⟨.inl rfl, rfl⟩
  · have here := same id rfl
    exact ⟨.inr ⟨id, function, rfl, here.trans found, own⟩, here⟩

/-- The key that a stage finds for an element is the one of the attempt, and the key function keeps what it was
asked. -/
theorem Keyed.finds (keyed : store.Keyed multi key) {item : Item} {v : Value} (c : Calls)
    (shows' : store.Shows Item.Plain item v) :
    ∃ ended after, (c.keyFor key multi v).from? store = (ended, after) ∧
      after.FindsKey ended (item.tryKey multi (store.keyFunction? key)).1 ∧ store.Adds after ∧ after.Keyed multi key ∧
      after.keyFunction? key = (item.tryKey multi (store.keyFunction? key)).2 := by
  rcases keyed with rfl | ⟨id, function, rfl, found, own⟩
  · exact ⟨.ok v, store, rfl, ⟨v, rfl, shows'.contents⟩, .refl store, .inl rfl, rfl⟩
  · have here : store.key id = function := by rw [Store.key, Array.getD_eq_getD_getElem?, found]; rfl
    have now : ∀ arguments, item.arguments multi = .ok arguments →
        store.AnswersNow id arguments (function.answerNext arguments) := fun arguments given => by
      have answers := own item shows'.domain arguments given store.typeName function.history fun _ =>
        store.typeName_of_refs_nil
      refine ⟨by rw [here]; exact answers.1, answers.2⟩
    obtain ⟨ended, after, ends, finds, adds⟩ := keyFor_answers c shows' now
    have asked := @keyFor_asked _ multi store _ v item c (.inr ⟨id, rfl⟩) shows'
    rw [ends] at asked
    obtain rfl : after = store.asked multi (.object (.key id)) item := asked
    simp only [keyFunction?, found, Item.tryKey]
    cases given : item.arguments multi with
    | error fault =>
      rw [given] at finds
      have same : store.asked multi (.object (.key id)) item = store := by simp only [Store.asked, given]
      rw [same] at ends finds adds
      exact ⟨ended, store, ends, finds, adds, .inr ⟨id, function, rfl, found, own⟩, found⟩
    | ok arguments =>
      rw [given] at finds
      have there : (store.asked multi (.object (.key id)) item).keys[id.index]? = some (function.asked arguments) := by
        simp only [Store.asked, given, Array.getElem?_modify, if_true, found]
        rfl
      exact ⟨ended, _, ends, finds, adds, .inr ⟨id, _, rfl, there, own⟩, there⟩

/-- What a pull comes to that meets an attempt: the fault, the element if its key is fresh, or what the next pull
comes to. -/
def PullsAttempt (limit : Value) (seen : Seen) (pull again : Except Halt Value × Store) (after : Store) :
    Attempt → Prop
  | .error fault => fault.isEnd = false ∧ pull = (.error (.fault fault), after)
  | .ok (contents, key) =>
    match (seen.record limit false key).outcome with
    | .error fault => pull = (.error (.fault fault), after)
    | .ok true => ∃ v, pull = (.ok v, after) ∧ after.contents v = contents
    | .ok false => pull = again

/-- A pull of a stage meets the next attempt, and leaves the stage ahead of the others. -/
theorem Faces.attempt {all : List Draw} (tries : first.Tries multi d key limit all)
    (faces : Faces first multi d key limit supply stage seen (event :: rest) store) (deep : 3 ≤ n) :
    ∃ attempt after,
      Attempt.ofEvents multi (store.keyFunction? key) (event :: rest) =
        attempt :: Attempt.ofEvents multi (after.keyFunction? key) rest ∧
      Faces first multi d key limit supply stage (Attempt.leaves (first.contents limit) seen attempt) rest after ∧
      PullsAttempt (first.contents limit) seen (((calls (n + 1)).pull stage).from? store)
        (((calls n).pull stage).from? after) after attempt := by
  obtain ⟨⟨started, passes⟩, flag, body, apart, ⟨origin, supplies, ⟨drawn, noEnd⟩, emits⟩, keyed⟩ := faces
  obtain ⟨ended, next, ends, delivers, works, keys, further⟩ := supplies.next tries.raw deep
  rw [drawn] at delivers further
  have supplies' := further noEnd
  obtain ⟨same, passes'⟩ := works.passes (fun member => apart (List.mem_singleton.mp member)) passes
  obtain ⟨keyed', function⟩ := keyed.later next fun id form =>
    keys id fun made => tries.apart (made.trans form.symm)
  rw [from?_pull_distinct n body, flag]
  cases event with
  | error fault =>
    rcases ended with halt | v
    · obtain rfl : halt = .fault fault := delivers
      refine ⟨.error fault, next, by rw [function]; rfl, ⟨⟨_, passes'⟩, same ▸ flag, same ▸ body, apart,
        ⟨_, supplies', emits⟩, keyed'⟩, noEnd fault rfl, Run.from?_bind_error ends⟩
    · exact delivers.elim
  | ok item =>
    rcases ended with halt | v
    · exact delivers.elim
    · obtain ⟨ended, asked, asks, finds, adds, keyed'', function'⟩ := keyed'.finds (calls n) delivers
      let rule : Rule := ⟨fun _ => (item.tryKey multi (next.keyFunction? key)).1, first.contents limit, false⟩
      have grows := supplies'.grows
      have body' : (next.sequence stage).body = .distinct supply key limit seen := same ▸ body
      obtain ⟨after, remembers, state, spares, works', keys'⟩ := judge_recorded passes'.inside body'
        (grows.isData tries.data) (show rule.limit = _ from (grows.contents tries.data).symm)
        (show rule.raising = _ by rw [grows.raising, tries.calm]) asks
        (show asked.FindsKey ended (rule.keyOf item) from finds) adds
      obtain ⟨keyed₃, function₃⟩ := keyed''.later after fun id _ => by rw [keys']
      have faces : Faces first multi d key limit supply stage (rule.judge seen item).2 rest after :=
        ⟨⟨started, passes'.rebodied works' state⟩, by rw [state]; exact same ▸ flag, by rw [state], apart,
          ⟨_, supplies'.spared tries.raw (spares [supply] fun member => apart (List.mem_singleton.mp member)), emits⟩,
          keyed₃⟩
      have events : Attempt.ofEvents multi (store.keyFunction? key) (.ok item :: rest) =
          (item.tryKey multi (next.keyFunction? key)).1.map (item.contents, ·) ::
            Attempt.ofEvents multi (after.keyFunction? key) rest := by
        rw [function₃, function', ← function]
        rfl
      have pulled : (((calls n).next supply >>= fun element =>
          ((do Run.remember stage (← (calls n).keyFor key multi element)) >>= fun fresh =>
            if fresh then pure element else (calls n).pull stage)).from? store) =
          match (rule.judge seen item).1 with
          | .error fault => (.error (.fault fault), after)
          | .ok true => (.ok v, after)
          | .ok false => ((calls n).pull stage).from? after := by
        rw [Run.from?_bind_ok ends, Run.from?_bind, remembers]
        rcases (rule.judge seen item).1 with fault | _ | _ <;> rfl
      rw [pulled, events]
      clear pulled remembers state
      cases tried : (item.tryKey multi (next.keyFunction? key)).1 with
      | error fault =>
        have judged : rule.judge seen item = (.error fault, seen) := by simp only [Rule.judge, rule, tried]
        rw [judged] at faces ⊢
        exact ⟨.error fault, after, rfl, faces, item.isEnd_tryKey tried, rfl⟩
      | ok k =>
        have judged : rule.judge seen item = ((seen.record (first.contents limit) false k).outcome,
            (seen.record (first.contents limit) false k).seen) := by simp only [Rule.judge, rule, tried]
        rw [judged] at faces ⊢
        refine ⟨.ok (item.contents, k), after, rfl, faces, ?_⟩
        rw [PullsAttempt]
        rcases (seen.record (first.contents limit) false k).outcome with fault | _ | _
        · rfl
        · rfl
        · exact ⟨v, rfl, (works'.grows.shows delivers).contents⟩

/-! ## All attempts -/

/-- Whether a call handed out an element with these contents, or ended with this fault. -/
def ComesTo (ending : Except Halt Value × Store) : Except Fault Value → Prop
  | .ok contents => ∃ v, ending.1 = .ok v ∧ ending.2.contents v = contents
  | .error fault => ending.1 = .error (.fault fault)

/-- Whether a call of a stage came to the first of these outcomes and left the stage ahead of the others, in no more
than so many events, or to the end if there is no outcome. -/
def TellsNext (first : Store) (multi : Bool) (d key limit : Value) (supply stage : SequenceId) (bound : Nat)
    (ending : Except Halt Value × Store) : List (Except Fault Value) → Prop
  | [] => ComesTo ending (.error .ended)
  | outcome :: others =>
    (∀ fault, outcome = .error fault → fault.isEnd = false) ∧ ComesTo ending outcome ∧
      ∃ seen events, Faces first multi d key limit supply stage seen events ending.2 ∧ events.length ≤ bound ∧
      let attempts := Attempt.ofEvents multi (ending.2.keyFunction? key) events
      Attempt.Smooth (first.contents limit) seen attempts ∧ Attempt.told (first.contents limit) seen attempts = others

theorem TellsNext.mono {bound more : Nat} {ending : Except Halt Value × Store} {outcomes : List (Except Fault Value)}
    (le : bound ≤ more) (tells : TellsNext first multi d key limit supply stage bound ending outcomes) :
    TellsNext first multi d key limit supply stage more ending outcomes := by
  cases outcomes with
  | nil => exact tells
  | cons outcome others =>
    obtain ⟨noEnd, comes, seen, events, faces, within, rest⟩ := tells
    exact ⟨noEnd, comes, seen, events, faces, Nat.le_trans within le, rest⟩

/-- A pull of a stage goes through attempts up to one that is told. -/
theorem Faces.pull {all : List Draw} (tries : first.Tries multi d key limit all)
    (faces : Faces first multi d key limit supply stage seen events store)
    (smooth : Attempt.Smooth (first.contents limit) seen (Attempt.ofEvents multi (store.keyFunction? key) events))
    (deep : events.length + 4 ≤ n) :
    TellsNext first multi d key limit supply stage events.length (((calls n).pull stage).from? store)
      (Attempt.told (first.contents limit) seen (Attempt.ofEvents multi (store.keyFunction? key) events)) := by
  induction events generalizing store seen n with
  | nil =>
    obtain ⟨n, rfl⟩ : ∃ m, n = m + 1 := ⟨n - 1, by omega⟩
    obtain ⟨origin, supplies, emits⟩ := faces.below
    obtain ⟨ended, after, ends, delivers, -⟩ := supplies.next tries.raw (n := n) (by omega)
    rw [show origin.taken.1 = _ from emits] at delivers
    rcases ended with halt | v
    · obtain rfl : halt = .fault .ended := delivers
      change (((calls (n + 1)).pull stage).from? store).1 = _
      rw [from?_pull_distinct n faces.body, Run.from?_bind_error ends]
    · exact delivers.elim
  | cons event rest ih =>
    simp only [List.length_cons] at deep ⊢
    obtain ⟨n, rfl⟩ : ∃ m, n = m + 1 := ⟨n - 1, by omega⟩
    obtain ⟨attempt, after, attempts, faces', pulled⟩ := faces.attempt tries (n := n) (by omega)
    rw [attempts] at smooth ⊢
    match attempt with
    | .error fault =>
      obtain ⟨noEnd, pulled⟩ := pulled
      rw [pulled]
      exact ⟨fun _ same => by cases same; exact noEnd, rfl, seen, rest, faces', Nat.le_succ _, smooth, rfl⟩
    | .ok (contents, k) =>
      obtain ⟨⟨fresh, outcome⟩, smooth⟩ := smooth
      simp only [PullsAttempt, outcome] at pulled
      simp only [Attempt.told, outcome]
      cases fresh with
      | false =>
        rw [pulled]
        exact (ih faces' smooth (by omega)).mono (Nat.le_succ _)
      | true =>
        obtain ⟨v, pulled, same⟩ := pulled
        rw [pulled]
        exact ⟨fun _ other => (by cases other), ⟨v, rfl, same⟩, _, rest, faces', Nat.le_succ _, smooth, rfl⟩

/-- Asking a stage goes through attempts up to one that is told. -/
theorem Faces.next {all : List Draw} (tries : first.Tries multi d key limit all)
    (faces : Faces first multi d key limit supply stage seen events store)
    (smooth : Attempt.Smooth (first.contents limit) seen (Attempt.ofEvents multi (store.keyFunction? key) events))
    (deep : events.length + 5 ≤ n) :
    TellsNext first multi d key limit supply stage events.length (((calls n).next stage).from? store)
      (Attempt.told (first.contents limit) seen (Attempt.ofEvents multi (store.keyFunction? key) events)) := by
  obtain ⟨n, rfl⟩ : ∃ m, n = m + 1 := ⟨n - 1, by omega⟩
  let begin (state : SequenceState) : SequenceState := { state with started := true }
  obtain ⟨⟨started, inside, -, exhausted, peeks⟩, flag, body, apart, ⟨origin, supplies, emits⟩, keyed⟩ := faces
  have there := sequence_updated (f := begin) inside
  have begun : Faces first multi d key limit supply stage seen events (store.updated stage begin) := by
    refine ⟨⟨true, by simpa using inside, by rw [there], by rw [there]; exact exhausted, ?_⟩, by rw [there]; exact flag,
      by rw [there]; exact body, apart, ⟨origin, supplies.spared tries.raw (spares_updated fun member =>
        apart (List.mem_singleton.mp member)), emits⟩, keyed⟩
    rw [there]
    exact (grows_updated ..).peeks peeks
  have nothing : (store.sequence stage).peeked = none := by
    cases held : (store.sequence stage).peeked with
    | none => rfl
    | some v => rw [held] at peeks; exact peeks.elim
  have unfolded : ((calls (n + 1)).next stage).from? store = (Run.onFault ((calls n).pull stage) fun fault => do
      if fault.isEnd then Run.signalEnd stage
      Run.fail fault).from? (store.updated stage begin) := by
    change ((calls n).nextWith stage).from? store = _
    rw [Calls.nextWith, Run.from?_bind_ok (Run.from?_sequence ..), nothing]
    simp only [exhausted]
    rfl
  have pulled := begun.pull tries smooth (n := n) (by omega)
  rw [unfolded, Run.from?_onFault]
  change TellsNext first multi d key limit supply stage events.length _
    (Attempt.told (first.contents limit) seen (Attempt.ofEvents multi (store.keyFunction? key) events)) at pulled
  generalize Attempt.told (first.contents limit) seen _ = outcomes at pulled ⊢
  generalize ((calls n).pull stage).from? (store.updated stage begin) = ending at pulled ⊢
  obtain ⟨ended, after⟩ := ending
  rcases outcomes with _ | ⟨fault | contents, others⟩
  · obtain rfl : ended = .error (.fault .ended) := pulled
    obtain ⟨last, signalled⟩ := Run.signalEnd_ends after stage
    exact congrArg Prod.fst (Run.from?_bind_ok signalled)
  · obtain ⟨noEnd, same, -⟩ := id pulled
    obtain rfl : ended = .error (.fault fault) := same
    simp only [noEnd fault rfl]
    exact pulled
  · obtain ⟨-, ⟨v, same, -⟩, -⟩ := id pulled
    obtain rfl : ended = .ok v := same
    exact pulled

/-- What is seen of a sequence that is asked for an element. -/
theorem perform_next {told : Except Fault Value} {streams : List CursorId} {id : SequenceId}
    (comes : ComesTo (((calls n).next id).from? store) told) :
    ∃ outcome, (Session.mk store streams).perform n id .next =
        some (outcome, ⟨(((calls n).next id).from? store).2, streams⟩) ∧
      outcome.answer = told.map .element := by
  have run : (Op.next.run (calls n) id streams).from? store =
      ((((calls n).next id).from? store).1.map fun v => (.element v, streams), (((calls n).next id).from? store).2) := by
    rw [Op.run, Run.from?_bind]
    rcases ((calls n).next id).from? store with ⟨halt | v, last⟩ <;> rfl
  cases told with
  | error fault =>
    rw [show _ = _ from comes] at run
    simp only [Session.perform, run, Except.map]
    exact ⟨_, rfl, rfl⟩
  | ok contents =>
    obtain ⟨v, ends, rfl⟩ := comes
    rw [ends] at run
    simp only [Session.perform, run, Except.map]
    exact ⟨_, rfl, rfl⟩

/-- A stage that is asked until its end tells one outcome after another. -/
theorem Faces.play {all : List Draw} {outcomes : List (Except Fault Value)} {streams : List CursorId}
    (tries : first.Tries multi d key limit all)
    (faces : Faces first multi d key limit supply stage seen events store)
    (smooth : Attempt.Smooth (first.contents limit) seen (Attempt.ofEvents multi (store.keyFunction? key) events))
    (told : Attempt.told (first.contents limit) seen (Attempt.ofEvents multi (store.keyFunction? key) events) = outcomes)
    (deep : events.length + 5 ≤ n) :
    ∃ seen last, (Session.mk store streams).play n stage (List.replicate (outcomes.length + 1) .next) =
        some (seen, last) ∧
      seen.map Outcome.answer = outcomes.map (Except.map .element) ++ [.error .ended] := by
  induction outcomes generalizing store seen events with
  | nil =>
    have asked := faces.next tries smooth deep
    rw [told] at asked
    obtain ⟨outcome, performed, answer⟩ := @perform_next _ _ (.error .ended) streams _ asked
    simp only [List.length_nil, List.replicate, Session.play, performed]
    exact ⟨[outcome], _, rfl, congrArg (· :: []) answer⟩
  | cons outcome others ih =>
    have asked := faces.next tries smooth deep
    rw [told] at asked
    obtain ⟨-, comes, seen', rest, faces', shorter, smooth', told'⟩ := asked
    obtain ⟨outcomes, last, played, answers⟩ := ih faces' smooth' told' (by omega)
    obtain ⟨first, performed, answer⟩ := @perform_next _ _ _ streams _ comes
    rw [List.length_cons, List.replicate_succ, Session.play, performed]
    simp only [played]
    exact ⟨first :: outcomes, last, rfl, by rw [List.map_cons, answers, answer]; rfl⟩

end Facing

/-- Makes a distinct stage on data and asks it for so many elements in turn: what each call comes to. -/
def askInTurn (n : Nat) (multi : Bool) (d key limit : Value) (times : Nat) (store : Store) :
    Option (List (Except Fault (Answer Value))) :=
  match (do
      let supply ← Run.toSequence d (.bool multi)
      (calls n).newDistinct (.ofSequence supply) key limit : Run SequenceId).from? store with
  | (.ok stage, made) =>
    ((Session.mk made []).play n stage (List.replicate times .next)).map fun played => played.1.map Outcome.answer
  | (.error _, _) => none

/-- What becomes of the events of data below a stage. -/
def attempts (store : Store) (multi : Bool) (key : Value) (events : List Draw) : List Attempt :=
  Attempt.ofEvents multi (store.keyFunction? key) events

/-- A new stage on data that is asked until its end tells their attempts. -/
theorem Tries.told {store : Store} {multi : Bool} {d key limit : Value} {events : List Draw} {n : Nat}
    (tries : store.Tries multi d key limit events)
    (smooth : Attempt.Smooth (store.contents limit) .empty (store.attempts multi key events))
    (deep : events.length + 5 ≤ n) :
    let outcomes := Attempt.told (store.contents limit) .empty (store.attempts multi key events)
    store.askInTurn n multi d key limit (outcomes.length + 1) =
      some (outcomes.map (Except.map .element) ++ [.error .ended]) := by
  intro outcomes
  let state : SequenceState := { body := store.groundBody d, multiValue := multi }
  let supplied : Store := store.joined state
  have stands : supplied.Stands Item.Plain (store.aside d) multi ⟨store.sequences.size⟩ [⟨store.sequences.size⟩]
      (.ground {} (store.originOf d)) := stands_ground_joined (backs_of_raw tries.raw tries.raw.within)
  let stage : SequenceState := { body := .distinct ⟨store.sequences.size⟩ key limit .empty, multiValue := multi }
  have ground : (store.groundBody d).withFeed none = store.groundBody d := by
    rw [groundBody]
    split <;> rfl
  have spares := spares_joined supplied stage stands.inside
  have faces : Faces store multi d key limit ⟨store.sequences.size⟩ ⟨supplied.sequences.size⟩ .empty events
      (supplied.joined stage) := by
    have there := sequence_joined_new supplied stage
    refine ⟨⟨false, passes_joined rfl rfl rfl⟩, by rw [there], by rw [there], fun same => ?_,
      ⟨_, ⟨(grows_joined ..).trans (grows_joined ..), ⟨false, stands.spared spares⟩, none, ?_⟩, tries.emits⟩,
      tries.keyed⟩
    · have inside := stands.inside _ List.mem_cons_self
      rw [← same] at inside
      exact Nat.lt_irrefl _ inside
    · change ((supplied.joined stage).sequence ⟨store.sequences.size⟩).body = (store.groundBody d).withFeed none
      rw [spares.same _ List.mem_cons_self, ground]
      exact congrArg SequenceState.body (sequence_joined_new store state)
  have makes : (do
      let supply ← Run.toSequence d (.bool multi)
      (calls n).newDistinct (.ofSequence supply) key limit : Run SequenceId).from? store =
        (.ok ⟨supplied.sequences.size⟩, supplied.joined stage) := by
    rw [Run.from?_bind_ok (from?_toSequence tries.raw multi (.refl store))]
    exact stands.from?_newDistinct (by simp only [Tower.height]; omega)
  obtain ⟨seen, last, played, answers⟩ := @Faces.play _ _ _ _ _ _ _ _ _ _ _ _ outcomes [] tries faces smooth rfl deep
  rw [askInTurn, makes]
  simp only [played, Option.map_some, answers]

/-- Faults on the way leave no trace in what is handed out. Data emit elements and faults, and elements of other data
come to the same attempts as these but for those that fail. A new stage on the first data that is asked until its end
raises the faults of the source and of its key function in turn, each where it comes up, and hands out the elements
that a new stage on the other data hands out, which raises none. -/
theorem failures_leave_no_trace {store clean : Store} {multi multi' : Bool} {d d' key key' limit limit' : Value}
    {events events' : List Draw} (tries : store.Tries multi d key limit events)
    (smooth : Attempt.Smooth (store.contents limit) .empty (store.attempts multi key events))
    (tries' : clean.Tries multi' d' key' limit' events') (limits : clean.contents limit' = store.contents limit)
    (kept : clean.attempts multi' key' events' = (store.attempts multi key events).filter (·.isOk)) :
    let outcomes := Attempt.told (store.contents limit) .empty (store.attempts multi key events)
    let handed := outcomes.filter (·.isOk)
    (outcomes.filter (!·.isOk) = ((store.attempts multi key events).map (·.map Prod.fst)).filter (!·.isOk)) ∧
      (∀ fault, .error fault ∈ outcomes → fault.isEnd = false) ∧
      ∀ n, max events.length events'.length + 5 ≤ n →
        store.askInTurn n multi d key limit (outcomes.length + 1) =
          some (outcomes.map (Except.map .element) ++ [.error .ended]) ∧
        clean.askInTurn n multi' d' key' limit' (handed.length + 1) =
          some (handed.map (Except.map .element) ++ [.error .ended]) := by
  intro outcomes handed
  have faults := Attempt.told_faults smooth
  obtain ⟨same, smooth'⟩ := Attempt.told_kept smooth
  rw [← kept] at same smooth'
  refine ⟨faults, fun fault member => ?_, fun n deep => ⟨tries.told smooth (by omega), ?_⟩⟩
  · have failed : .error fault ∈ outcomes.filter (!·.isOk) := List.mem_filter.mpr ⟨member, rfl⟩
    rw [faults] at failed
    obtain ⟨attempt, member, same⟩ := List.mem_map.mp (List.mem_filter.mp failed).1
    cases attempt with
    | ok found => cases same
    | error fault' =>
      cases same
      exact Attempt.noEnd_ofEvents (fun _ => tries.emits.noEnd) member
  · have told := tries'.told (limits ▸ smooth') (n := n) (by omega)
    rw [limits, same] at told
    exact told

/-- An iterator that fails between two elements, and a key function that fails in its fourth call. -/
def faltering : Store where
  cursors := #[.walking "StepIter" (.ofEvents [.value (.int 1), .fault (.scripted .value "torn"), .value (.int 2),
    .value (.int 1), .value (.int 3), .value (.int 3), .value (.int 2)]) 0 none .silent]
  keys := #[{ respond := fun _ earlier arguments =>
    if earlier.size = 3 then .error (.scripted .stop "spent") else .ok (arguments.headD .null) }]

/-- The fourth element fails and is fresh when it comes again, as it is if it is left out. -/
theorem failures_leave_no_trace_walker :
    faltering.askInTurn 20 false (.object (.cursor ⟨0⟩)) (.object (.key ⟨0⟩)) (.int 10000) 6 =
        some [.ok (.element (.int 1)), .error (.scripted .value "torn"), .ok (.element (.int 2)),
          .error .keySignalledEnd, .ok (.element (.int 3)), .error .ended] ∧
      Store.askInTurn 20 false (.tuple [.int 1, .int 2, .int 1, .int 3, .int 2]) .null (.int 10000) 4 {} =
        some [.ok (.element (.int 1)), .ok (.element (.int 2)), .ok (.element (.int 3)), .error .ended] := by
  let item (a : Int) : Item := ⟨.int a, false, some (.int a)⟩
  let events : List Draw := [.ok (item 1), .error (.scripted .value "torn"), .ok (item 2), .ok (item 1), .ok (item 3),
    .ok (item 3), .ok (item 2)]
  let events' : List Draw := [.ok (item 1), .ok (item 2), .ok (item 1), .ok (item 3), .ok (item 2)]
  have tries : faltering.Tries false (.object (.cursor ⟨0⟩)) (.object (.key ⟨0⟩)) (.int 10000) events := by
    refine ⟨⟨.inl rfl, fun _ => trivial, fun given => (by cases given), fun id found => ?_⟩,
      Origin.emits_of_walker rfl rfl (fun i => ?_) fun fault member => ?_,
      .inr ⟨⟨0⟩, _, rfl, rfl, fun item plain arguments given nameOf earlier _ => ⟨rfl, fun k answered => ?_⟩⟩, nofun,
      isData_of_refs_nil rfl, rfl⟩
    · obtain rfl : (⟨0⟩ : CursorId) = id := Option.some.inj found
      refine ⟨Nat.one_pos, rfl, fun _ _ _ form => (by cases form), fun i event there => ?_⟩
      have member := List.mem_of_getElem? there
      simp only [List.mem_cons, List.not_mem_nil, or_false] at member
      rcases member with rfl | rfl | rfl | rfl | rfl | rfl | rfl <;> first | trivial | exact isData_of_refs_nil rfl
    · exact (congrArg _ (Nat.zero_add i)).trans List.getElem?_map.symm
    · simp [events] at member
      rw [member]
      rfl
    · cases given
      change (if earlier.size = 3 then .error _ else .ok item.contents) = Except.ok k at answered
      split at answered
      · cases answered
      · cases answered
        exact plain
  have tries' : Tries {} false (.tuple [.int 1, .int 2, .int 1, .int 3, .int 2]) .null (.int 10000) events' := by
    refine ⟨⟨.inl rfl, fun _ => isData_of_refs_nil rfl, fun given => (by cases given), fun _ found => (by cases found)⟩,
      Origin.emits_of_walker rfl rfl (fun i => ?_) fun fault member => ?_, .inl rfl, nofun, isData_of_refs_nil rfl, rfl⟩
    · refine (congrArg _ (Nat.zero_add i)).trans ?_
      exact (congrArg (Option.map _) List.getElem?_map.symm).trans List.getElem?_map.symm
    · simp [events'] at member
  have traces := failures_leave_no_trace tries ⟨⟨_, rfl⟩, ⟨_, rfl⟩, ⟨_, rfl⟩, ⟨_, rfl⟩, ⟨_, rfl⟩, trivial⟩ tries' rfl rfl
  have attempts : faltering.attempts false (.object (.key ⟨0⟩)) events = [.ok (.int 1, .int 1),
      .error (.scripted .value "torn"), .ok (.int 2, .int 2), .ok (.int 1, .int 1), .error .keySignalledEnd,
      .ok (.int 3, .int 3), .ok (.int 2, .int 2)] := rfl
  have told : Attempt.told (faltering.contents (.int 10000)) .empty (faltering.attempts false (.object (.key ⟨0⟩)) events) =
      [.ok (.int 1), .error (.scripted .value "torn"), .ok (.int 2), .error .keySignalledEnd, .ok (.int 3)] := by
    rw [attempts]
    rfl
  have both := traces.2.2 20 (by decide)
  rw [told] at both
  exact both

end Store

end FirstSeen
