import FirstSeen.Proofs.Avoiding
import FirstSeen.Proofs.Collision
import FirstSeen.Proofs.Deepening
import FirstSeen.Proofs.Peeking
import FirstSeen.Proofs.Tower.Judging
import Mathlib.Logic.Relation

/-!
# A failure is not remembered

A distinct stage that fails to hand out an element remembers what it remembered before. One request may skip many
elements whose keys were seen, and then fail where its supply does, where the key function does, or where the key is
looked up: in hashing it, in comparing it with a key among the hashed ones or in the list, in comparing the limit, or
because the limit was reached and warnings are raised. A fault of a type kind from looking among the hashed keys is none
of these; it leads to the list.

The stage is as it was, but that it was started. The element whose key failed was handed out by the supply and is gone,
and the next request begins with the element after it.

This holds if what the stage draws on does not lead back to it. A key function that is given the items of an element may
be given those of the stage itself, which then moves on, and may come to its end, before its key function answers.
-/

set_option autoImplicit false

namespace FirstSeen

/-- The fault that a run was halted by, if it was. -/
def Run.faultOf {α : Type} : Except Halt α → Option Fault
  | .error (.fault fault) => some fault
  | _ => none

namespace Seen

variable {seen : Seen} {limit key : Value} {raising : Bool}

/-- How recording a key fails. -/
inductive Fails (seen : Seen) (limit : Value) (raising : Bool) (key : Value) : Fault → Prop
  /-- Hashing fails, or a comparison with a hashed key, and not with a type. -/
  | lookUp {fault : Fault} (failed : seen.recordHashed key = .error fault) (noType : fault.isType = false) :
      Fails seen limit raising key fault
  /-- Then the limit cannot be compared. -/
  | limit {unhashed fault : Fault} (looked : seen.recordHashed key = .error unhashed) (type : unhashed.isType = true)
      (failed : seen.atLimit limit = .error fault) : Fails seen limit raising key fault
  /-- Then the warning is raised. -/
  | warning {unhashed : Fault} (looked : seen.recordHashed key = .error unhashed) (type : unhashed.isType = true)
      (full : seen.atLimit limit = .ok true) (raised : raising = true) : Fails seen limit raising key .limitReached
  /-- Then a comparison with a key in the list fails. -/
  | comparison {unhashed fault : Fault} {full : Bool} (looked : seen.recordHashed key = .error unhashed)
      (type : unhashed.isType = true) (reached : seen.atLimit limit = .ok full) (unraised : (full && raising) = false)
      (failed : seen.findListed key = .error fault) : Fails seen limit raising key fault

/-- Looking a key up among the hashed ones adds it only if it is fresh. -/
theorem recordHashed_unfresh {after : Seen} (recorded : seen.recordHashed key = .ok (false, after)) : after = seen := by
  unfold recordHashed at recorded
  split at recorded
  · cases recorded
  · cases recorded
    rfl
  · split at recorded <;> cases recorded

/-- The list grows only by a fresh key, and fails in one of three ways. -/
theorem recordListed_spec {fault : Fault} (looked : seen.recordHashed key = .error fault) (type : fault.isType = true) :
    ((seen.recordListed limit raising key).outcome ≠ .ok true → (seen.recordListed limit raising key).seen = seen) ∧
      ∀ fault, (seen.recordListed limit raising key).outcome = .error fault → seen.Fails limit raising key fault := by
  unfold recordListed
  cases reached : seen.atLimit limit with
  | error failed =>
    refine ⟨fun _ => rfl, fun fault told => ?_⟩
    cases told
    exact .limit looked type reached
  | ok full =>
    cases unraised : full && raising with
    | true =>
      obtain ⟨rfl, rfl⟩ : full = true ∧ raising = true := by simpa using unraised
      refine ⟨fun _ => rfl, fun fault told => ?_⟩
      cases told
      exact .warning looked type reached rfl
    | false =>
      simp only [unraised, Bool.false_eq_true, if_false]
      cases found : seen.findListed key with
      | error failed =>
        refine ⟨fun _ => rfl, fun fault told => ?_⟩
        cases told
        exact .comparison looked type reached unraised found
      | ok there =>
        cases there with
        | true => exact ⟨fun _ => rfl, fun fault told => by cases told⟩
        | false => exact ⟨fun fresh => absurd rfl fresh, fun fault told => by cases told⟩

/-- Unless a key is fresh, recording it leaves what was seen. -/
theorem record_unfresh (unfresh : (seen.record limit raising key).outcome ≠ .ok true) :
    (seen.record limit raising key).seen = seen := by
  unfold record at unfresh ⊢
  cases looked : seen.recordHashed key with
  | ok recorded =>
    obtain ⟨fresh, after⟩ := recorded
    simp only [looked] at unfresh ⊢
    cases fresh with
    | true => exact absurd rfl unfresh
    | false => exact recordHashed_unfresh looked
  | error fault =>
    simp only [looked] at unfresh ⊢
    cases type : fault.isType with
    | true =>
      simp only [type, if_true] at unfresh ⊢
      exact (recordListed_spec looked type).1 unfresh
    | false => rfl

end Seen

namespace Store

/-- What happens to a hidden sequence leaves the others as they are. -/
theorem Hides.updated {store : Store} {hidden : Ref → Prop} (hides : store.Hides hidden) {id : SequenceId}
    (inside : hidden (.sequence id)) (f : SequenceState → SequenceState) : (store.updated id f).Hides hidden := by
  refine ⟨fun other free => ?_, hides.cursor, hides.datum, hides.list, hides.source, hides.key, hides.step, ?_,
    hides.cursorThere, hides.datumThere, hides.listThere⟩
  · have apart : other ≠ id := by
      rintro rfl
      exact free inside
    rw [sequence_updated_ne apart]
    exact hides.sequence other free
  · simpa using hides.sequenceThere

/-- What a distinct stage has seen. -/
def seenBy (store : Store) (id : SequenceId) : Seen :=
  match (store.sequence id).body with
  | .distinct _ _ _ seen => seen
  | _ => .empty

/-- Whether what a stage draws on, its supply and its key function, does not lead back to it. -/
def Apart (store : Store) (stage supply : SequenceId) (key : Value) : Prop :=
  ∃ hidden : Ref → Prop, store.Hides hidden ∧ hidden (.sequence stage) ∧ ¬hidden (.sequence supply) ∧ key.Avoids hidden

end Store

namespace Calls

open Run Store

section

variable (c : Calls) (stage supply : SequenceId) (key limit : Value) (multi : Bool) (seen : Seen)

/-- Whether a stage takes an element from its supply and finds its key. -/
def Keyed (store : Store) (element k : Value) (after : Store) : Prop :=
  ∃ drawn, (c.next supply).from? store = (.ok element, drawn) ∧ (c.keyFor key multi element).from? drawn = (.ok k, after)

/-- What recording a key in a store comes to. -/
abbrev recordingIn (store : Store) (k : Value) : Recording :=
  seen.record (store.contents limit) store.raising (store.contents k)

/-- The store in which it is told what recording a key had to tell. -/
def toldIn (store : Store) (k : Value) : Store :=
  ((tellSeen stage k (recordingIn limit seen store k).notices).from? store).2

/-- Whether a stage skips an element, whose key was seen. -/
def Skips (store after : Store) : Prop :=
  ∃ element k keyed, c.Keyed supply key multi store element k keyed ∧
    (recordingIn limit seen keyed k).outcome = .ok false ∧ after = toldIn stage limit seen keyed k

/-- How a stage fails with the next element: the supply does, the key function does, or recording the key does. -/
inductive Breaks (store : Store) : Fault → Store → Prop
  | supply {fault : Fault} {after : Store} (failed : (c.next supply).from? store = (.error (.fault fault), after)) :
      Breaks store fault after
  | key {element : Value} {drawn after : Store} {fault : Fault} (handed : (c.next supply).from? store = (.ok element, drawn))
      (failed : (c.keyFor key multi element).from? drawn = (.error (.fault fault), after)) : Breaks store fault after
  | record {element k : Value} {keyed : Store} {fault : Fault} (found : c.Keyed supply key multi store element k keyed)
      (failed : seen.Fails (keyed.contents limit) keyed.raising (keyed.contents k) fault) :
      Breaks store fault (toldIn stage limit seen keyed k)

end

section

variable {c wider : Calls} {stage supply : SequenceId} {key limit : Value} {multi : Bool} {seen : Seen}

/-! ## Wider bounds -/

theorem Keyed.widen (within : c.Within wider) {store after : Store} {element k : Value}
    (keyed : c.Keyed supply key multi store element k after) : wider.Keyed supply key multi store element k after := by
  obtain ⟨drawn, handed, found⟩ := keyed
  exact ⟨drawn, (within.next supply).ends (.ok element) handed,
    (within.keyFor key multi element).ends (.ok k) found⟩

theorem Skips.widen (within : c.Within wider) {store after : Store}
    (skips : c.Skips stage supply key limit multi seen store after) :
    wider.Skips stage supply key limit multi seen store after := by
  obtain ⟨element, k, keyed, found, outcome, same⟩ := skips
  exact ⟨element, k, keyed, found.widen within, outcome, same⟩

theorem Breaks.widen (within : c.Within wider) {store after : Store} {fault : Fault}
    (breaks : c.Breaks stage supply key limit multi seen store fault after) :
    wider.Breaks stage supply key limit multi seen store fault after := by
  cases breaks with
  | supply failed => exact .supply ((within.next supply).ends (.error fault) failed)
  | @key element _ _ _ handed failed =>
    exact .key ((within.next supply).ends (.ok element) handed)
      ((within.keyFor key multi element).ends (.error fault) failed)
  | record found failed => exact .record (found.widen within) failed

/-! ## One round -/

variable {hidden : Ref → Prop} (inside : hidden (.sequence stage)) (apart : ¬hidden (.sequence supply))
  (avoids : key.Avoids hidden)
include inside apart avoids

/-- Taking an element and finding its key leaves a hidden stage as it is. -/
theorem Keyed.spared {n : Nat} {store after : Store} {element k : Value} (hides : store.Hides hidden)
    (keyed : (calls n).Keyed supply key multi store element k after) :
    after.Hides hidden ∧ after.sequence stage = store.sequence stage := by
  obtain ⟨drawn, handed, found⟩ := keyed
  have heeds : (calls n).Heeds hidden := heeds_calls n
  have first := heeds.next supply apart store hides
  rw [handed] at first
  have second := heeds.keyFor avoids multi (first.2.2.1 element rfl) drawn first.1
  rw [found] at second
  exact ⟨second.1, (second.2.1.sequence stage inside).trans (first.2.1.sequence stage inside)⟩

end

/-! ## Requests -/

/-- A stage among the elements of its own supply. The key function takes one argument, and is given the items of an
element. -/
def spreading : Store where
  sequences := #[{ body := .iterable (.object (.list ⟨0⟩)) none, multiValue := true },
    { body := .distinct ⟨0⟩ (.object (.key ⟨0⟩)) (.int 10000) .empty, multiValue := true }]
  data := #[.tuple [.int 1]]
  lists := #[[.object (.datum ⟨0⟩), .ofSequence ⟨1⟩]]
  keys := #[{ respond := KeyRule.identity.respond }]

/-- A stage that is the only element of its own supply, and is spread for a key function of this rule. -/
def spreadingItself (rule : KeyRule) : Store where
  sequences := #[{ body := .iterable (.object (.list ⟨0⟩)) none, multiValue := true },
    { body := .distinct ⟨0⟩ (.object (.key ⟨0⟩)) (.int 10000) .empty, multiValue := true }]
  lists := #[[.ofSequence ⟨1⟩]]
  keys := #[{ respond := rule.respond }]

end Calls

end FirstSeen
