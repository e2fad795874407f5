import FirstSeen.Proofs.Deepening

/-!
# Asking again and again

What is asked for elements again and again hands out some in turn, and then fails: at its end, or with another fault.
Gathering all elements is this, where the end is no failure and any other fault loses the elements before it.
-/

set_option autoImplicit false

namespace FirstSeen

namespace Calls

open Run

/-- Whether a request, made again and again, gives these elements in turn and then fails with this fault. -/
inductive Pours (request : Calls → Run Value) : Store → List Value → Fault → Store → Prop
  | stop {store after : Store} {fault : Fault} (fails : Comes request store (.error fault) after) :
      Pours request store [] fault after
  | more {store left after : Store} {v : Value} {items : List Value} {fault : Fault}
      (gives : Comes request store (.ok v) left) (rest : Pours request left items fault after) :
      Pours request store (v :: items) fault after

/-- Where requests come to the same at first, they pour the same. -/
theorem Pours.congr {request : Calls → Run Value} {store store' after : Store} {items : List Value} {fault : Fault}
    (pours : Pours request store items fault after)
    (same : ∀ ended left, Comes request store ended left ↔ Comes request store' ended left) :
    Pours request store' items fault after := by
  cases pours with
  | stop fails => exact .stop ((same _ _).mp fails)
  | more gives rest => exact .more ((same _ _).mp gives) rest

/-- What is gathered when these elements come after earlier ones, latest first, and then this fault. -/
def gathered (earlier items : List Value) (fault : Fault) : Except Fault (List Value) :=
  if fault.isEnd then .ok (earlier.reverse ++ items) else .error fault

theorem gathered_cons (earlier items : List Value) (v : Value) (fault : Fault) :
    gathered (v :: earlier) items fault = gathered earlier (v :: items) fault := by
  simp [gathered]

variable {feed : Feed} {store after : Store}

/-- One request while elements are gathered. -/
theorem from?_gatherWith (c : Calls) (earlier : List Value) :
    (c.gatherWith feed earlier).from? store =
      match (c.draw feed).from? store with
      | (.ok v, left) => (c.gather feed (v :: earlier)).from? left
      | (.error (.fault fault), left) => ((gathered earlier [] fault).mapError .fault, left)
      | (.error .outOfFuel, left) => (.error .outOfFuel, left) := by
  rw [gatherWith, from?_bind, from?_onFault, from?_map]
  rcases (c.draw feed).from? store with ⟨(fault | _) | v, left⟩
  · cases isEnd : fault.isEnd with
    | true =>
      have told : gathered earlier [] fault = .ok earlier.reverse := by simp [gathered, isEnd]
      simp only [told, Except.map, isEnd, if_true]
      rfl
    | false =>
      have told : gathered earlier [] fault = .error fault := by simp [gathered, isEnd]
      simp only [told, Except.map, isEnd, Bool.false_eq_true, if_false]
      rfl
  · rfl
  · rfl

theorem gather_succ (n : Nat) (earlier : List Value) :
    ((calls (n + 1)).gather feed earlier).from? store =
      match ((calls n).draw feed).from? store with
      | (.ok v, left) => ((calls n).gather feed (v :: earlier)).from? left
      | (.error (.fault fault), left) => ((gathered earlier [] fault).mapError .fault, left)
      | (.error .outOfFuel, left) => (.error .outOfFuel, left) := from?_gatherWith (calls n) earlier

/-- Gathering ends as the requests do. -/
theorem gather_comes {earlier : List Value} {ended : Except Fault (List Value)} :
    Comes (·.gather feed earlier) store ended after ↔
      ∃ items fault, Pours (·.draw feed) store items fault after ∧ ended = gathered earlier items fault := by
  constructor
  · rintro ⟨n, ends⟩
    induction n generalizing store earlier with
    | zero => cases ended <;> cases ends
    | succ n ih =>
      rw [gather_succ] at ends
      rcases drawn : ((calls n).draw feed).from? store with ⟨(fault | _) | v, left⟩ <;> simp only [drawn] at ends
      · rw [Prod.mk.injEq] at ends
        obtain ⟨told, rfl⟩ := ends
        exact ⟨[], fault, .stop ⟨n, drawn⟩, (mapError_fault_inj told).symm⟩
      · cases ended <;> cases ends
      · obtain ⟨items, fault, pours, rfl⟩ := ih ends
        exact ⟨v :: items, fault, .more ⟨n, drawn⟩ pours, gathered_cons ..⟩
  · rintro ⟨items, fault, pours, rfl⟩
    induction pours generalizing earlier with
    | stop fails =>
      obtain ⟨n, ends⟩ := fails
      refine ⟨n + 1, ?_⟩
      rw [gather_succ, ends]
      rfl
    | @more store left after v items fault gives _ ih =>
      obtain ⟨n, drawn⟩ := gives
      obtain ⟨m, ends⟩ := @ih (v :: earlier)
      refine ⟨max n m + 1, ?_⟩
      rw [gather_succ, (widens_draw feed).deepen (Nat.le_max_left n m) (.ok v) drawn]
      rw [← gathered_cons]
      exact (widens_gather feed _).deepen (Nat.le_max_right n m) _ ends

end Calls

end FirstSeen
