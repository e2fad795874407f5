import FirstSeen.Proofs.Barring
import FirstSeen.Proofs.Requesting

/-!
# Keys that are recorded without an end

Hashing and comparing a key may raise the signal of an end, and a stage that records the key then takes it for the end of its
supply. The *quiet* operations do what the operations do, but run out of fuel as soon as recording a key signals an end. So a
run that ends with them is one in which that never happens.
-/

set_option autoImplicit false

namespace FirstSeen

namespace Calls

open Run

/-- Gets the next element from what a sequence is made of, and is out of fuel as soon as recording a key signals an end. -/
def pullQuietly (c : Calls) (id : SequenceId) : Run Value := do
  let state ← Run.sequence id
  match state.body with
  | .distinct supply key _ _ => do
    let element ← c.next supply
    let k ← c.keyFor key state.multiValue element
    if ← barring (fun _ => metEnd) (Run.remember id k) then return element else c.pull id
  | _ => c.pullWith id

/-- The operations with at most so many nested calls, where recording a key never signals an end. -/
def quiet : Nat → Calls
  | 0 => .refused
  | n + 1 => { (quiet n).deeper with pull := (quiet n).pullQuietly }

variable {α : Type}

/-- Whether recording a key never signals an end in what is asked. -/
def Quietly (operation : Calls → Run α) (n : Nat) (store : Store) : Prop :=
  ((operation (quiet n)).from? store).1 ≠ .error .outOfFuel

theorem within_quiet (n : Nat) : (quiet n).Within (calls n) := by
  induction n with
  | zero => exact within_refused _
  | succ n ih =>
    refine { ih.deeper with pull := fun id store => ?_ }
    change (((quiet n).pullQuietly id).from? store).1 = _ ∨ _ = ((quiet n).pullQuietly id).from? store
    rw [pullQuietly, from?_bind_ok (from?_sequence ..)]
    split
    · rename_i supply key limit seen form
      have same : ((calls (n + 1)).pull id).from? store =
          ((calls n).pullDistinct id supply key (store.sequence id).multiValue).from? store := by
        change ((calls n).pullWith id).from? store = _
        rw [pullWith, from?_bind_ok (from?_sequence ..), form]
      rw [same]
      exact (ih.next supply).bind (fun element => (ih.keyFor key _ element).bind fun k =>
        (within_barring _ (within_refl _)).bind fun _ => .ite (within_refl _) (ih.pull id)) store
    · exact ih.pullWith id store

/-- What ends quietly ends so. -/
theorem Quietly.leaves {operation : Calls → Run α} (widens : Widens operation) {n : Nat} {store : Store}
    (quietly : Quietly operation n store) :
    (operation (calls n)).from? store = (operation (quiet n)).from? store :=
  (widens _ _ (within_quiet n) store).resolve_left quietly

end Calls

end FirstSeen
