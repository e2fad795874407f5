import FirstSeen.Proofs.Tower.Holding
import FirstSeen.Proofs.Tower.Sieving

/-!
# All elements of a chain

Taking all elements of a sequence whose chain can begin again, over a tape that comes to an end, gives what the
stages of the chain let through of the elements of the tape, whenever enough calls are allowed. So the answer
depends only on the stages as they are at their beginning and on the tape.
-/

set_option autoImplicit false

namespace FirstSeen

namespace Tower

variable {tower start : Tower} {tape last : Tape} {items : List Item}

/-- All elements of a tower that begins again as a calm one are what the stages of that one let through. -/
theorem force_outputs (restarts : tower.restart = (none, start)) (calm : start.Calm)
    (source : start.source = some tape) (reaches : tape.Reaches items last) (ended : last.Ended)
    (smooth : Stage.Smooth start.stages items) :
    ∃ enough left, ∀ n, enough ≤ n → tower.force n = some (.ok (Stage.outputs start.stages items), left) := by
  obtain ⟨enough, left, gathers⟩ :
      ∃ n left, gatherBy next n start [] = some (.ok (Stage.outputs start.stages items), left) :=
    (collects_outputs calm source reaches ended smooth).gather calm
  refine ⟨enough, left, fun n le => ?_⟩
  rw [force, restarts]
  exact gather_mono le gathers

end Tower

namespace Store

variable {D : Item → Prop} {aside : Option CursorId} {multi : Bool}

/-- A sequence gives all elements that its tower gives. -/
theorem Holds.forces {store : Store} {id : SequenceId} {tower left : Tower} {items : List Item} {n : Nat}
    (holds : store.Holds D aside multi id tower) (deep : 4 * tower.height + 1 ≤ n)
    (forces : tower.force n = some (.ok items, left)) :
    ∃ values after, ((calls n).force id).from? store = (.ok values, after) ∧ after.ShowsAll D values items ∧
      after.Holds D aside multi id left := by
  have ends := force_holds holds deep
  rw [forces] at ends
  rcases result : ((calls n).force id).from? store with ⟨halt | values, after⟩ <;> rw [result] at ends
  · exact ends.1.elim
  · exact ⟨values, after, rfl, ends.1, ends.2.1⟩

end Store

end FirstSeen
