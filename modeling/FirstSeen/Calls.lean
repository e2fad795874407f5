import FirstSeen.Run

/-!
# Nested calls

Sequences are made of sequences, so their operations call each other through the store, to a depth
that only the store knows. `Calls` is the record of the operations that are called in this way. Each
operation is defined once, as a function of the calls that it may make; the bound on their depth
appears only where the knot is tied.
-/

set_option autoImplicit false

namespace FirstSeen

/-- The operations that nested objects ask of each other. -/
structure Calls where
  /-- Hands out the next element of a sequence. -/
  next : SequenceId → Run Value
  /-- Gets the next element from what a sequence is made of. -/
  pull : SequenceId → Run Value
  /-- Takes a sequence back to its beginning. -/
  rewind : SequenceId → Run Unit
  /-- Whether the elements of a sequence are taken apart for key functions. -/
  isMulti : SequenceId → Run Bool
  /-- The size that a sequence reports, null if it is not known. -/
  size : SequenceId → Run Value
  /-- Applies a step to a supply. -/
  apply : Value → Value → Run Value
  /-- Moves an iterator on. -/
  advance : CursorId → Run Value
  /-- All further elements of a feed, after those that were gathered already, latest first. -/
  gather : Feed → List Value → Run (List Value)

namespace Calls

/-- No call is allowed any more. -/
def refused : Calls where
  next _ := throw .outOfFuel
  pull _ := throw .outOfFuel
  rewind _ := throw .outOfFuel
  isMulti _ := throw .outOfFuel
  size _ := throw .outOfFuel
  apply _ _ := throw .outOfFuel
  advance _ := throw .outOfFuel
  gather _ _ := throw .outOfFuel

end Calls

end FirstSeen
