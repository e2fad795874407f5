import FirstSeen.Distinct
import FirstSeen.Stream

/-!
# The engine

The operations of sequences, iterators and steps, tied to each other. `calls n` allows a depth of `n`
nested calls. A run that needs more is out of fuel, and one that ends ends in the same way with any
greater depth.
-/

set_option autoImplicit false

namespace FirstSeen

namespace Calls

/-- Gets the next element from what a sequence is made of. -/
def pullWith (c : Calls) (id : SequenceId) : Run Value := do
  let state ← Run.sequence id
  match state.body with
  | .abstract => Run.fail .notImplemented
  | .iterable data feed => c.pullIterable id data feed
  | .produced factory size feed => c.pullProduced id factory size feed
  | .distinct supply key _ _ => c.pullDistinct id supply key state.multiValue
  | .pipeline _ _ kept => c.pullPipeline id kept
  | .scripted cursor => c.advance cursor

/-- Moves an iterator on. -/
def advanceWith (c : Calls) (id : CursorId) : Run Value := do
  match ← Run.cursor id with
  | .walking typeName script position meter closing =>
    Run.advanceWalker id typeName script position meter closing
  | .listing list position ended => Run.advanceListing id list position ended
  | .ranging start stop step position => Run.advanceRanging id start stop step position
  | .generating script position phase meter closing =>
    Run.advanceGenerator id script position phase meter closing
  | .streaming pipeline input phase => c.advanceStream id pipeline input phase

end Calls

/-- The operations with at most so many nested calls. -/
def calls : Nat → Calls
  | 0 => .refused
  | n + 1 =>
    { next := fun id => (calls n).nextWith id
      pull := fun id => (calls n).pullWith id
      rewind := fun id => (calls n).rewindWith id
      isMulti := fun id => (calls n).isMultiWith id
      size := fun id => (calls n).sizeWith id
      apply := fun step supply => (calls n).applyWith step supply
      advance := fun id => (calls n).advanceWith id
      gather := fun feed earlier => (calls n).gatherWith feed earlier }

end FirstSeen
