import FirstSeen.Engine

/-!
# Traversal

What a consumer does with a sequence or a pipeline besides asking for the next element: looking ahead,
taking all elements at once, running a pipeline on an input, and streaming.
-/

set_option autoImplicit false

namespace FirstSeen

namespace Calls

/-- The next element, which stays the next one. -/
def peek (c : Calls) (id : SequenceId) : Run Value := do
  match (← Run.sequence id).peeked with
  | some v => return v
  | none =>
    let v ← c.next id
    Run.updateSequence id fun state => { state with peeked := some v }
    return v

/-- All further elements. -/
def drain (c : Calls) (id : SequenceId) : Run (List Value) := c.gather (.sequence id) []

/-- All elements. A sequence that was started is taken back to its beginning first. -/
def force (c : Calls) (id : SequenceId) : Run (List Value) := do
  if (← Run.sequence id).started then c.rewind id
  c.drain id

/-- All elements of a pipeline, or of its steps on an input unless that is null. -/
def collect (c : Calls) (id : SequenceId) (input : Value) : Run (List Value) := do
  if input.isNull then c.force id
  else c.force (← Run.sequenceFor "force" (← c.buildFor id input))

/-- Up to `n` elements by repeated calls that may meet the end. -/
def takeFrom (draw : Run Value) : (n : Nat) → Run (List Value)
  | 0 => pure []
  | n + 1 => do
    let drawn ← Run.onFault (some <$> draw) fun fault =>
      if fault.isEnd then pure none else Run.fail fault
    match drawn with
    | some v => return v :: (← takeFrom draw n)
    | none => return []

end Calls

namespace Run

/-- A stream of a pipeline, on an input unless that is null. Nothing happens yet. -/
def newStream (pipeline : SequenceId) (input : Value) : Run CursorId :=
  newCursor (.streaming pipeline input .fresh)

/-- A list that others may hold and change, for a list that was just made. -/
def shared (v : Value) : Run Value := do
  match v with
  | .list items => return .object (.list (← newList items))
  | _ => return v

end Run

end FirstSeen
