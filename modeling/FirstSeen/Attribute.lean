import FirstSeen.Chaining

/-!
# Attributes

What can be asked of a value by name. A value that lacks the attribute fails with its name, whatever
else it is.
-/

set_option autoImplicit false

namespace FirstSeen

namespace Run

/-- Takes a value for the pipeline that it must be to have an attribute. -/
def pipelineFor (name : String) (v : Value) : Run SequenceId := do
  match v with
  | .object (.sequence id) =>
    match (← sequence id).body with
    | .pipeline .. => return id
    | _ => failMissing v name
  | _ => failMissing v name

/-- The list of a pipeline's steps. -/
def stepList (v : Value) : Run ListId := do
  match (← sequence (← pipelineFor "steps" v)).body with
  | .pipeline steps _ _ => return steps
  | _ => failMissing v "steps"

/-- Adds a step at the end of a pipeline's list, without a check. -/
def appendStep (pipeline step : Value) : Run Unit := do
  updateList (← stepList pipeline) (· ++ [step])

/-- Takes a value for the list that it must be to be changed. -/
def listFor (name : String) (v : Value) : Run ListId :=
  match v with
  | .object (.list id) => pure id
  | _ => failMissing v name

/-- Adds an item at the end of a list. -/
def appendItem (v item : Value) : Run Unit := do
  updateList (← listFor "append" v) (· ++ [item])

/-- Removes all items of a list. -/
def clearItems (v : Value) : Run Unit := do
  updateList (← listFor "clear" v) fun _ => []

/-- The keys that a distinct stage has seen. -/
def seenOf (v : Value) : Run Seen := do
  match v with
  | .object (.sequence id) =>
    match (← sequence id).body with
    | .distinct _ _ _ seen => return seen
    | _ => failMissing v "seen"
  | _ => failMissing v "seen"

/-- The key and the limit of a step, or a stage, that removes duplicates. -/
def distinctConfig (v : Value) : Run (Value × Value) := do
  match v with
  | .object (.step id) =>
    match ← view (·.step id) with
    | .distinct key limit => return (key, limit)
    | _ => failMissing v "key"
  | .object (.sequence id) =>
    match (← sequence id).body with
    | .distinct _ key limit _ => return (key, limit)
    | _ => failMissing v "key"
  | _ => failMissing v "key"

/-- Closes an iterator that can be closed. -/
def close (v : Value) : Run Unit := do
  match v with
  | .object (.cursor id) =>
    match ← cursor id with
    | .generating .. | .streaming .. | .walking _ _ _ _ (.counted _) => closeCursor id
    | _ => failMissing v "close"
  | _ => failMissing v "close"

/-- Takes a value for the iterator that it must be. -/
def feedFor (v : Value) : Run Feed := do
  match v with
  | .object (.sequence id) => return .sequence id
  | .object (.cursor id) => return .cursor id
  | _ => fail (.notIterator (← typeName v))

/-- A fault that tells of a sequence that cannot be taken back, as an object. Its text is made at once. -/
def newRewindFault (sequenceName reason : Value) : Run FaultId := do
  let fault ← view fun store => Fault.cannotRewind (store.asText sequenceName) (store.asText reason)
  newFault ⟨fault.kind, [.str fault.message], sequenceName, reason⟩

/-- A fault of a kind of the library, as an object. Its text is made of the arguments when it is asked
for. -/
def newPlainFault (kind : ErrorKind) (arguments : List Value) : Run FaultId :=
  newFault { kind := kind, arguments := arguments }

/-- Takes a value for a fault that is held as an object. -/
def faultFor (name : String) (v : Value) : Run FaultObject :=
  match v with
  | .object (.fault id) => view (·.faultObject id)
  | _ => failMissing v name

/-- What a fault says about the sequence that cannot be taken back. -/
def rewindFaultFor (name : String) (v : Value) : Run FaultObject := do
  let object ← faultFor name v
  if object.kind = .rewind then return object else failMissing v name

end Run

namespace Calls

/-- Whether elements are taken apart, whether anything was pulled, whether the end was met, and the other
properties that can be read by name. -/
def property (c : Calls) (v : Value) (name : String) : Run Value := do
  let state (id : SequenceId) : Run SequenceState := Run.sequence id
  if name = "multi_value" then return .bool (← c.isMulti (← Run.sequenceFor name v))
  else if name = "started" then return .bool (← state (← Run.sequenceFor name v)).started
  else if name = "exhausted" then return .bool (← state (← Run.sequenceFor name v)).exhausted
  else if name = "one_shot" then
    match v with
    | .object (.sequence id) =>
      match (← state id).body with
      | .iterable data _ => return .bool (Store.isOneShot data)
      | _ => Run.failMissing v name
    | _ => Run.failMissing v name
  else if name = "input_multi_value" then
    return .bool (← state (← Run.pipelineFor name v)).multiValue
  else if name = "sequence_name" then return (← Run.rewindFaultFor name v).sequenceName
  else if name = "reason" then return (← Run.rewindFaultFor name v).reason
  else Run.failMissing v name

/-- Applies a step to a supply. -/
def applyOn (c : Calls) (v supply : Value) : Run Value := c.apply v supply

end Calls

end FirstSeen
