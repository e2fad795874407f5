import FirstSeen.Construction
import FirstSeen.Sequence

/-!
# Pipelines

A pipeline is a list of steps with or without an input. With an input it is a sequence whose output is
built on first use: the input becomes a sequence, is taken back to its beginning if it was started,
and the steps are applied to it in turn. The output is kept, except that an output of null counts as
not built.

A step gives any value as its output, so whatever is asked of an output may find that it is no
sequence.
-/

set_option autoImplicit false

namespace FirstSeen

namespace Calls

/-- Applies the steps of a list in turn. -/
def applyAll (c : Calls) : List Value → Value → Run Value
  | [], supply => pure supply
  | step :: rest, supply => do applyAll c rest (← c.apply step supply)

/-- Applies a step to a supply. A pipeline is a step that applies its own steps. -/
def applyWith (c : Calls) (step supply : Value) : Run Value := do
  match step with
  | .object (.step id) =>
    match ← Run.view (·.step id) with
    | .distinct key limit => return .ofSequence (← c.newDistinct supply key limit)
    | .passing => return supply
    | .positional => return .ofSequence (← Run.newIterable supply (.bool true))
    | .returning v => return v
    | .failing fault => Run.fail fault
    | .bare _ => Run.fail .notImplemented
    | .link => Run.failMissing step "apply"
  | .object (.sequence id) =>
    match (← Run.sequence id).body with
    | .pipeline steps _ _ => c.applyAll (← Run.list steps) supply
    | _ => Run.failMissing step "apply"
  | _ => Run.failMissing step "apply"

/-- The data that a run of a pipeline starts from: what is given to the run or what the pipeline is
bound to, but not both. -/
def inputOf (given bound : Value) : Except Fault Value :=
  match given.isNull, bound.isNull with
  | true, true => .error .noInput
  | false, false => .error .inputTwice
  | false, true => .ok given
  | true, false => .ok bound

/-- Builds a chain of stages: the steps of a list on an input that is at its beginning. -/
def build (c : Calls) (steps : ListId) (data : Value) (multi : Bool) : Run Value := do
  let input ← Run.toSequence data (.bool multi)
  if (← Run.sequence input).started then c.rewind input
  c.applyAll (← Run.list steps) (.ofSequence input)

/-- Builds a chain for a pipeline, on what is given unless that is null. -/
def buildFor (c : Calls) (id : SequenceId) (given : Value) : Run Value := do
  let state ← Run.sequence id
  match state.body with
  | .pipeline steps bound _ =>
    c.build steps (← Run.ofExcept (inputOf given bound)) state.multiValue
  | _ => Run.failMissing (.ofSequence id) "steps"

/-- Keeps the output of a pipeline. -/
def keepOutput (id : SequenceId) (output : Value) : Run Unit :=
  Run.updateSequence id fun state =>
    match state.body with
    | .pipeline steps bound _ => { state with body := .pipeline steps bound output }
    | _ => state

/-- The output of a pipeline, built if it was not built yet. -/
def outputOf (c : Calls) (id : SequenceId) (kept : Value) : Run Value := do
  if kept.isNull then
    let output ← c.buildFor id .null
    keepOutput id output
    return output
  else return kept

/-- Gets the next element from what a sequence is made of. -/
def pullPipeline (c : Calls) (id : SequenceId) (kept : Value) : Run Value := do
  c.next (← Run.sequenceFor "next" (← c.outputOf id kept))

/-- Whether the elements of a sequence are taken apart. A pipeline with an input asks its output. -/
def isMultiWith (c : Calls) (id : SequenceId) : Run Bool := do
  let state ← Run.sequence id
  match state.body with
  | .pipeline _ input kept =>
    if input.isNull then return state.multiValue
    else c.isMulti (← Run.sequenceFor "multi_value" (← c.outputOf id kept))
  | _ => return state.multiValue

/-- The size that a sequence reports, null if it is not known. -/
def sizeWith (c : Calls) (id : SequenceId) : Run Value := do
  match (← Run.sequence id).body with
  | .iterable data _ => Run.lengthOf data
  | .produced _ size _ => return size
  | .pipeline _ _ kept => c.size (← Run.sequenceFor "size" (← c.outputOf id kept))
  | .abstract | .distinct .. | .scripted _ => return .null

end Calls

end FirstSeen
