import FirstSeen.Traversal

/-!
# Chaining

Steps, pipelines and how they are put together. Joining two of them gives a pipeline with the steps of
both, and joining data with one of them gives a pipeline that is bound to the data. Whatever can be
joined on the left decides; else the right one is bound to what stands on the left. A pipeline is bound
at most once.
-/

set_option autoImplicit false

namespace FirstSeen

namespace Run

/-- A step that removes duplicates, by a key function unless the key is null. -/
def newDistinctStep (key limit : Value) : Run StepId := do
  if !(key.isNull || (← view (·.isCallable key))) then fail (.keyNotCallable (← typeName key))
  if !(← isCount limit) then fail (.badLimit (← view (·.shown limit)))
  newStep (.distinct key limit)

/-- The limit on unhashable keys if none is given. -/
def defaultLimit : Value := .int 10000

/-- Refuses a list in which something is no step. -/
def checkSteps : List Value → Run Unit
  | [] => pure ()
  | step :: rest => do
    if ← view (·.isStep step) then checkSteps rest else fail (.notStep (← typeName step))

/-- A pipeline with the steps of a list, which stays shared, on an input unless that is null. -/
def newPipeline (steps input multiValue : Value) : Run SequenceId := do
  match ← shared steps with
  | .object (.list id) =>
    checkSteps (← list id)
    let multi ← flagOf multiValue
    newSequence { body := .pipeline id input .null, multiValue := multi }
  | _ => fail (.stepsNotList (← typeName steps))

/-- Something that can stand in a chain. -/
inductive Part where
  /-- A step other than a pipeline. -/
  | step
  /-- A pipeline: its steps, its input, and whether elements are taken apart. -/
  | pipeline (steps : ListId) (input : Value) (multi : Bool)
  /-- Something that leaves undefined what it does in a chain. -/
  | link

/-- A value as a part of a chain, if it can be one. -/
def part? (v : Value) : Run (Option Part) := do
  match v with
  | .object (.step id) =>
    match ← view (·.step id) with
    | .link => return some .link
    | _ => return some .step
  | .object (.sequence id) =>
    let state ← sequence id
    match state.body with
    | .pipeline steps input _ => return some (.pipeline steps input state.multiValue)
    | _ => return none
  | _ => return none

/-- The steps that a value adds at the end of a chain. What can be no step is left for the pipeline to
refuse. -/
def stepsOf (v : Value) : Run (List Value) := do
  match ← part? v with
  | some (.pipeline steps input _) =>
    if input.isNull then list steps else fail .inputTwice
  | _ => return [v]

/-- Joins a part of a chain with what comes after it. -/
def joinAfter (first : Value) (part : Part) (second : Value) : Run SequenceId := do
  match part with
  | .link => fail .notImplemented
  | .step => newPipeline (.list (first :: (← stepsOf second))) .null (.bool false)
  | .pipeline steps input multi =>
    let added ← stepsOf second
    newPipeline (.list ((← list steps) ++ added)) input (.bool multi)

/-- Binds a part of a chain to data. Whether elements are taken apart is as given, or if that is null as
the part says. -/
def bindInput (v : Value) (part : Part) (data : Value) (multiValue : Option Value) : Run SequenceId := do
  match part with
  | .link => fail .notImplemented
  | .step => newPipeline (.list [v]) data (multiValue.getD (.bool false))
  | .pipeline steps input multi =>
    if !input.isNull then fail .inputTwice
    let flag := match multiValue with
      | some flag => if flag.isNull then .bool multi else flag
      | none => .bool multi
    newPipeline (.object (.list steps)) data flag

/-- Joins a part of a chain with what comes after it. -/
def joinThen (first second : Value) : Run SequenceId := do
  match ← part? first with
  | some part => joinAfter first part second
  | none => failMissing first "then"

/-- Binds a part of a chain to data. -/
def withInput (v data : Value) (multiValue : Option Value) : Run SequenceId := do
  match ← part? v with
  | some part => bindInput v part data multiValue
  | none => failMissing v "with_input"

/-- Joins two values, of which one must be able to stand in a chain. -/
def join (left right : Value) : Run SequenceId := do
  match ← part? left with
  | some part => joinAfter left part right
  | none =>
    match ← part? right with
    | some part => bindInput right part left none
    | none => fail (.unsupportedJoin (← typeName left) (← typeName right))

end Run

end FirstSeen
