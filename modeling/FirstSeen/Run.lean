import FirstSeen.Store

/-!
# Runs

Computations over a store. A run ends with an answer or is halted, and the store keeps what was done
until then: a fault undoes nothing.

A run that is halted because it was given too few steps says so in a way of its own, which no handler
takes for a fault.
-/

set_option autoImplicit false

namespace FirstSeen

/-- Why a run has no answer. -/
inductive Halt where
  | fault (f : Fault)
  /-- The bound on nested calls was met. -/
  | outOfFuel
deriving DecidableEq, Inhabited

/-- A computation over a store. -/
abbrev Run (α : Type) := ExceptT Halt (StateM Store) α

namespace Run

/-- Stops with a fault. -/
def fail {α : Type} (fault : Fault) : Run α := throw (.fault fault)

/-- Hands a fault to a handler. -/
def onFault {α : Type} (body : Run α) (handler : Fault → Run α) : Run α :=
  tryCatch body fun halt =>
    match halt with
    | .fault fault => handler fault
    | .outOfFuel => throw .outOfFuel

/-- Gives the answer of a computation without a store. -/
def ofExcept {α : Type} : Except Fault α → Run α
  | .ok a => pure a
  | .error fault => fail fault

/-- What a run from this store ends with, and the store that it leaves. -/
def from? {α : Type} (run : Run α) (store : Store) : Except Halt α × Store := run.run.run store

/-- Reads something off the store. -/
def view {α : Type} (f : Store → α) : Run α := do return f (← get)

/-- The state of a sequence. -/
def sequence (id : SequenceId) : Run SequenceState := view (·.sequence id)

/-- Changes the state of a sequence. -/
def updateSequence (id : SequenceId) (f : SequenceState → SequenceState) : Run Unit :=
  modify fun store => { store with sequences := store.sequences.modify id.index f }

/-- Adds a sequence. -/
def newSequence (state : SequenceState) : Run SequenceId :=
  modifyGet fun store =>
    (⟨store.sequences.size⟩, { store with sequences := store.sequences.push state })

/-- The state of an iterator. -/
def cursor (id : CursorId) : Run Cursor := view (·.cursor id)

/-- Changes the state of an iterator. -/
def setCursor (id : CursorId) (cursor : Cursor) : Run Unit :=
  modify fun store => { store with cursors := store.cursors.modify id.index fun _ => cursor }

/-- Adds an iterator. -/
def newCursor (cursor : Cursor) : Run CursorId :=
  modifyGet fun store => (⟨store.cursors.size⟩, { store with cursors := store.cursors.push cursor })

/-- Adds an object that stays as it is. -/
def newDatum (v : Value) : Run DatumId :=
  modifyGet fun store => (⟨store.data.size⟩, { store with data := store.data.push v })

/-- A value as one object of the store: a new one, unless there is only one with these contents. -/
def newObject (v : Value) : Run Value := do
  if v.isCanonical then return v else return .object (.datum (← newDatum v))

/-- A value by its contents if it is a reference to an object that stays as it is. -/
def plain (v : Value) : Run Value := view (·.plain v)

/-- The contents of a value as they are now. -/
def contents (v : Value) : Run Value := view (·.contents v)

/-- The contents of a list. -/
def list (id : ListId) : Run (List Value) := view (·.list id)

/-- Changes the contents of a list, for all its holders. -/
def updateList (id : ListId) (f : List Value → List Value) : Run Unit :=
  modify fun store => { store with lists := store.lists.modify id.index f }

/-- Adds a list. -/
def newList (items : List Value) : Run ListId :=
  modifyGet fun store => (⟨store.lists.size⟩, { store with lists := store.lists.push items })

mutual

/-- A value as objects of the store, those that it holds included: its lists can be shared and changed,
and everything else is told apart from other objects with the same contents. -/
def install : Value → Run Value
  | .list items => do return .object (.list (← newList (← installAll items)))
  | .tuple items => do newObject (.tuple (← installAll items))
  | .dict entries => do newObject (.dict (← installEntries entries))
  | .set members => do newObject (.set (← installAll members))
  | .frozenset members => do newObject (.frozenset (← installAll members))
  | v => newObject v

/-- Several values as objects of the store. -/
def installAll : List Value → Run (List Value)
  | [] => pure []
  | item :: rest => do
    let v ← install item
    return v :: (← installAll rest)

/-- Several entries as objects of the store. -/
def installEntries : List (Value × Value) → Run (List (Value × Value))
  | [] => pure []
  | (k, v) :: rest => do
    let k ← install k
    let v ← install v
    return (k, v) :: (← installEntries rest)

end

/-- Changes the counters of a source. -/
def updateMeter (id : MeterId) (f : Meter → Meter) : Run Unit :=
  modify fun store => { store with meters := store.meters.modify id.index f }

/-- Changes the counters of a source, if there are any. -/
def updateMeter? (id : Option MeterId) (f : Meter → Meter) : Run Unit :=
  match id with
  | some id => updateMeter id f
  | none => pure ()

/-- Adds counters, all zero. -/
def newMeter : Run MeterId :=
  modifyGet fun store => (⟨store.meters.size⟩, { store with meters := store.meters.push {} })

/-- Adds a source. -/
def newSource (source : Source) : Run SourceId :=
  modifyGet fun store => (⟨store.sources.size⟩, { store with sources := store.sources.push source })

/-- Adds a key function. -/
def newKey (key : KeyFunction) : Run KeyId :=
  modifyGet fun store => (⟨store.keys.size⟩, { store with keys := store.keys.push key })

/-- Adds a step. -/
def newStep (step : Step) : Run StepId :=
  modifyGet fun store => (⟨store.steps.size⟩, { store with steps := store.steps.push step })

/-- Adds a fault as an object. -/
def newFault (object : FaultObject) : Run FaultId :=
  modifyGet fun store => (⟨store.faults.size⟩, { store with faults := store.faults.push object })

/-- Writes a notice into the journal. -/
def tell (notice : Notice) : Run Unit :=
  modify fun store => { store with journal := store.journal.push notice }

/-- The name of a value's type. -/
def typeName (v : Value) : Run String := view (·.typeName v)

/-- Stops because a value lacks an attribute. -/
def failMissing {α : Type} (v : Value) (name : String) : Run α := do
  fail (.missingAttribute (← view (·.ownerName v)) name)

/-- Takes a value for the sequence that it must be to have an attribute. -/
def sequenceFor (name : String) (v : Value) : Run SequenceId :=
  match v with
  | .object (.sequence id) => pure id
  | _ => failMissing v name

end Run

end FirstSeen
