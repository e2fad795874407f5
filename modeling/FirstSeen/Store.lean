import FirstSeen.KeyRule

/-!
# The store

The objects that values refer to, and how they are now: sequences, iterators, shared lists, sources,
key functions and steps. Objects are only ever added, so that a reference never dangles; a look-up
outside the store answers with a default object, which keeps every function total.

The store also keeps what an observer may see of a run besides its answers: the counters of the
sources, the arguments of each key function's calls, and a journal of notices.
-/

set_option autoImplicit false

namespace FirstSeen

/-- Something that a source hands out: an element, or a fault in its place. -/
inductive Event where
  /-- A value that is there already: the same object each time. -/
  | value (v : Value)
  /-- A value that is made when it is handed out: another object each time, unless there is only one
  with these contents. -/
  | made (v : Value)
  | fault (f : Fault)
deriving Inhabited

/-- What a source hands out at each position, and nothing past its end. It may have no end. -/
abbrev Script := Nat → Option Event

namespace Script

/-- The script of a list of events. -/
def ofEvents (events : List Event) : Script := fun i => events[i]?

/-- The script of a list of elements. -/
def ofValues (items : List Value) : Script := fun i => items[i]?.map .value

/-- The script that counts without end. -/
def counting (start step : Int) : Script := fun i => some (.made (.int (start + i * step)))

/-- The script of the items of a value that is held by its contents, if it has any. Containers hold
their items; the characters of a text are made. -/
def ofValue? : Value → Option Script
  | .str text =>
    let characters := Value.characters text
    some fun i => characters[i]?.map .made
  | v => v.items?.map ofValues

end Script

/-- The counters of a source. -/
structure MeterId where
  index : Nat
deriving DecidableEq, Inhabited

/-- How often a source was used, in each of four ways. -/
structure Meter where
  pulls : Nat := 0
  iterations : Nat := 0
  calls : Nat := 0
  closes : Nat := 0
deriving DecidableEq, Inhabited

/-- What closing an iterator does. -/
inductive CloseRule where
  /-- The iterator cannot be closed, or closing it passes unnoticed. -/
  | silent
  /-- Closing is counted, and then fails with this fault if there is one. -/
  | counted (fault : Option Fault)
deriving Inhabited

/-- Where the body of a generator is. -/
inductive Phase where
  | fresh
  | suspended
  | finished
deriving DecidableEq, Inhabited

/-- Something from which elements are drawn one by one: an iterator, or a sequence, which is its own
iterator. -/
inductive Feed where
  | cursor (id : CursorId)
  | sequence (id : SequenceId)
deriving DecidableEq, Inhabited

/-- Where a stream is: not begun, being asked for an element, drawing from a feed between two elements,
or over. -/
inductive StreamPhase where
  | fresh
  | running
  | delegating (feed : Feed)
  | finished
deriving DecidableEq, Inhabited

/-- The iterators. -/
inductive Cursor where
  /-- Walks through a script and goes on after faults. -/
  | walking (typeName : String) (script : Script) (position : Nat) (meter : Option MeterId)
      (closing : CloseRule)
  /-- Walks through a list of the store as it is at each step, until it meets the end once. -/
  | listing (list : ListId) (position : Nat) (ended : Bool)
  /-- Counts through a range and makes its numbers. -/
  | ranging (start stop step : Int) (position : Nat)
  /-- Runs through a script and is over after a fault. -/
  | generating (script : Script) (position : Nat) (phase : Phase) (meter : Option MeterId)
      (closing : CloseRule)
  /-- A run of a pipeline, bound to an input unless that is null. -/
  | streaming (pipeline : SequenceId) (input : Value) (phase : StreamPhase)
deriving Inhabited

/-- What iterating a source object gives. -/
inductive Opening where
  | walker (script : Script)
  | generator (script : Script)
  | refusal (fault : Fault)
  /-- The items at each index. Such an object can be walked through, but does not count as
  iterable. -/
  | indexed (script : Script)
deriving Inhabited

/-- What calling a source object gives. -/
inductive Product where
  | value (v : Value)
  | generator (script : Script) (closing : CloseRule)
  | walker (typeName : String) (script : Script) (closing : CloseRule)
  /-- An iterator over these items, which is not counted. -/
  | items (items : List Value)
  /-- The same iterator in every call. -/
  | shared (cursor : CursorId)
deriving Inhabited

/-- A source object: what it is called, and what it can do. -/
structure Source where
  typeName : String
  /-- Whether it is a class, which is spoken of by its own name. -/
  className : Option String := none
  meter : MeterId
  opening : Option Opening := none
  product : Option Product := none
  /-- The calls, counted from one, that fail. -/
  failingCalls : List Nat := []
  failure : Fault := .ended
  length : Option (Except Fault Int) := none
deriving Inhabited

/-- A key function: its answer may depend on the arguments of its earlier calls, which are kept.
Types are named for it, since it may ask for the name of an argument's type. -/
structure KeyFunction where
  respond : (nameOf : Value → String) → (earlier : Array (List Value)) → List Value →
    Except Fault Value
  history : Array (List Value) := #[]
deriving Inhabited

/-- The steps of pipelines, pipelines apart. -/
inductive Step where
  /-- Removes duplicates, by this key function unless it is null. -/
  | distinct (key limit : Value)
  /-- Gives its supply. -/
  | passing
  /-- Gives its supply again, with elements that are taken apart. -/
  | positional
  /-- Gives this value, whatever its supply. -/
  | returning (v : Value)
  /-- Fails when it is applied. -/
  | failing (fault : Fault)
  /-- Leaves its application undefined. -/
  | bare (typeName : String)
  /-- Can stand in a chain, but leaves undefined what that does, and is no step. -/
  | link
deriving Inhabited

/-- The sorts of sequence. -/
inductive SequenceKind where
  | abstract
  | iterable
  | produced
  | distinct
  | pipeline
  | scripted
deriving DecidableEq, Inhabited

/-- What a sequence draws its elements from, and how far it is. -/
inductive Body where
  /-- Nothing: pulling and resetting are left undefined. -/
  | abstract
  /-- The items of an iterable, by the feed that was opened on it. -/
  | iterable (data : Value) (feed : Option Feed)
  /-- The items of what a factory makes, and the size that was declared for them. -/
  | produced (factory : Value) (size : Value) (feed : Option Feed)
  /-- The elements of a supply whose keys are fresh. -/
  | distinct (supply : SequenceId) (key limit : Value) (seen : Seen)
  /-- The output of a list of steps on an input, null if there is none; null also stands for an output
  that was not built yet. -/
  | pipeline (steps : ListId) (input output : Value)
  /-- The elements of one iterator, with no way to start again. -/
  | scripted (cursor : CursorId)
deriving Inhabited

/-- The sort of a sequence with this body. -/
def Body.kind : Body → SequenceKind
  | .abstract => .abstract
  | .iterable .. => .iterable
  | .produced .. => .produced
  | .distinct .. => .distinct
  | .pipeline .. => .pipeline
  | .scripted .. => .scripted

/-- A sequence: its body, whether its elements are taken apart for key functions, and where the
current pass is. A peeked element was pulled and not handed out yet. -/
structure SequenceState where
  body : Body
  multiValue : Bool := false
  started : Bool := false
  exhausted : Bool := false
  peeked : Option Value := none
deriving Inhabited

/-- A fault as an object: its sort, the arguments that its text is made of, and what it was made from if
it names a sequence. -/
structure FaultObject where
  kind : ErrorKind
  arguments : List Value := []
  sequenceName : Value := .null
  reason : Value := .null
deriving Inhabited

/-- What a run tells besides its answers. -/
inductive Notice where
  | exhausted (id : SequenceId) (kind : SequenceKind)
  | rewound (id : SequenceId) (kind : SequenceKind)
  | listLookup (id : SequenceId) (keyType : String)
  | limitReached (id : SequenceId)
deriving DecidableEq

/-- All objects, and what there is to observe besides answers. -/
structure Store where
  sequences : Array SequenceState := #[]
  cursors : Array Cursor := #[]
  data : Array Value := #[]
  lists : Array (List Value) := #[]
  sources : Array Source := #[]
  meters : Array Meter := #[]
  keys : Array KeyFunction := #[]
  steps : Array Step := #[]
  faults : Array FaultObject := #[]
  journal : Array Notice := #[]
  /-- Whether warnings are raised as faults. -/
  raising : Bool := false
deriving Inhabited

/-- The name of a sort of sequence. -/
def SequenceKind.typeName : SequenceKind → String
  | .abstract => "Sequence"
  | .iterable => "IterableSequence"
  | .produced => "GeneratorSequence"
  | .distinct => "UniqueSequence"
  | .pipeline => "Pipeline"
  | .scripted => "PullOnly"

/-- The name of an iterator's type. -/
def Cursor.typeName : Cursor → String
  | .walking typeName .. => typeName
  | .listing .. => "list_iterator"
  | .ranging start stop step _ => (Value.range start stop step).iteratorName
  | .generating .. | .streaming .. => "generator"

/-- The name of a step's type. -/
def Step.typeName : Step → String
  | .distinct .. => "Unique"
  | .passing => "PassThrough"
  | .positional => "ByPosition"
  | .returning _ => "Returns"
  | .failing _ => "Raises"
  | .bare typeName => typeName
  | .link => "WithPipeline"

namespace Notice

/-- The wording of a notice that belongs to the log. -/
def logText? : Notice → Option String
  | .exhausted _ kind => some (kind.typeName ++ " exhausted")
  | .rewound _ kind => some (kind.typeName ++ " rewound")
  | .listLookup _ keyType => some (SequenceKind.distinct.typeName ++
      " falling back to list lookup for unhashable " ++ keyType ++ " keys")
  | .limitReached _ => none

/-- The wording of a notice that is a warning. -/
def warningText? : Notice → Option String
  | .limitReached _ => some Fault.limitAdvice
  | _ => none

end Notice

namespace Store

/-- The state of a sequence. -/
def sequence (store : Store) (id : SequenceId) : SequenceState := store.sequences.getD id.index default

/-- The state of an iterator. -/
def cursor (store : Store) (id : CursorId) : Cursor := store.cursors.getD id.index default

/-- The contents of an object that stays as it is; what it holds may be references again. -/
def datum (store : Store) (id : DatumId) : Value := store.data.getD id.index .null

/-- The contents of a list. -/
def list (store : Store) (id : ListId) : List Value := store.lists.getD id.index []

/-- A source. -/
def source (store : Store) (id : SourceId) : Source := store.sources.getD id.index default

/-- The counters of a source. -/
def meter (store : Store) (id : MeterId) : Meter := store.meters.getD id.index default

/-- A key function with its history. -/
def key (store : Store) (id : KeyId) : KeyFunction := store.keys.getD id.index default

/-- A step. -/
def step (store : Store) (id : StepId) : Step := store.steps.getD id.index default

/-- A fault that is held as an object. -/
def faultObject (store : Store) (id : FaultId) : FaultObject := store.faults.getD id.index default

/-- A value by its contents if it is a reference to an object that stays as it is. -/
def plain (store : Store) : Value → Value
  | .object (.datum id) => store.datum id
  | v => v

/-- The contents of a value to a depth of so many references to lists and to objects that stay as they
are. -/
def contentsTo (store : Store) : (depth : Nat) → Value → Value
  | 0, v => v
  | depth + 1, v => v.mapRefs fun ref =>
    match ref with
    | .datum id => store.contentsTo depth (store.datum id)
    | .list id => .list ((store.list id).map (store.contentsTo depth))
    | _ => .object ref

/-- The contents of a value as they are now. No chain of such references is longer than their number,
unless a list holds itself. -/
def contents (store : Store) (v : Value) : Value :=
  store.contentsTo (store.data.size + store.lists.size + 1) v

/-- The name of the type of an object. -/
def refTypeName (store : Store) : Ref → String
  | .sequence id => (store.sequence id).body.kind.typeName
  | .cursor id => (store.cursor id).typeName
  | .datum id => (store.datum id).typeName?.getD "object"
  | .list _ => "list"
  | .source id => (store.source id).typeName
  | .key _ => "function"
  | .step id => (store.step id).typeName
  | .fault id => (store.faultObject id).kind.name

/-- The name of the type of a value. -/
def typeName (store : Store) (v : Value) : String :=
  match v with
  | .object ref => store.refTypeName ref
  | _ => v.typeName?.getD "object"

/-- How a value is spoken of when it lacks an attribute. -/
def ownerName (store : Store) (v : Value) : String :=
  let plain := "'" ++ store.typeName v ++ "' object"
  match v with
  | .object (.source id) =>
    match (store.source id).className with
    | some name => "type object '" ++ name ++ "'"
    | none => plain
  | _ => plain

/-- Whether a value can be called. -/
def isCallable (store : Store) : Value → Bool
  | .object (.key _) => true
  | .object (.source id) => (store.source id).product.isSome
  | _ => false

/-- Whether a value can be iterated. -/
def isIterable (store : Store) : Value → Bool
  | .object (.sequence _) | .object (.cursor _) | .object (.list _) => true
  | .object (.source id) =>
    match (store.source id).opening with
    | none | some (.indexed _) => false
    | some _ => true
  | v => (Script.ofValue? (store.plain v)).isSome

/-- Whether a value can be walked through, which takes less than being iterable. -/
def canWalk (store : Store) (v : Value) : Bool :=
  match v with
  | .object (.source id) => (store.source id).opening.isSome
  | _ => store.isIterable v

/-- Whether a value is an iterator, which can be walked through only once. -/
def isOneShot : Value → Bool
  | .object (.sequence _) | .object (.cursor _) => true
  | _ => false

/-- Whether a value can be a step of a pipeline. -/
def isStep (store : Store) : Value → Bool
  | .object (.step id) =>
    match store.step id with
    | .link => false
    | _ => true
  | .object (.sequence id) => (store.sequence id).body.kind == .pipeline
  | _ => false

end Store

end FirstSeen
