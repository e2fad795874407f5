import FirstSeen.Traversal
import FirstSeen.Proofs.Tower.Machine

/-!
# Histories

What may be asked of a pipeline and of its streams, in any order, and what comes of it. A session is a store
with the streams that were begun in it; a scene is the same told without a store: a tower with the courses of
its streams. Both perform the same operations, and an outcome tells what an observer sees of one: its answer
or fault, and whether the pipeline is started and exhausted afterwards.

An operation on a stream that there is not asks nothing.
-/

set_option autoImplicit false

namespace FirstSeen

/-- What may be asked of a pipeline and of its streams, which are numbered. -/
inductive Op where
  | next
  | peek
  | rewind
  /-- All elements, of a sequence as of a pipeline. -/
  | force
  | collect
  | size
  | multiValue
  /-- A new stream. -/
  | stream
  /-- The next element of a stream. -/
  | pull (i : Nat)
  /-- All further elements of a stream. -/
  | drain (i : Nat)
deriving DecidableEq

/-- What an operation answers. -/
inductive Answer (α : Type) where
  | nothing
  | element (a : α)
  | elements (as : List α)
  | size (v : Value)
  | flag (b : Bool)

/-- Whether there is nothing to answer. -/
def Answer.isNothing {α : Type} : Answer α → Bool
  | nothing => true
  | _ => false

/-- The answer with other elements. -/
def Answer.map {α β : Type} (f : α → β) : Answer α → Answer β
  | nothing => nothing
  | element a => element (f a)
  | elements as => elements (as.map f)
  | size v => size v
  | flag b => flag b

/-- What an observer sees of an operation: its answer by contents or its fault, and where the pipeline is
afterwards. -/
structure Outcome where
  answer : Except Fault (Answer Value)
  started : Bool
  exhausted : Bool

/-! ## On a store -/

/-- A store with the streams that were made of a pipeline in it. -/
structure Session where
  store : Store
  streams : List CursorId

/-- An operation on a pipeline and its streams: what it answers, and the streams that there are then. -/
def Op.run (c : Calls) (p : SequenceId) (streams : List CursorId) :
    Op → Run (Answer Value × List CursorId)
  | next => do return (.element (← c.next p), streams)
  | peek => do return (.element (← c.peek p), streams)
  | rewind => do
    c.rewind p
    return (.nothing, streams)
  | force => do return (.elements (← c.force p), streams)
  | collect => do return (.elements (← c.collect p .null), streams)
  | size => do return (.size (← c.size p), streams)
  | multiValue => do return (.flag (← c.isMulti p), streams)
  | stream => do return (.nothing, streams ++ [← Run.newStream p .null])
  | pull i =>
    match streams[i]? with
    | some k => do return (.element (← c.advance k), streams)
    | none => return (.nothing, streams)
  | drain i =>
    match streams[i]? with
    | some k => do return (.elements (← c.listOf (.ofCursor k)), streams)
    | none => return (.nothing, streams)

namespace Session

/-- Performs an operation, unless it is out of fuel. -/
def perform (n : Nat) (p : SequenceId) (op : Op) (session : Session) : Option (Outcome × Session) :=
  let outcome (store : Store) (answer : Except Fault (Answer Value)) : Outcome :=
    ⟨answer, (store.sequence p).started, (store.sequence p).exhausted⟩
  match (op.run (calls n) p session.streams).from? session.store with
  | (.error .outOfFuel, _) => none
  | (.error (.fault fault), store) => some (outcome store (.error fault), ⟨store, session.streams⟩)
  | (.ok (answer, streams), store) =>
    some (outcome store (.ok (answer.map store.contents)), ⟨store, streams⟩)

/-- Performs operations in turn. -/
def play (n : Nat) (p : SequenceId) : List Op → Session → Option (List Outcome × Session)
  | [], session => some ([], session)
  | op :: rest, session =>
    match session.perform n p op with
    | none => none
    | some (outcome, session) =>
      match play n p rest session with
      | none => none
      | some (outcomes, session) => some (outcome :: outcomes, session)

end Session

/-! ## On a scene -/

/-- Where a stream is. -/
inductive Course where
  | fresh
  | drawing
  | spent
deriving DecidableEq

/-- A tower with the courses of its streams. -/
structure Scene where
  tower : Tower
  streams : List Course

namespace Tower

/-- Takes a tower back to its beginning if it was started. -/
def restart (tower : Tower) : Option Fault × Tower :=
  if tower.pass.started then tower.rewind else (none, tower)

/-- The next element, which stays the next one. -/
def peek (n : Nat) (tower : Tower) : Option (Draw × Tower) :=
  match tower.pass.peeked with
  | some item => some (.ok item, tower)
  | none => (tower.next n).map fun drawn =>
    match drawn with
    | (.ok item, left) => (.ok item, left.withPass { left.pass with peeked := some item })
    | (.error fault, left) => (.error fault, left)

/-- All elements, after the tower was taken back to its beginning if it was started. -/
def force (n : Nat) (tower : Tower) : Option (Except Fault (List Item) × Tower) :=
  match tower.restart with
  | (some fault, left) => some (.error fault, left)
  | (none, left) => gatherBy next n left []

end Tower

namespace Scene

/-- What is drawn for a stream, and where the stream is then: over, after any fault. -/
def hand (streams : List Course) (i : Nat) : Draw × Tower → Draw × Scene
  | (.ok item, left) => (.ok item, ⟨left, streams.set i .drawing⟩)
  | (.error fault, left) =>
    (.error (if fault.isEnd then .ended else fault), ⟨left, streams.set i .spent⟩)

/-- The next element of a stream. A new one takes the tower back to its beginning if it was started. -/
def advance (i : Nat) : (n : Nat) → Scene → Option (Draw × Scene)
  | 0, _ => none
  | n + 1, scene =>
    match scene.streams[i]? with
    | none | some .spent => some (.error .ended, scene)
    | some .drawing => (scene.tower.next n).map (hand scene.streams i)
    | some .fresh =>
      match scene.tower.restart with
      | (some fault, left) => some (.error (Run.insteadOfEnd .generatorSignalledEnd fault),
          ⟨left, scene.streams.set i .spent⟩)
      | (none, left) => (left.next n).map (hand scene.streams i)

/-- Performs an operation on the tower, whose streams stay where they are. -/
def onTower {α : Type} (scene : Scene) (answer : α → Answer Item)
    (result : Option (Except Fault α × Tower)) : Option (Except Fault (Answer Item) × Scene) :=
  result.map fun (ended, left) => (ended.map answer, { scene with tower := left })

/-- Performs an operation, unless it is out of fuel, given whether elements are taken apart. -/
def perform (multi : Bool) (n : Nat) (op : Op) (scene : Scene) :
    Option (Except Fault (Answer Item) × Scene) :=
  match op with
  | .next => scene.onTower .element (scene.tower.next n)
  | .peek => scene.onTower .element (scene.tower.peek n)
  | .rewind =>
    match scene.tower.rewind with
    | (some fault, left) => some (.error fault, { scene with tower := left })
    | (none, left) => some (.ok .nothing, { scene with tower := left })
  | .force | .collect => scene.onTower .elements (scene.tower.force n)
  | .size => some (scene.tower.size.map .size, scene)
  | .multiValue => some (.ok (.flag multi), scene)
  | .stream => some (.ok .nothing, { scene with streams := scene.streams ++ [.fresh] })
  | .pull i =>
    match scene.streams[i]? with
    | none => some (.ok .nothing, scene)
    | some _ => (scene.advance i n).map fun (told, left) => (told.map .element, left)
  | .drain i =>
    match scene.streams[i]? with
    | none => some (.ok .nothing, scene)
    | some _ => (gatherBy (advance i) n scene []).map fun (told, left) => (told.map .elements, left)

/-- What an observer sees of an operation on a scene. -/
def outcome (answer : Except Fault (Answer Item)) (scene : Scene) : Outcome :=
  ⟨answer.map (Answer.map Item.contents), scene.tower.pass.started, scene.tower.pass.exhausted⟩

/-- Performs operations in turn. -/
def play (multi : Bool) (n : Nat) : List Op → Scene → Option (List Outcome × Scene)
  | [], scene => some ([], scene)
  | op :: rest, scene =>
    match scene.perform multi n op with
    | none => none
    | some (answer, scene) =>
      match play multi n rest scene with
      | none => none
      | some (outcomes, last) => some (outcome answer scene :: outcomes, last)

end Scene

end FirstSeen
