import FirstSeen.Calls

/-!
# Iteration

Opening an iterable, moving its iterator on, closing it, and calling what can be called.

Walkers go on after a fault, generators do not: a generator is over once a fault left it, and a fault
that would signal an end leaves it as another fault. A list is walked through as it is at each step.
-/

set_option autoImplicit false

namespace FirstSeen

namespace Run

/-- The arguments of a call by their contents, and what a key function answers to them. -/
def answerOf (store : Store) (id : KeyId) (arguments : List Value) :
    List Value × Except Fault Value :=
  let args := arguments.map store.contents
  let key := store.key id
  (args, key.respond store.typeName key.history args)

/-- Calls a key function, which keeps the contents of the arguments and answers from them. -/
def callKey (id : KeyId) (arguments : List Value) : Run Value := do
  let (args, answer) ← view fun store => answerOf store id arguments
  modify fun store => { store with
    keys := store.keys.modify id.index fun key => { key with history := key.history.push args } }
  ofExcept answer

/-- Makes the product of a source. -/
def make (meter : MeterId) : Product → Run Value
  | .value v => pure v
  | .generator script closing =>
    return .ofCursor (← newCursor (.generating script 0 .fresh (some meter) closing))
  | .walker typeName script closing =>
    return .ofCursor (← newCursor (.walking typeName script 0 (some meter) closing))
  | .items items =>
    return .ofCursor (← newCursor (.walking "list_iterator" (.ofValues items) 0 none .silent))
  | .shared cursor => pure (.ofCursor cursor)

/-- Calls a source. The call is counted before it may fail. -/
def callSource (source : Source) (product : Product) : Run Value := do
  updateMeter source.meter fun m => { m with calls := m.calls + 1 }
  let count ← view fun store => (store.meter source.meter).calls
  if source.failingCalls.contains count then fail source.failure
  make source.meter product

/-- Calls a value. -/
def call (v : Value) (args : List Value) : Run Value := do
  match v with
  | .object (.key id) => callKey id args
  | .object (.source id) =>
    let source ← view (·.source id)
    match source.product with
    | some product => callSource source product
    | none => fail (.notCallable source.typeName)
  | _ => fail (.notCallable (← typeName v))

/-- Opens a source for iteration. -/
def openSource (source : Source) : Run Feed := do
  match source.opening with
  | some (.generator script) =>
    return .cursor (← newCursor (.generating script 0 .fresh (some source.meter) .silent))
  | some (.walker script) =>
    updateMeter source.meter fun m => { m with iterations := m.iterations + 1 }
    return .cursor (← newCursor (.walking "StepIter" script 0 (some source.meter) .silent))
  | some (.refusal fault) =>
    updateMeter source.meter fun m => { m with iterations := m.iterations + 1 }
    fail fault
  | some (.indexed script) => return .cursor (← newCursor (.walking "iterator" script 0 none .silent))
  | none => fail (.notIterable source.typeName)

/-- Opens a value for iteration. Sequences and iterators are their own iterators. -/
def openFeed (v : Value) : Run Feed := do
  match v with
  | .object (.sequence id) => return .sequence id
  | .object (.cursor id) => return .cursor id
  | .object (.list id) => return .cursor (← newCursor (.listing id 0 false))
  | .object (.source id) => openSource (← view (·.source id))
  | _ =>
    match ← plain v with
    | .range start stop step => return .cursor (← newCursor (.ranging start stop step 0))
    | held =>
      match Script.ofValue? held with
      | some script => return .cursor (← newCursor (.walking held.iteratorName script 0 none .silent))
      | none => fail (.notIterable (← typeName v))

/-- A length that fits into a signed word of 64 bits. -/
def wordLength (n : Nat) : Run Value :=
  if Value.wordLimit ≤ n then fail .rangeTooLong else return .ofNat n

/-- How many items a value tells that it has, null if it does not tell. -/
def lengthOf (v : Value) : Run Value := do
  match v with
  | .object (.list id) => return .ofNat (← list id).length
  | .object (.source id) =>
    match (← view (·.source id)).length with
    | none => return .null
    | some (.error fault) => fail fault
    | some (.ok n) =>
      if n < 0 then fail .negativeLength
      if Value.wordLimit ≤ n then fail .lengthTooLarge
      return .int n
  | _ =>
    match (← plain v).length? with
    | none => return .null
    | some n => wordLength n

/-- How many items a value tells that are to come, null if it does not tell. An iterator of a range tells
it too. -/
def remainingOf (v : Value) : Run Value := do
  match v with
  | .object (.cursor id) =>
    match ← cursor id with
    | .ranging start stop step position => wordLength (Value.rangeLength start stop step - position)
    | _ => return .null
  | _ => lengthOf v

/-- The number of items from which on no room can be made for them. -/
def roomLimit : Int := (1 <<< 40 : Nat)

/-- Makes room for the items of a value before they are gathered. A length that fails is taken for none
at all if it fails with a type. -/
def makeRoom (v : Value) : Run Unit := do
  let length ← onFault (remainingOf v) fun fault =>
    if fault.isType then pure .null else fail fault
  match length with
  | .int n => if roomLimit ≤ n then fail .outOfMemory
  | _ => pure ()

/-- What closing an iterator comes to, once it is known to be open. -/
def noteClose (meter : Option MeterId) : CloseRule → Run Unit
  | .silent => pure ()
  | .counted fault => do
    updateMeter? meter fun m => { m with closes := m.closes + 1 }
    match fault with
    | some fault => fail fault
    | none => pure ()

/-- Puts the fault in place of one that signals an end. -/
def insteadOfEnd (replacement fault : Fault) : Fault := if fault.isEnd then replacement else fault

/-- Closes an iterator. A generator is over from then on, and its body is told if it was begun. -/
def closeCursor (id : CursorId) : Run Unit := do
  match ← cursor id with
  | .walking _ _ _ meter closing => noteClose meter closing
  | .listing .. | .ranging .. => pure ()
  | .generating script position phase meter closing =>
    setCursor id (.generating script position .finished meter closing)
    if phase = .suspended then
      onFault (noteClose meter closing) fun fault =>
        fail (insteadOfEnd .generatorSignalledEnd fault)
  | .streaming pipeline input phase =>
    if phase = .running then fail .alreadyExecuting
    setCursor id (.streaming pipeline input .finished)

/-- Closes a feed. Sequences have nothing to close. -/
def closeFeed : Feed → Run Unit
  | .cursor id => closeCursor id
  | .sequence _ => pure ()

/-- Hands out an event. -/
def deliver : Event → Run Value
  | .value v => pure v
  | .made v => newObject v
  | .fault fault => fail fault

/-- Moves a walker on. Each attempt is counted, also past the end. -/
def advanceWalker (id : CursorId) (typeName : String) (script : Script) (position : Nat)
    (meter : Option MeterId) (closing : CloseRule) : Run Value := do
  updateMeter? meter fun m => { m with pulls := m.pulls + 1 }
  match script position with
  | none => fail .ended
  | some event =>
    setCursor id (.walking typeName script (position + 1) meter closing)
    deliver event

/-- Moves an iterator of a list on. Once it met the end, it stays there. -/
def advanceListing (id : CursorId) (list : ListId) (position : Nat) (ended : Bool) : Run Value := do
  if ended then fail .ended
  match (← Run.list list)[position]? with
  | none =>
    setCursor id (.listing list position true)
    fail .ended
  | some v =>
    setCursor id (.listing list (position + 1) false)
    return v

/-- Moves an iterator of a range on. -/
def advanceRanging (id : CursorId) (start stop step : Int) (position : Nat) : Run Value := do
  match Value.rangeItem? start stop step position with
  | none => fail .ended
  | some v =>
    setCursor id (.ranging start stop step (position + 1))
    newObject v

/-- Runs a generator to its next element. -/
def advanceGenerator (id : CursorId) (script : Script) (position : Nat) (phase : Phase)
    (meter : Option MeterId) (closing : CloseRule) : Run Value := do
  if phase = .finished then fail .ended
  if phase = .fresh then updateMeter? meter fun m => { m with iterations := m.iterations + 1 }
  match script position with
  | none =>
    setCursor id (.generating script position .finished meter closing)
    fail .ended
  | some event =>
    updateMeter? meter fun m => { m with pulls := m.pulls + 1 }
    match event with
    | .fault fault =>
      setCursor id (.generating script (position + 1) .finished meter closing)
      fail (insteadOfEnd .generatorSignalledEnd fault)
    | _ =>
      setCursor id (.generating script (position + 1) .suspended meter closing)
      deliver event

end Run

namespace Calls

/-- Draws an element from a feed. -/
def draw (c : Calls) : Feed → Run Value
  | .cursor id => c.advance id
  | .sequence id => c.next id

/-- Gathers the elements of a feed up to its end. -/
def gatherWith (c : Calls) (feed : Feed) (earlier : List Value) : Run (List Value) := do
  let drawn ← Run.onFault (some <$> c.draw feed) fun fault =>
    if fault.isEnd then pure none else Run.fail fault
  match drawn with
  | some v => c.gather feed (v :: earlier)
  | none => return earlier.reverse

/-- All items of a value, which has to be opened for that. -/
def listOf (c : Calls) (v : Value) : Run (List Value) := do
  let feed ← Run.openFeed v
  Run.makeRoom v
  c.gather feed []

/-- All items of a value, if it can be walked through. -/
def itemsOf? (c : Calls) (v : Value) : Run (Option (List Value)) := do
  match v with
  | .object (.list id) => some <$> Run.list id
  | .object (.datum _) =>
    Run.makeRoom v
    return (← Run.plain v).items?
  | .object _ => if ← Run.view (·.canWalk v) then some <$> c.listOf v else return none
  | _ => return v.items?

end Calls

end FirstSeen
