/-!
# Faults

Everything that can stop an operation short, named by its cause. A fault has a kind, which decides
who may handle it, and a wording, which is fixed by its cause.

Two kinds matter to the library itself. A fault that *ends* is the signal by which a source tells
that it has no more elements; a fault of a *type* kind, met while a key is looked up, sends that key
to the slower of the two collections of seen keys. All other kinds only travel.
-/

set_option autoImplicit false

namespace FirstSeen

/-- The kinds of fault, as a handler tells them apart. -/
inductive ErrorKind where
  /-- An argument has the right type and a wrong value. -/
  | value
  /-- An argument has a wrong type. -/
  | type
  | runtime
  /-- The end of a source. -/
  | stop
  | attribute
  | index
  | zeroDivision
  | notImplemented
  | overflow
  | memory
  /-- Raised by the library's own sequences. -/
  | sequence
  /-- A pipeline was given no input, or two. -/
  | noInput
  /-- A sequence cannot start again. -/
  | rewind
  | user
  /-- A refinement of `stop`, handled wherever `stop` is. -/
  | subStop
  /-- A refinement of `type`, handled wherever `type` is. -/
  | subType
  /-- A warning that was raised instead of being issued. -/
  | warning
  /-- The common ancestor of all kinds. -/
  | any
deriving DecidableEq, Inhabited

namespace ErrorKind

/-- The kinds that signal the end of a source. -/
def isEnd : ErrorKind → Bool
  | .stop | .subStop => true
  | _ => false

/-- The kinds that tell that a value has a wrong type. -/
def isType : ErrorKind → Bool
  | .type | .subType => true
  | _ => false

/-- The kinds directly above a kind in the hierarchy. -/
def parents : ErrorKind → List ErrorKind
  | .any => []
  | .noInput => [.sequence, .value]
  | .rewind => [.sequence]
  | .subStop => [.stop]
  | .subType => [.type]
  | .notImplemented => [.runtime]
  | _ => [.any]

/-- Whether a fault of one kind is also one of another: the hierarchy is three levels deep. -/
def isA (kind other : ErrorKind) : Bool :=
  kind == other || other == .any || kind.parents.contains other

/-- The name under which a kind of fault is reported. -/
def name : ErrorKind → String
  | .value => "ValueError"
  | .type => "TypeError"
  | .runtime => "RuntimeError"
  | .stop => "StopIteration"
  | .attribute => "AttributeError"
  | .index => "IndexError"
  | .zeroDivision => "ZeroDivisionError"
  | .notImplemented => "NotImplementedError"
  | .overflow => "OverflowError"
  | .memory => "MemoryError"
  | .sequence => "LazyUniqError"
  | .noInput => "NoInputError"
  | .rewind => "RewindNotSupportedError"
  | .user => "UserError"
  | .subStop => "SubStop"
  | .subType => "SubTypeError"
  | .warning => "UserWarning"
  | .any => "Exception"

end ErrorKind

/-- Why an operation stopped. Values appear in a fault only by the name of their type or by their
written form. -/
inductive Fault where
  /-- A sequence, an iterator or an event list has no more elements. -/
  | ended
  /-- A fault that a source, a key function or a step was set up to raise. -/
  | scripted (kind : ErrorKind) (text : String)
  /-- A key function signalled an end, which only the supply may do. -/
  | keySignalledEnd
  /-- An end was signalled inside a generator, which only its return may do. -/
  | generatorSignalledEnd
  | noInput
  | inputTwice
  | cannotRewind (sequenceName reason : String)
  /-- The list of seen unhashable keys has reached its limit while warnings are raised. -/
  | limitReached
  /-- An operation of an interface that its object leaves undefined. -/
  | notImplemented
  | flagNotBool (typeName : String)
  | dataNotIterable (typeName : String)
  | factoryNotCallable (typeName : String)
  | badSize (written : String)
  | noSequenceFrom (typeName : String)
  | supplyNotSequence (typeName : String)
  | keyNotCallable (typeName : String)
  | badLimit (written : String)
  | stepsNotList (typeName : String)
  | notStep (typeName : String)
  | notIterable (typeName : String)
  /-- Iterating an object gave something that is no iterator. -/
  | gaveNoIterator (typeName : String)
  | notIterator (typeName : String)
  | notCallable (typeName : String)
  | missingAttribute (owner name : String)
  | notSpreadable (callee typeName : String)
  | unsupportedJoin (left right : String)
  | negativeLength
  | lengthTooLarge
  | rangeTooLong
  /-- Room was asked for more items than there can be. -/
  | outOfMemory
  /-- A stream was asked for an element from within itself. -/
  | alreadyExecuting
  | unhashable (typeName : String)
  /-- An operation of a key rule on a value of a type that it does not take. -/
  | unsupportedOperand (operation typeName : String)
  | keyArity (expected given : Nat)
  | keyArgumentMissing
  | itemMissing
  | divisionByZero
deriving DecidableEq, Inhabited

namespace Fault

/-- The kind of a fault is fixed by its cause. -/
def kind : Fault → ErrorKind
  | ended => .stop
  | scripted kind _ => kind
  | keySignalledEnd | generatorSignalledEnd => .runtime
  | noInput | inputTwice => .noInput
  | cannotRewind .. => .rewind
  | limitReached => .warning
  | notImplemented => .notImplemented
  | badSize _ | badLimit _ | negativeLength | alreadyExecuting => .value
  | missingAttribute .. => .attribute
  | lengthTooLarge | rangeTooLong => .overflow
  | outOfMemory => .memory
  | keyArgumentMissing | itemMissing => .index
  | divisionByZero => .zeroDivision
  | flagNotBool _ | dataNotIterable _ | factoryNotCallable _ | noSequenceFrom _
  | supplyNotSequence _ | keyNotCallable _ | stepsNotList _ | notStep _ | notIterable _
  | gaveNoIterator _ | notIterator _ | notCallable _ | notSpreadable .. | unsupportedJoin ..
  | unhashable _ | unsupportedOperand .. | keyArity .. => .type

/-- Whether the fault signals the end of a source. -/
def isEnd (fault : Fault) : Bool := fault.kind.isEnd

/-- Whether the fault tells that a value has a wrong type. -/
def isType (fault : Fault) : Bool := fault.kind.isType

/-- The advice given when the limit on unhashable keys is met. -/
def limitAdvice : String :=
  "Unique stage reached max unhashable items limit. Consider using " ++
    "a key function returning hashable values to avoid performance degradation."

/-- The wording of a fault. -/
def message : Fault → String
  | ended => ""
  | scripted _ text => text
  | keySignalledEnd => "key function raised StopIteration"
  | generatorSignalledEnd => "generator raised StopIteration"
  | noInput => "No input provided"
  | inputTwice => "Input provided twice"
  | cannotRewind sequenceName reason => sequenceName ++ " cannot rewind: " ++ reason
  | limitReached => limitAdvice
  | notImplemented => ""
  | flagNotBool t => "multi_value must be a bool, got " ++ t
  | dataNotIterable t => "data must be iterable, got " ++ t
  | factoryNotCallable t => "factory must be callable, got " ++ t
  | badSize written => "size must be a non-negative int or None, got " ++ written
  | noSequenceFrom t => "Cannot build a sequence from " ++ t ++
      ": expected a Sequence, an iterable or an iterator factory"
  | supplyNotSequence t => "upstream must be a Sequence, got " ++ t
  | keyNotCallable t => "key must be callable, got " ++ t
  | badLimit written => "max_unhashable_items must be a non-negative int, got " ++ written
  | stepsNotList t => "steps must be a list, got " ++ t
  | notStep t => "steps must contain Step objects, got " ++ t
  | notIterable t => "'" ++ t ++ "' object is not iterable"
  | gaveNoIterator t => "iter() returned non-iterator of type '" ++ t ++ "'"
  | notIterator t => "'" ++ t ++ "' object is not an iterator"
  | notCallable t => "'" ++ t ++ "' object is not callable"
  | missingAttribute owner name => owner ++ " has no attribute '" ++ name ++ "'"
  | notSpreadable callee t => callee ++ " argument after * must be an iterable, not " ++ t
  | unsupportedJoin left right =>
      "unsupported operand type(s) for |: '" ++ left ++ "' and '" ++ right ++ "'"
  | negativeLength => "__len__() should return >= 0"
  | lengthTooLarge => "cannot fit 'int' into an index-sized integer"
  | rangeTooLong => "Python int too large to convert to C ssize_t"
  | outOfMemory => ""
  | alreadyExecuting => "generator already executing"
  | unhashable t => "unhashable type: '" ++ t ++ "'"
  | unsupportedOperand operation t => operation ++ ": unsupported " ++ t
  | keyArity expected given =>
      "key takes " ++ toString expected ++ " arguments but " ++ toString given ++ " were given"
  | keyArgumentMissing => "key argument out of range"
  | itemMissing => "item index out of range"
  | divisionByZero => "division by zero"

end Fault

end FirstSeen
