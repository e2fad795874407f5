import FirstSeen.Calls
import FirstSeen.Shown

/-!
# Construction

How sequences come into being, and what their makers check. The flag that says whether elements are
taken apart comes first, because every sequence checks it before anything of its own.
-/

set_option autoImplicit false

namespace FirstSeen

namespace Run

/-- Takes a value for the flag that says whether elements are taken apart. -/
def flagOf (multiValue : Value) : Run Bool := do
  match multiValue with
  | .bool b => return b
  | _ => fail (.flagNotBool (← typeName multiValue))

/-- A sequence that leaves open what it is made of. -/
def newAbstract (multiValue : Value) : Run SequenceId := do
  let multi ← flagOf multiValue
  newSequence { body := .abstract, multiValue := multi }

/-- A sequence over an iterable. -/
def newIterable (data multiValue : Value) : Run SequenceId := do
  let multi ← flagOf multiValue
  if ← view (·.isIterable data) then newSequence { body := .iterable data none, multiValue := multi }
  else fail (.dataNotIterable (← typeName data))

/-- Whether a declared size, or a limit, is a natural number. -/
def isCount (v : Value) : Run Bool := do
  match (← plain v).integer? with
  | some n => return 0 ≤ n
  | none => return false

/-- A sequence over what a factory makes, with a declared size unless that is null. -/
def newProduced (factory multiValue size : Value) : Run SequenceId := do
  let multi ← flagOf multiValue
  if !(← view (·.isCallable factory)) then fail (.factoryNotCallable (← typeName factory))
  if !(size.isNull || (← isCount size)) then fail (.badSize (← view (·.shown size)))
  newSequence { body := .produced factory size none, multiValue := multi }

/-- Takes a value for a sequence: it is one, or it can be iterated, or it makes something that can. -/
def toSequence (data multiValue : Value) : Run SequenceId := do
  match data with
  | .object (.sequence id) => return id
  | _ =>
    if ← view (·.isIterable data) then newIterable data multiValue
    else if ← view (·.isCallable data) then newProduced data multiValue .null
    else fail (.noSequenceFrom (← typeName data))

end Run

namespace Calls

/-- A distinct stage on a supply. Its elements are taken apart if those of the supply are; key
and limit are taken as they are. -/
def newDistinct (c : Calls) (supply key limit : Value) : Run SequenceId := do
  match supply with
  | .object (.sequence id) =>
    let multi ← c.isMulti id
    Run.newSequence { body := .distinct id key limit .empty, multiValue := multi }
  | _ => Run.fail (.supplyNotSequence (← Run.typeName supply))

end Calls

end FirstSeen
