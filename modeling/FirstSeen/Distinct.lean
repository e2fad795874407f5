import FirstSeen.Sequence
import FirstSeen.Shown

/-!
# Distinct stages

A distinct stage hands out the elements of its supply whose keys did not come earlier in the pass.
It asks the supply for one element at a time and skips those whose keys were seen. Only the supply
may end it: a key function that signals an end fails in another way. A failing key function leaves no
trace in the seen keys.
-/

set_option autoImplicit false

namespace FirstSeen

namespace Calls

/-- Calls the key function on an element, or on its items if elements are taken apart. -/
def callKeyOn (c : Calls) (key : Value) (multi : Bool) (element : Value) : Run Value := do
  if multi then
    match ← c.itemsOf? element with
    | some items => Run.call key items
    | none =>
      Run.fail (.notSpreadable (← Run.view (·.calleeName key)) (← Run.typeName element))
  else Run.call key [element]

/-- The key of an element: the element itself if there is no key function. -/
def keyFor (c : Calls) (key : Value) (multi : Bool) (element : Value) : Run Value :=
  if key.isNull then pure element
  else
    Run.onFault (c.callKeyOn key multi element) fun fault =>
      Run.fail (Run.insteadOfEnd .keySignalledEnd fault)

end Calls

namespace Run

/-- Tells what recording a key had to tell. -/
def tellSeen (id : SequenceId) (key : Value) : List SeenNotice → Run Unit
  | [] => pure ()
  | .listLookup :: rest => do
    tell (.listLookup id (← typeName key))
    tellSeen id key rest
  | .limitReached :: rest => do
    tell (.limitReached id)
    tellSeen id key rest

/-- Records the contents of a key in a distinct stage and gives whether they are fresh. -/
def remember (id : SequenceId) (key : Value) : Run Bool := do
  match (← sequence id).body with
  | .distinct supply keyFunction limit seen =>
    let recording := seen.record (← contents limit) (← view (·.raising)) (← contents key)
    setBody id (.distinct supply keyFunction limit recording.seen)
    tellSeen id key recording.notices
    ofExcept recording.outcome
  | _ => pure true

end Run

namespace Calls

/-- Pulls elements from the supply until one has a fresh key. -/
def pullDistinct (c : Calls) (id supply : SequenceId) (key : Value) (multi : Bool) : Run Value := do
  let element ← c.next supply
  let k ← c.keyFor key multi element
  if ← Run.remember id k then return element else c.pull id

end Calls

end FirstSeen
