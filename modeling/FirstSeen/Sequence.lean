import FirstSeen.Iteration

/-!
# Sequences

A sequence hands out one element at a time, computes nothing ahead of its consumer and can be taken
back to its beginning. It is *started* once something was pulled from what it is made of, and
*exhausted* once the end was signalled; from then on it signals the end again without asking anyone.
An element that was peeked at waits to be handed out.

What differs between the sorts of sequence is how an element is pulled, how the sequence is reset and
what is released at the end; those are the cases below. Pulling from a distinct stage or from a
pipeline has a module of its own.
-/

set_option autoImplicit false

namespace FirstSeen

namespace Run

/-- Changes the body of a sequence. -/
def setBody (id : SequenceId) (body : Body) : Run Unit :=
  updateSequence id fun state => { state with body := body }

/-- Releases what a sequence no longer needs at its end: a distinct stage its seen keys, a produced
sequence its iterator. -/
def cleanUp (id : SequenceId) : Run Unit := do
  match (← sequence id).body with
  | .distinct supply key limit _ => setBody id (.distinct supply key limit .empty)
  | .produced factory size _ => setBody id (.produced factory size none)
  | _ => pure ()

/-- Marks a sequence as exhausted. -/
def signalEnd (id : SequenceId) : Run Unit := do
  updateSequence id fun state => { state with exhausted := true }
  tell (.exhausted id (← sequence id).body.kind)
  cleanUp id

end Run

namespace Calls

/-- Hands out the next element: the one that was peeked at, or else one that is pulled. -/
def nextWith (c : Calls) (id : SequenceId) : Run Value := do
  let state ← Run.sequence id
  match state.peeked with
  | some v =>
    Run.updateSequence id fun state => { state with peeked := none }
    return v
  | none =>
    if state.exhausted then Run.fail .ended
    Run.updateSequence id fun state => { state with started := true }
    Run.onFault (c.pull id) fun fault => do
      if fault.isEnd then Run.signalEnd id
      Run.fail fault

/-- Pulls from an iterable, which is opened by the first pull of a pass. -/
def pullIterable (c : Calls) (id : SequenceId) (data : Value) : Option Feed → Run Value
  | some feed => c.draw feed
  | none => do
    let feed ← Run.openFeed data
    Run.setBody id (.iterable data (some feed))
    c.draw feed

/-- Pulls from a factory, which is called by the first pull of a pass. What a key function makes, if it
serves as the factory, becomes an object of the store. -/
def pullProduced (c : Calls) (id : SequenceId) (factory size : Value) : Option Feed → Run Value
  | some feed => c.draw feed
  | none => do
    let feed ← Run.openFeed (← Run.install (← Run.call factory []))
    Run.setBody id (.produced factory size (some feed))
    c.draw feed

/-- Resets what a sequence is made of, so that the next pull starts from the beginning. An iterator
that was begun cannot be reset, and a pipeline that was not built needs no reset. -/
def reset (c : Calls) (id : SequenceId) : Run Unit := do
  let state ← Run.sequence id
  match state.body with
  | .abstract | .scripted _ => Run.fail .notImplemented
  | .iterable data _ =>
    if Store.isOneShot data && state.started then
      Run.fail (.cannotRewind state.body.kind.typeName
        ((← Run.typeName data) ++ " is a one-shot iterator"))
    Run.setBody id (.iterable data none)
  | .produced factory size feed =>
    match feed with
    | some feed => Run.closeFeed feed
    | none => pure ()
    Run.setBody id (.produced factory size none)
  | .distinct supply key limit _ =>
    c.rewind supply
    Run.setBody id (.distinct supply key limit .empty)
  | .pipeline _ _ output =>
    if output.isNull then pure () else c.rewind (← Run.sequenceFor "rewind" output)

/-- Takes a sequence back to its beginning. If what it is made of cannot be reset, nothing of the
sequence itself changes. -/
def rewindWith (c : Calls) (id : SequenceId) : Run Unit := do
  c.reset id
  Run.updateSequence id fun state =>
    { state with started := false, exhausted := false, peeked := none }
  Run.tell (.rewound id (← Run.sequence id).body.kind)

end Calls

end FirstSeen
