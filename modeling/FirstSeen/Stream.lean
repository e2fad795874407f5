import FirstSeen.Pipeline

/-!
# Streams

A stream is one run of a pipeline, drawn from lazily: nothing happens before its first element is asked
for. Then either the pipeline itself is taken back to its beginning and drawn from, or a chain is built
on the input that the stream was given. A stream is over after its first fault. An end that is
signalled while it is set up leaves it as another fault. While a stream is asked for an element it
cannot be asked for another.
-/

set_option autoImplicit false

namespace FirstSeen

namespace Calls

/-- Sets a stream up: what it draws from. -/
def beginStream (c : Calls) (pipeline : SequenceId) (input : Value) : Run Feed := do
  if input.isNull then
    if (← Run.sequence pipeline).started then c.rewind pipeline
    return .sequence pipeline
  else Run.openFeed (← c.buildFor pipeline input)

/-- Hands out the next element of what a stream draws from, and marks where the stream is then. -/
def drawStream (c : Calls) (id : CursorId) (pipeline : SequenceId) (input : Value) (feed : Feed) :
    Run Value := do
  let v ← Run.onFault (c.draw feed) fun fault => do
    Run.setCursor id (.streaming pipeline input .finished)
    Run.fail (if fault.isEnd then .ended else fault)
  Run.setCursor id (.streaming pipeline input (.delegating feed))
  return v

/-- Hands out the next element of a stream, which cannot be asked for another one meanwhile. -/
def advanceStream (c : Calls) (id : CursorId) (pipeline : SequenceId) (input : Value)
    (phase : StreamPhase) : Run Value := do
  match phase with
  | .finished => Run.fail .ended
  | .running => Run.fail .alreadyExecuting
  | .delegating feed =>
    Run.setCursor id (.streaming pipeline input .running)
    c.drawStream id pipeline input feed
  | .fresh =>
    Run.setCursor id (.streaming pipeline input .running)
    let feed ← Run.onFault (c.beginStream pipeline input) fun fault => do
      Run.setCursor id (.streaming pipeline input .finished)
      Run.fail (Run.insteadOfEnd .generatorSignalledEnd fault)
    c.drawStream id pipeline input feed

end Calls

end FirstSeen
