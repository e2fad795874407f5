import FirstSeen.Proofs.Obeying
import FirstSeen.Traversal

/-!
# What users do

A *client* is a program that uses sequences, pipelines and steps from outside. It makes objects of its own, such as lists,
iterators, sources and key functions, makes steps, sequences and pipelines of them, asks any of these for anything that
can be asked of them, changes lists, closes iterators, handles faults, and lets all of that depend on what came back. It
has no other way to change what sequences and pipelines are.

A law that operations obey is obeyed by every client if the changes obey it that clients make on their own.
-/

set_option autoImplicit false

namespace FirstSeen

open Run

/-- A program that uses sequences, pipelines and steps through these operations. -/
inductive Client (c : Calls) : {α : Type} → Run α → Prop
  /- Programs. What is read off a store is not where streams are, which cannot be asked of them. -/
  | pure {α : Type} (a : α) : Client c (pure a : Run α)
  | fail {α : Type} (fault : Fault) : Client c (fail fault : Run α)
  | read {α : Type} {f : Store → α} (unseeing : Store.Unseeing f) : Client c (view f)
  | bind {α β : Type} {run : Run α} {next : α → Run β} (first : Client c run) (rest : ∀ a, Client c (next a)) :
      Client c (run >>= next)
  | handle {α : Type} {run : Run α} {handler : Fault → Run α} (body : Client c run)
      (handled : ∀ fault, Client c (handler fault)) : Client c (onFault run handler)
  /- Objects of its own. -/
  | install (v : Value) : Client c (install v)
  | updateList (id : ListId) (f : List Value → List Value) : Client c (updateList id f)
  | newIterator (cursor : Cursor) (noStream : ∀ pipeline input phase, cursor ≠ .streaming pipeline input phase) :
      Client c (newCursor cursor)
  | newMeter : Client c newMeter
  | newSource (source : Source) : Client c (newSource source)
  | newKey (key : KeyFunction) : Client c (newKey key)
  | newStep (step : Step) : Client c (newStep step)
  | newFault (object : FaultObject) : Client c (newFault object)
  /- Sequences, steps and pipelines. -/
  | newAbstract (multiValue : Value) : Client c (newAbstract multiValue)
  | newScripted (cursor : CursorId) (multi : Bool) :
      Client c (newSequence { body := .scripted cursor, multiValue := multi })
  | newIterable (data multiValue : Value) : Client c (newIterable data multiValue)
  | newProduced (factory multiValue size : Value) : Client c (newProduced factory multiValue size)
  | toSequence (data multiValue : Value) : Client c (toSequence data multiValue)
  | newDistinct (supply key limit : Value) : Client c (c.newDistinct supply key limit)
  | newDistinctStep (key limit : Value) : Client c (newDistinctStep key limit)
  | newPipeline (steps input multiValue : Value) : Client c (newPipeline steps input multiValue)
  | join (left right : Value) : Client c (join left right)
  | joinThen (first second : Value) : Client c (joinThen first second)
  | withInput (v data : Value) (multiValue : Option Value) : Client c (withInput v data multiValue)
  /- What is asked of them. -/
  | next (id : SequenceId) : Client c (c.next id)
  | peek (id : SequenceId) : Client c (c.peek id)
  | rewind (id : SequenceId) : Client c (c.rewind id)
  | size (id : SequenceId) : Client c (c.size id)
  | isMulti (id : SequenceId) : Client c (c.isMulti id)
  | apply (step supply : Value) : Client c (c.apply step supply)
  | force (id : SequenceId) : Client c (c.force id)
  | collect (id : SequenceId) (input : Value) : Client c (c.collect id input)
  | stream (pipeline : SequenceId) (input : Value) : Client c (newStream pipeline input)
  | advance (id : CursorId) : Client c (c.advance id)
  | close (id : CursorId) : Client c (closeCursor id)
  | listOf (v : Value) : Client c (c.listOf v)

/-- A law that the changes obey which clients make on their own. -/
class Law.Furnished (law : Law) : Prop extends law.Ambient where
  newStream : ∀ pipeline input, (Run.newStream pipeline input).Obeys law
  updateList : ∀ id f, (Run.updateList id f).Obeys law
  newMeter : Run.newMeter.Obeys law
  newSource : ∀ source, (Run.newSource source).Obeys law
  newKey : ∀ key, (Run.newKey key).Obeys law
  newStep : ∀ step, (Run.newStep step).Obeys law
  newFault : ∀ object, (Run.newFault object).Obeys law

/-- A law that all changes obey, those of operations and those of clients. -/
class Law.Public (law : Law) : Prop extends law.Elementary, law.Furnished where
  keepOutput : ∀ id output, (Calls.keepOutput id output).Obeys law

/-- A client obeys a law if the operations do that it asks for, and peeking does. -/
theorem Client.obeys_of {law : Law} [law.Furnished] {c : Calls} (obeys : c.Obeys law)
    (peeks : ∀ id, (c.peek id).Obeys law) {α : Type} {run : Run α} (client : Client c run) : run.Obeys law := by
  induction client with
  | pure a => exact obeys_pure a
  | fail fault => exact obeys_fail fault
  | read unseeing => exact obeys_view unseeing
  | bind _ _ ih ih' => exact ih.bind ih'
  | handle _ _ ih ih' => exact ih.onFault ih'
  | install v => exact obeys_install v
  | updateList id f => exact Law.Furnished.updateList id f
  | newIterator cursor noStream => exact obeys_newCursor noStream
  | newMeter => exact Law.Furnished.newMeter
  | newSource source => exact Law.Furnished.newSource source
  | newKey key => exact Law.Furnished.newKey key
  | newStep step => exact Law.Furnished.newStep step
  | newFault object => exact Law.Furnished.newFault object
  | newAbstract multiValue => exact obeys_newAbstract multiValue
  | newScripted cursor multi => exact Law.Makes.newSequence _ _
  | newIterable data multiValue => exact obeys_newIterable data multiValue
  | newProduced factory multiValue size => exact obeys_newProduced factory multiValue size
  | toSequence data multiValue => exact obeys_toSequence data multiValue
  | newDistinct supply key limit => exact obeys.toBuilds.newDistinct supply key limit
  | newDistinctStep key limit => exact obeys_newDistinctStep Law.Furnished.newStep key limit
  | newPipeline steps input multiValue => exact obeys_newPipeline steps input multiValue
  | join left right => exact obeys_join left right
  | joinThen first second => exact obeys_joinThen first second
  | withInput v data multiValue => exact obeys_withInput v data multiValue
  | next id => exact obeys.next id
  | peek id => exact peeks id
  | rewind id => exact obeys.rewind id
  | size id => exact obeys.size id
  | isMulti id => exact obeys.isMulti id
  | apply step supply => exact obeys.apply step supply
  | force id => exact obeys.force id
  | collect id input => exact obeys.collect id input
  | stream pipeline input => exact Law.Furnished.newStream pipeline input
  | advance id => exact obeys.advance id
  | close id => exact obeys_closeCursor id
  | listOf v => exact obeys.listOf v

/-- A client obeys a law if peeking does, and all that it asks and does besides. -/
theorem Client.obeys {law : Law} [law.Public] {n : Nat} {α : Type} {run : Run α}
    (peeks : ∀ id, ((calls n).peek id).Obeys law) (client : Client (calls n) run) : run.Obeys law :=
  client.obeys_of (Calls.obeys_calls law Law.Public.keepOutput n) peeks

end FirstSeen
