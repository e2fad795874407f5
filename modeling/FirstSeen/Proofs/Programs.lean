import FirstSeen.Proofs.Deepening
import FirstSeen.Proofs.Using

/-!
# Programs

A *program* is a client that does not depend on the operations that it is given: what it asks, and what it does with the
answers, is the same whatever answers. So two ways of answering can be compared over all programs, such as one depth of
calls with a greater one, or the operations with others that refuse some calls.

What a client does on its own account it does even when all operations are refused.
-/

set_option autoImplicit false

namespace FirstSeen

open Run

/-- What can be asked of sequences, steps, pipelines and streams. -/
inductive Asked : {α : Type} → (Calls → Run α) → Prop
  | next (id : SequenceId) : Asked (·.next id)
  | peek (id : SequenceId) : Asked (·.peek id)
  | rewind (id : SequenceId) : Asked (·.rewind id)
  | size (id : SequenceId) : Asked (·.size id)
  | isMulti (id : SequenceId) : Asked (·.isMulti id)
  | apply (step supply : Value) : Asked (·.apply step supply)
  | force (id : SequenceId) : Asked (·.force id)
  | collect (id : SequenceId) (input : Value) : Asked (·.collect id input)
  | newDistinct (supply key limit : Value) : Asked (·.newDistinct supply key limit)
  | advance (id : CursorId) : Asked (·.advance id)
  | listOf (v : Value) : Asked (·.listOf v)

/-- A client, whatever the operations are that it is given. -/
inductive Program : {α : Type} → (Calls → Run α) → Prop
  | own {α : Type} {run : Run α} (client : Client .refused run) : Program fun _ => run
  | ask {α : Type} {operation : Calls → Run α} (asked : Asked operation) : Program operation
  | bind {α β : Type} {operation : Calls → Run α} {next : α → Calls → Run β} (first : Program operation)
      (rest : ∀ a, Program (next a)) : Program fun c => operation c >>= fun a => next a c
  | handle {α : Type} {operation : Calls → Run α} {handler : Fault → Calls → Run α} (body : Program operation)
      (handled : ∀ fault, Program (handler fault)) : Program fun c => onFault (operation c) fun fault => handler fault c

variable {α : Type} {operation : Calls → Run α}

/-- What is asked is answered alike by wider operations. -/
theorem Asked.widens (asked : Asked operation) : Calls.Widens operation := by
  intro c wider within
  cases asked with
  | next id => exact within.next id
  | peek id => exact within.peek id
  | rewind id => exact within.rewind id
  | size id => exact within.size id
  | isMulti id => exact within.isMulti id
  | apply step supply => exact within.apply step supply
  | force id => exact within.force id
  | collect id input => exact within.collect id input
  | newDistinct supply key limit => exact within.newDistinct supply key limit
  | advance id => exact within.advance id
  | listOf v => exact within.listOf v

/-- A program ends alike with wider operations. -/
theorem Program.widens (program : Program operation) : Calls.Widens operation := by
  intro c wider within
  induction program with
  | own client => exact within_refl _
  | ask asked => exact asked.widens c wider within
  | bind _ _ ih ih' => exact ih.bind ih'
  | handle _ _ ih ih' => exact ih.onFault ih'

/-- What is asked obeys a law that the operations obey, and peeking. -/
theorem Asked.obeys {law : Law} [law.Ambient] {c : Calls} (obeys : c.Obeys law)
    (peeks : ∀ id, (c.peek id).Obeys law) (asked : Asked operation) : (operation c).Obeys law := by
  cases asked with
  | next id => exact obeys.next id
  | peek id => exact peeks id
  | rewind id => exact obeys.rewind id
  | size id => exact obeys.size id
  | isMulti id => exact obeys.isMulti id
  | apply step supply => exact obeys.apply step supply
  | force id => exact obeys.force id
  | collect id input => exact obeys.collect id input
  | newDistinct supply key limit => exact obeys.toBuilds.newDistinct supply key limit
  | advance id => exact obeys.advance id
  | listOf v => exact obeys.listOf v

/-- A program obeys a law that the operations obey, peeking, and the changes that clients make on their own. -/
theorem Program.obeys {law : Law} [law.Furnished] {c : Calls} (obeys : c.Obeys law)
    (peeks : ∀ id, (c.peek id).Obeys law) (program : Program operation) : (operation c).Obeys law := by
  have refused : ∀ id, (Calls.refused.peek id).Obeys law := fun id => by
    refine (obeys_sequence id).bind fun state => ?_
    split
    · exact obeys_pure _
    · exact obeys_outOfFuel
  induction program with
  | own client => exact client.obeys_of Calls.obeys_refused refused
  | ask asked => exact asked.obeys obeys peeks
  | bind _ _ ih ih' => exact ih.bind ih'
  | handle _ _ ih ih' => exact ih.onFault ih'

end FirstSeen
