import FirstSeen.Proofs.Accounting
import FirstSeen.Proofs.Forgetting

/-!
# When a sequence turns

A sequence has two flags and may have an element that waits. Which calls can change these, whatever else happens: the
sequence becomes started only where an element is pulled for it, exhausted only where handing out an element signals the
end, and neither flag is taken back, nor an element that waits, except where the sequence is taken back or hands the element
out. So a sequence that is exhausted, or has an element that waits, was started, and no element waits at the end.

The last needs that nothing is done to the sequence while an element of it is being handed out. A stage that is spread for
its own key function meets its end first, and then has an element that waits.
-/

set_option autoImplicit false

namespace FirstSeen

open Run Store

namespace SequenceState

/-- Whether the flags and the element that waits go together: what is exhausted was started, and an element waits only
between the beginning and the end. -/
structure Ordered (state : SequenceState) : Prop where
  exhausted : state.exhausted = true → state.started = true
  awaited : state.peeked.isSome = true → state.started = true ∧ state.exhausted = false

/-- Whether the sequence is between its beginning and its end, with no element that waits. -/
structure Underway (state : SequenceState) : Prop where
  started : state.started = true
  unended : state.exhausted = false
  unawaited : state.peeked = none

theorem Underway.ordered {state : SequenceState} (underway : state.Underway) : state.Ordered :=
  ⟨fun _ => underway.started, fun _ => ⟨underway.started, underway.unended⟩⟩

/-- A property of a sequence that does not depend on its body, and that a new one has if it is had by default. -/
class Bodiless (Q : SequenceState → Prop) : Prop where
  body : ∀ {state : SequenceState} (body : Body), Q state → Q { state with body := body }
  fresh : ∀ (body : Body) (multi : Bool), Q default → Q { body := body, multiValue := multi }

instance : Bodiless Ordered where
  body _ ordered := ⟨ordered.exhausted, ordered.awaited⟩
  fresh _ _ _ := ⟨nofun, nofun⟩

instance : Bodiless Underway where
  body _ underway := ⟨underway.started, underway.unended, underway.unawaited⟩
  fresh _ _ underway := nomatch underway.started

instance : Bodiless fun _ => True where
  body _ has := has
  fresh _ _ has := has

instance (b : Bool) : Bodiless (·.started = b) where
  body _ has := has
  fresh _ _ has := has

instance (b : Bool) : Bodiless (·.exhausted = b) where
  body _ has := has
  fresh _ _ has := has

instance (v : Value) : Bodiless (·.peeked = some v) where
  body _ has := has
  fresh _ _ has := nomatch has

end SequenceState

/-- The account that a property is not lost. -/
def Account.lasting (Q : SequenceState → Prop) : Account := fun state _ next => Q state → Q next

instance (Q : SequenceState → Prop) [SequenceState.Bodiless Q] (id : SequenceId) : (Account.lasting Q).Bodiless id where
  refl _ has := has
  trans first second has := second (first has)
  aside _ _ _ has := has
  fresh body multi := SequenceState.Bodiless.fresh body multi
  output _ _ := SequenceState.Bodiless.body _
  body _ _ := SequenceState.Bodiless.body _
  noted _ _ _ _ _ has := has

namespace Bar

/-- Bars pulling an element: no element waits and the end was not met. -/
def pulling : Bar where
  next state _ := state.peeked.isNone && !state.exhausted

/-- Bars a signal of the end. -/
def ending : Bar where
  next _ ended :=
    match ended with
    | .error (.fault fault) => fault.isEnd
    | _ => false

/-- Bars taking the sequence back, where that succeeds. -/
def returning : Bar where
  rewind ended := ended.isOk

end Bar

namespace Calls

variable {c : Calls} {id : SequenceId} {Q : SequenceState → Prop} [SequenceState.Bodiless Q]

/-! ## Single calls -/

variable {α : Type} {operation : Calls → Run α}

/-- What is not there cannot be pulled from. -/
theorem pullWith_outside {store : Store} (outside : ¬id.index < store.sequences.size) :
    (c.pullWith id).from? store = (.error (.fault .notImplemented), store) := by
  rw [pullWith, from?_bind_ok (from?_sequence ..), sequence_outside outside]
  rfl

theorem obeys_lasting_sparing (Q : SequenceState → Prop) [SequenceState.Bodiless Q] (id : SequenceId) (n : Nat) :
    (sparing id n).Obeys (.keeping (Accords (.lasting Q) id)) :=
  @obeys_sparing id (.keeping (Accords (.lasting Q) id)) _ accords_keepOutput
    (fun _ apart => (accords_moves apart).serves) accords_bodies.fills n

end Calls

end FirstSeen
