import FirstSeen.Proofs.Peeking
import FirstSeen.Proofs.Using

/-!
# Ends are final

A sequence that met an end, when it was asked for an element or peeked at, is at its end from then on, whatever clients do
to it and to the objects that it draws from, until it is begun again. It says so without asking anyone: neither it nor
anything else in the store changes when it is asked again.

The proof follows one property of the sequence: that it is marked as exhausted and no element waits. Nothing but beginning
the sequence again takes the mark away, and only peeking makes an element wait, which fails here.
-/

set_option autoImplicit false

namespace FirstSeen

open Run Store

variable {Q : SequenceState → Prop} {id : SequenceId}

instance [SequenceState.Lasting Q] : (Law.keeping (Lasts Q id)).Public where
  keepOutput := lasts_keepOutput
  newStream _ _ _ := .of_sequences rfl rfl
  updateList _ _ _ := .of_sequences rfl rfl
  newMeter _ := .of_sequences rfl rfl
  newSource _ _ := .of_sequences rfl rfl
  newKey _ _ := .of_sequences rfl rfl
  newStep _ _ := .of_sequences rfl rfl
  newFault _ _ := .of_sequences rfl rfl

namespace Calls

end Calls

end FirstSeen
