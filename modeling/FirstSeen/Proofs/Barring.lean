import FirstSeen.Proofs.Programs
import Mathlib.Logic.Function.Basic

/-!
# Barred calls

Whether a call of some sort happens in a run is told by operations that bar it: they do what the operations do, but run out
of fuel, which nothing handles, as soon as a call of this sort comes to its end. So a run that ends with the operations and
not with the barred ones is one in which such a call happens.

Calls of one sequence are barred here by what the sequence was like before and by how they end. The operations that are
*orderly* for a sequence bar handing out its elements and taking it back while an element of it is being handed out.
-/

set_option autoImplicit false

namespace FirstSeen

namespace Run

variable {α : Type}

/-- A run that is out of fuel if it ends in a way that is barred. -/
def barring (bars : Store → Except Halt α → Bool) (run : Run α) : Run α :=
  ExceptT.mk fun store => if bars store (run.from? store).1 then (.error .outOfFuel, store) else run.from? store

theorem from?_barring (bars : Store → Except Halt α → Bool) (run : Run α) (store : Store) :
    (barring bars run).from? store =
      if bars store (run.from? store).1 then (.error .outOfFuel, store) else run.from? store := rfl

/-- Barring changes nothing for what is not barred. -/
theorem within_barring (bars : Store → Except Halt α → Bool) {run wider : Run α} (within : run.Within wider) :
    (barring bars run).Within wider := by
  intro store
  rw [from?_barring]
  split
  · exact .inl rfl
  · exact within store

end Run

/-- What is barred of the calls of a sequence: handing out elements, by the sequence before and how that ends, and taking the
sequence back, by how that ends. -/
structure Bar where
  next : SequenceState → Except Halt Value → Bool := fun _ _ => false
  rewind : Except Halt Unit → Bool := fun _ => false

namespace Calls

open Run

/-- Operations with others in the place of handing out the elements of one sequence and taking it back. -/
def instead (c : Calls) (id : SequenceId) (next : Run Value) (rewind : Run Unit) : Calls :=
  { c with next := Function.update c.next id next, rewind := Function.update c.rewind id rewind }

/-- The operations with at most so many nested calls, where some calls of one sequence are barred. -/
def barred (bar : Bar) (id : SequenceId) : Nat → Calls
  | 0 => .refused
  | n + 1 =>
    (barred bar id n).deeper.instead id
      (barring (fun store => bar.next (store.sequence id)) ((barred bar id n).nextWith id))
      (barring (fun _ => bar.rewind) ((barred bar id n).rewindWith id))

/-- The operations with at most so many nested calls, where one sequence neither hands out elements nor is taken back. -/
def sparing (id : SequenceId) : Nat → Calls
  | 0 => .refused
  | n + 1 => (sparing id n).deeper.instead id (throw .outOfFuel) (throw .outOfFuel)

/-- The operations with at most so many nested calls, where one sequence neither hands out an element nor is taken back
while an element of it is being handed out. -/
def orderly (id : SequenceId) : Nat → Calls
  | 0 => .refused
  | n + 1 =>
    (orderly id n).deeper.instead id ((sparing id n).nextWith id) ((orderly id n).rewindWith id)

variable {α : Type} {id : SequenceId}

/-- Whether, in what is asked, one sequence neither hands out an element nor is taken back while an element of it is being
handed out. -/
def IsOrderly (id : SequenceId) (operation : Calls → Run α) (n : Nat) (store : Store) : Prop :=
  ((operation (orderly id n)).from? store).1 ≠ .error .outOfFuel

/-! ## What is not barred ends as before -/

theorem Within.deeper {c wider : Calls} (within : c.Within wider) : c.deeper.Within wider.deeper where
  next := within.nextWith
  pull := within.pullWith
  rewind := within.rewindWith
  isMulti := within.isMultiWith
  size := within.sizeWith
  apply := within.applyWith
  advance := within.advanceWith
  gather := within.gatherWith

theorem Within.instead {c wider : Calls} (within : c.Within wider) {next : Run Value} {rewind : Run Unit}
    (hands : next.Within (wider.next id)) (back : rewind.Within (wider.rewind id)) :
    (c.instead id next rewind).Within wider :=
  { within with
    next := fun other => by
      by_cases same : other = id
      · subst same
        simpa [Calls.instead] using hands
      · simpa [Calls.instead, same] using within.next other
    rewind := fun other => by
      by_cases same : other = id
      · subst same
        simpa [Calls.instead] using back
      · simpa [Calls.instead, same] using within.rewind other }

theorem within_refused (c : Calls) : Calls.refused.Within c := by
  constructor <;> intros <;> exact within_outOfFuel _

theorem within_sparing (id : SequenceId) (n : Nat) : (sparing id n).Within (calls n) := by
  induction n with
  | zero => exact within_refused _
  | succ n ih => exact ih.deeper.instead (within_outOfFuel _) (within_outOfFuel _)

theorem within_orderly (id : SequenceId) (n : Nat) : (orderly id n).Within (calls n) := by
  induction n with
  | zero => exact within_refused _
  | succ n ih => exact ih.deeper.instead ((within_sparing id n).nextWith id) (ih.rewindWith id)

/-- What a program leaves in order is what it leaves with orderly operations. -/
theorem IsOrderly.leaves {operation : Calls → Run α} (program : Program operation) {n : Nat} {store : Store}
    (orderly : IsOrderly id operation n store) :
    (operation (calls n)).from? store = (operation (Calls.orderly id n)).from? store :=
  (program.widens _ _ (within_orderly id n) store).resolve_left orderly

/-- What comes first in what is in order is in order. -/
theorem IsOrderly.first {β : Type} {operation : Calls → Run α} {next : α → Calls → Run β} {n : Nat} {store : Store}
    (inOrder : IsOrderly id (fun c => operation c >>= fun a => next a c) n store) : IsOrderly id operation n store :=
  fun spent => inOrder (halts_bind spent)

/-- What comes then is in order as well. -/
theorem IsOrderly.rest {β : Type} {operation : Calls → Run α} {next : α → Calls → Run β} (program : Program operation)
    {n : Nat} {store left : Store} {a : α}
    (inOrder : IsOrderly id (fun c => operation c >>= fun a => next a c) n store)
    (ends : (operation (calls n)).from? store = (.ok a, left)) : IsOrderly id (next a) n left := by
  intro spent
  have same := inOrder.first.leaves program
  refine inOrder ?_
  change ((operation (Calls.orderly id n) >>= fun a => next a (Calls.orderly id n)).from? store).1 = _
  rw [from?_bind_ok (same.symm.trans ends)]
  exact spent

/-! ## Laws -/

section

variable {law : Law} [law.Ambient] (keeping : ∀ other output, (keepOutput other output).Obeys law)
  (others : ∀ other, other ≠ id → law.Serves other) (fills : law.Fills id)
include keeping others fills

/-- Operations obey a law, with others in one place that do. -/
theorem Obeys.deeper_instead {c : Calls} (obeys : c.Obeys law) {next : Run Value} {rewind : Run Unit}
    (hands : next.Obeys law) (back : rewind.Obeys law) : (c.deeper.instead id next rewind).Obeys law := by
  refine obeys.deeper (fun other => ?_) (obeys.toBuilds.outputOf keeping) (fun other => ?_) fun other => ?_ <;>
    by_cases same : other = id
  · exact same ▸ fills
  · exact (others other same).toFills
  · subst same
    simpa using hands
  · simpa [same, Calls.deeper] using (others other same).next obeys
  · subst same
    simpa using back
  · simpa [same, Calls.deeper] using (others other same).rewind obeys

/-- All operations that spare a sequence obey a law, whatever the sequence does. -/
theorem obeys_sparing (n : Nat) : (sparing id n).Obeys law := by
  induction n with
  | zero => exact obeys_refused
  | succ n ih => exact ih.deeper_instead keeping others fills obeys_outOfFuel obeys_outOfFuel

/-- All orderly operations obey a law, if handing out an element does where nothing else is done to the sequence. -/
theorem obeys_orderly (hands : ∀ n, (sparing id n).Obeys law → ((sparing id n).nextWith id).Obeys law)
    (back : ∀ {c : Calls}, c.Obeys law → (c.rewindWith id).Obeys law) (n : Nat) : (orderly id n).Obeys law := by
  induction n with
  | zero => exact obeys_refused
  | succ n ih =>
    exact ih.deeper_instead keeping others fills (hands n (obeys_sparing keeping others fills n)) (back ih)

end

end Calls

end FirstSeen
