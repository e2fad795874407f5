import FirstSeen.Proofs.Deepening
import FirstSeen.Proofs.History.Session

/-!
# What a session comes to

What is seen of operations in turn does not depend on the depth of calls, once that is enough for all of them. So a session
*concludes* with the outcomes that it has at some depth, or with none at all if an operation never ends.
-/

set_option autoImplicit false

namespace FirstSeen

/-- An operation on a pipeline, unless it runs out of fuel, ends as with wider calls. -/
theorem Calls.Within.op {c wider : Calls} (within : c.Within wider) (p : SequenceId) (streams : List CursorId) (op : Op) :
    (op.run c p streams).Within (op.run wider p streams) := by
  cases op with
  | next => exact (within.next p).bind fun _ => Run.within_refl _
  | peek =>
    have peeks : (c.peek p).Within (wider.peek p) := by
      refine Run.within_bind fun state => ?_
      split
      · exact Run.within_refl _
      · exact (within.next p).bind fun _ => Run.within_refl _
    exact peeks.bind fun _ => Run.within_refl _
  | rewind => exact (within.rewind p).bind fun _ => Run.within_refl _
  | force => exact (within.force p).bind fun _ => Run.within_refl _
  | collect => exact (within.collect p .null).bind fun _ => Run.within_refl _
  | size => exact (within.size p).bind fun _ => Run.within_refl _
  | multiValue => exact (within.isMulti p).bind fun _ => Run.within_refl _
  | stream => exact Run.within_refl _
  | pull i =>
    rw [Op.run, Op.run]
    split
    · exact (within.advance _).bind fun _ => Run.within_refl _
    · exact Run.within_refl _
  | drain i =>
    rw [Op.run, Op.run]
    split
    · exact (within.listOf _).bind fun _ => Run.within_refl _
    · exact Run.within_refl _

namespace Session

variable {n m : Nat} {p q : SequenceId} {session left other : Session}

/-- An operation that ends at one depth of calls ends so at any greater depth. -/
theorem perform_deepen {op : Op} {seen : Outcome} (deep : n ≤ m) (ends : session.perform n p op = some (seen, left)) :
    session.perform m p op = some (seen, left) := by
  have within := (Calls.within_calls deep).op p session.streams op session.store
  rw [perform] at ends ⊢
  rcases within with spent | same
  · rcases ran : (op.run (calls n) p session.streams).from? session.store with ⟨ended, after⟩
    rw [ran] at spent ends
    obtain rfl : ended = .error .outOfFuel := spent
    cases ends
  · rwa [same]

/-- Operations that end at one depth of calls end so at any greater depth. -/
theorem play_deepen {ops : List Op} {seen : List Outcome} (deep : n ≤ m)
    (ends : session.play n p ops = some (seen, left)) : session.play m p ops = some (seen, left) := by
  induction ops generalizing session seen left with
  | nil => exact ends
  | cons op rest ih =>
    rw [play] at ends ⊢
    rcases performed : session.perform n p op with _ | ⟨first, between⟩
    · simp [performed] at ends
    · rcases played : between.play n p rest with _ | ⟨others, last⟩
      · simp [performed, played] at ends
      · simp only [performed, played, Option.some.injEq] at ends
        rw [perform_deepen deep performed]
        simp only [ih played]
        exact congrArg some ends

/-- Whether operations in turn have these outcomes, given enough depth of calls. -/
def Concludes (session : Session) (p : SequenceId) (ops : List Op) (outcomes : List Outcome) : Prop :=
  ∃ n, (session.play n p ops).map Prod.fst = some outcomes

/-- Sessions of which the same is seen, once the depth of calls is enough, conclude alike. -/
theorem concludes_congr {ops : List Op} {outcomes : List Outcome}
    (same : ∀ m, n ≤ m → (session.play m p ops).map Prod.fst = (other.play m q ops).map Prod.fst) :
    session.Concludes p ops outcomes ↔ other.Concludes q ops outcomes := by
  have deeper : ∀ {session : Session} {p : SequenceId} {k m : Nat}, k ≤ m →
      (session.play k p ops).map Prod.fst = some outcomes → (session.play m p ops).map Prod.fst = some outcomes := by
    intro session p k m deep ends
    obtain ⟨⟨seen, left⟩, played, rfl⟩ := Option.map_eq_some_iff.mp ends
    rw [play_deepen deep played]
    rfl
  constructor
  · rintro ⟨k, ends⟩
    exact ⟨max n k, same _ (Nat.le_max_left ..) ▸ deeper (Nat.le_max_right n k) ends⟩
  · rintro ⟨k, ends⟩
    exact ⟨max n k, (same _ (Nat.le_max_left ..)).symm ▸ deeper (Nat.le_max_right n k) ends⟩

end Session

end FirstSeen
