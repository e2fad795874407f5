import FirstSeen.Proofs.Obeying
import FirstSeen.Proofs.Tower.Building

/-!
# What lasts of a sequence

Some properties of a sequence last through whatever is done, until the sequence is begun again: that it met its end and
handed out what was peeked at, for one. That no element waits to be handed out lasts even then, since only peeking makes
one wait.

Whether a sequence was begun again is told in the journal, once it was.
-/

set_option autoImplicit false

namespace FirstSeen

/-- Whether a notice tells that a sequence was begun again. -/
def Notice.tellsRewound (id : SequenceId) : Notice → Bool
  | rewound other _ => other = id
  | _ => false

namespace SequenceState

/-- A sequence that was begun again. -/
def restarted (state : SequenceState) : SequenceState :=
  { state with started := false, exhausted := false, peeked := none }

/-- A property that a sequence does not lose by being asked, and that a new one has if it is had by default. -/
class Lasting (Q : SequenceState → Prop) : Prop where
  handed : ∀ {state : SequenceState}, Q state → Q { state with peeked := none }
  begun : ∀ {state : SequenceState}, Q state → Q { state with started := true }
  ended : ∀ {state : SequenceState}, Q state → Q { state with exhausted := true }
  body : ∀ {state : SequenceState} (body : Body), Q state → Q { state with body := body }
  fresh : ∀ (body : Body) (multi : Bool), Q default → Q { body := body, multiValue := multi }

/-- Whether no element waits to be handed out. -/
def Unawaited (state : SequenceState) : Prop := state.peeked = none

/-- Whether the end was met and no element waits to be handed out. -/
def Over (state : SequenceState) : Prop := state.exhausted = true ∧ state.peeked = none

instance : Lasting Unawaited where
  handed _ := rfl
  begun unawaited := unawaited
  ended unawaited := unawaited
  body _ unawaited := unawaited
  fresh _ _ _ := rfl

instance : Lasting Over where
  handed isOver := ⟨isOver.1, rfl⟩
  begun isOver := isOver
  ended isOver := ⟨rfl, isOver.2⟩
  body _ isOver := isOver
  fresh _ _ isOver := nomatch isOver.1

end SequenceState

namespace Store

variable {Q : SequenceState → Prop} {id : SequenceId}

/-- How often a sequence was begun again. -/
def rewinds (store : Store) (id : SequenceId) : Nat := store.journal.countP (Notice.tellsRewound id)

/-- A property of a sequence lasts from one store to another, unless the sequence was begun again and loses it by
that. -/
structure Lasts (Q : SequenceState → Prop) (id : SequenceId) (before after : Store) : Prop where
  size : before.sequences.size ≤ after.sequences.size
  rewinds : before.rewinds id ≤ after.rewinds id
  lasts : (after.rewinds id = before.rewinds id ∨ ∀ state, Q state → Q state.restarted) → Q (before.sequence id) →
    Q (after.sequence id)

instance : IsPreorder Store (Lasts Q id) where
  refl store := ⟨Nat.le_refl _, Nat.le_refl _, fun _ has => has⟩
  trans first second third h k := by
    refine ⟨Nat.le_trans h.size k.size, Nat.le_trans h.rewinds k.rewinds, fun barring has => ?_⟩
    rcases barring with same | even
    · have left := h.rewinds
      have right := k.rewinds
      exact k.lasts (.inl (by omega)) (h.lasts (.inl (by omega)) has)
    · exact k.lasts (.inr even) (h.lasts (.inr even) has)

/-- A property of a sequence lasts where no sequence changed. -/
theorem Lasts.of_sequences {before after : Store} (same : after.sequences = before.sequences)
    (told : after.rewinds id = before.rewinds id) : Lasts Q id before after :=
  ⟨Nat.le_of_eq (by rw [same]), Nat.le_of_eq told.symm, fun _ has => by
    simpa only [Store.sequence, same] using has⟩

/-- A property of a sequence lasts where a sequence changed in a way that does not touch it. -/
theorem Lasts.of_updated (store : Store) (other : SequenceId) {f : SequenceState → SequenceState}
    (kept : ∀ state, Q state → Q (f state)) : Lasts Q id store (store.updated other f) := by
  refine ⟨by simp, Nat.le_refl _, fun _ has => ?_⟩
  by_cases same : id = other
  · subst same
    by_cases inside : id.index < store.sequences.size
    · rw [sequence_updated inside]
      exact kept _ has
    · have absent : (store.updated id f).sequence id = store.sequence id := by
        simp [Store.sequence, updated, Array.getD_eq_getD_getElem?, Nat.le_of_not_lt inside]
      rw [absent]
      exact has
  · rw [sequence_updated_ne same]
    exact has

/-- A property of a sequence lasts where a sequence was added. -/
theorem Lasts.of_joined [SequenceState.Lasting Q] (store : Store) (body : Body) (multi : Bool) :
    Lasts Q id store (store.joined { body := body, multiValue := multi }) := by
  refine ⟨by simp [joined], Nat.le_refl _, fun _ has => ?_⟩
  by_cases inside : id.index < store.sequences.size
  · rw [sequence_joined inside]
    exact has
  · have absent : store.sequence id = default := sequence_outside inside
    by_cases new : id.index = store.sequences.size
    · have here : id = ⟨store.sequences.size⟩ := by
        cases id
        exact congrArg SequenceId.mk new
      rw [here, sequence_joined_new]
      exact SequenceState.Lasting.fresh body multi (absent ▸ has)
    · have outside : store.sequences.size < id.index := by omega
      have absent' : (store.joined { body := body, multiValue := multi }).sequence id = default :=
        sequence_outside (by simp [joined]; omega)
      rw [absent', ← absent]
      exact has

/-- A notice other than that a sequence was begun again is none that counts. -/
theorem rewinds_push {store : Store} {notice : Notice} (apart : notice.tellsRewound id = false) :
    ({ store with journal := store.journal.push notice } : Store).rewinds id = store.rewinds id := by
  simp [Store.rewinds, apart]

end Store

namespace Run

open Store

variable {Q : SequenceState → Prop} {id : SequenceId}

theorem lasts_updateSequence (other : SequenceId) {f : SequenceState → SequenceState}
    (kept : ∀ state, Q state → Q (f state)) : (updateSequence other f).Keeps (Lasts Q id) := fun store =>
  .of_updated store other kept

/-- Beginning a sequence again is told, and is the one change that may take its property away. -/
theorem lasts_restart (other : SequenceId) : (restart other).Keeps (Lasts Q id) := by
  intro store
  let begun := store.updated other SequenceState.restarted
  let told := begun.journal.push (.rewound other (begun.sequence other).body.kind)
  change Lasts Q id store { begun with journal := told }
  by_cases same : other = id
  · subst same
    have more : ({ begun with journal := told } : Store).rewinds other = store.rewinds other + 1 := by
      simp [Store.rewinds, told, begun, Notice.tellsRewound, updated]
    refine ⟨by simp [begun], by omega, fun barring has => ?_⟩
    rcases barring with untold | even
    · omega
    · exact (Lasts.of_updated store other even).lasts (.inr even) has
  · have untold : ({ begun with journal := told } : Store).rewinds id = store.rewinds id := by
      simp [Store.rewinds, told, begun, Notice.tellsRewound, updated, same]
    refine ⟨by simp [begun], Nat.le_of_eq untold.symm, fun _ has => ?_⟩
    change Q (begun.sequence id)
    rw [sequence_updated_ne fun same' => same same'.symm]
    exact has

instance [SequenceState.Lasting Q] : (Law.keeping (Lasts Q id)).Elementary where
  newSequence body multi store := .of_joined store body multi
  newList _ _ := .of_sequences rfl rfl
  handed other := lasts_updateSequence other fun _ => SequenceState.Lasting.handed
  begun other := lasts_updateSequence other fun _ => SequenceState.Lasting.begun
  ended other := lasts_updateSequence other fun _ => SequenceState.Lasting.ended
  restarted := lasts_restart
  body _ _ _ _ _ := .of_updated _ _ fun _ => SequenceState.Lasting.body _
  told notice apart store := by
    refine .of_sequences rfl (rewinds_push ?_)
    cases notice with
    | rewound other kind => exact absurd rfl (apart other kind)
    | _ => rfl
  newCursor _ _ _ := .of_sequences rfl rfl
  setCursor _ _ _ _ := .of_sequences rfl rfl
  looked _ kept := kept
  entered there _ same kept := by
    rw [Law.keeping, from?_bind_ok (from?_cursor ..), there, same]
    exact Keeps.bind (fun _ => .of_sequences rfl rfl) (fun _ => kept) _
  newDatum _ _ := .of_sequences rfl rfl
  counted _ _ _ _ := .of_sequences rfl rfl
  asked _ _ _ := .of_sequences rfl rfl

theorem lasts_keepOutput [SequenceState.Lasting Q] (other : SequenceId) (output : Value) :
    (Calls.keepOutput other output).Keeps (Lasts Q id) := by
  refine lasts_updateSequence other fun state has => ?_
  split
  · exact SequenceState.Lasting.body _ has
  · exact has

end Run

/-- Whatever operations do, a property of a sequence lasts that is not lost by being asked, unless the sequence is begun
again. -/
theorem Calls.lasts_calls {Q : SequenceState → Prop} [SequenceState.Lasting Q] (id : SequenceId) (n : Nat) :
    (calls n).Obeys (.keeping (Store.Lasts Q id)) :=
  obeys_calls (.keeping (Store.Lasts Q id)) Run.lasts_keepOutput n

end FirstSeen
