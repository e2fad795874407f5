import FirstSeen.Proofs.Barring
import FirstSeen.Proofs.Tower.Building

/-!
# Accounts of one sequence

An *account* of a sequence says where the sequence may be after something that was told, given where it was before. An
account that is open for what happens elsewhere is kept by all that is done to other objects, so only the changes to the
sequence itself have to be looked at: an element is handed out, a pass begins, ends or begins again, a key is recorded.
-/

set_option autoImplicit false

namespace FirstSeen

/-- What may become of a sequence while notices are told. -/
abbrev Account := SequenceState → List Notice → SequenceState → Prop

/-- An account that one thing after another keeps if each does, and what happens elsewhere. -/
class Account.Open (A : Account) (id : SequenceId) : Prop where
  refl : ∀ state, A state [] state
  trans : ∀ {state next last : SequenceState} {told more : List Notice}, A state told next → A next more last →
    A state (told ++ more) last
  aside : ∀ (state : SequenceState) (notice : Notice), notice.subject ≠ id → A state [notice] state
  fresh : ∀ (body : Body) (multi : Bool), A default [] { body := body, multiValue := multi }
  output : ∀ {state : SequenceState} {steps : ListId} {input output : Value} (output' : Value),
    state.body = .pipeline steps input output → A state [] { state with body := .pipeline steps input output' }

/-- An account that does not look at bodies, nor at what recording keys has to tell. -/
class Account.Bodiless (A : Account) (id : SequenceId) : Prop extends A.Open id where
  body : ∀ (state : SequenceState) (body : Body), A state [] { state with body := body }
  noted : ∀ (state : SequenceState) (notice : Notice), notice.subject = id → (∀ kind, notice ≠ .exhausted id kind) →
    (∀ kind, notice ≠ .rewound id kind) → A state [notice] state

namespace Store

variable {A : Account} {id : SequenceId}

/-- Whether an account of a sequence holds of what happened between two stores. -/
structure Accords (A : Account) (id : SequenceId) (before after : Store) : Prop where
  size : before.sequences.size ≤ after.sequences.size
  told : ∃ told, after.journal.toList = before.journal.toList ++ told ∧
    A (before.sequence id) told (after.sequence id)

variable [A.Open id]

instance : IsPreorder Store (Accords A id) where
  refl store := ⟨Nat.le_refl _, [], (List.append_nil _).symm, Account.Open.refl id _⟩
  trans first second third h k := by
    obtain ⟨told, journal, holds⟩ := h.told
    obtain ⟨more, journal', holds'⟩ := k.told
    exact ⟨Nat.le_trans h.size k.size, told ++ more, by rw [journal', journal, List.append_assoc],
      Account.Open.trans id holds holds'⟩

/-- An account holds where neither sequences nor the journal changed. -/
theorem Accords.of_sequences {before after : Store} (same : after.sequences = before.sequences)
    (journal : after.journal = before.journal) : Accords A id before after := by
  refine ⟨Nat.le_of_eq (by rw [same]), [], by rw [journal, List.append_nil], ?_⟩
  simpa only [Store.sequence, same] using Account.Open.refl id (before.sequence id)

/-- An account holds where another sequence changed. -/
theorem Accords.of_other {store : Store} {other : SequenceId} (apart : other ≠ id)
    (f : SequenceState → SequenceState) : Accords A id store (store.updated other f) := by
  refine ⟨by simp, [], (List.append_nil _).symm, ?_⟩
  rw [sequence_updated_ne apart.symm]
  exact Account.Open.refl id _

/-- An account holds where the sequence changed in a way that it allows. -/
theorem Accords.of_updated (store : Store) {f : SequenceState → SequenceState}
    (allowed : A (store.sequence id) [] (f (store.sequence id))) : Accords A id store (store.updated id f) := by
  refine ⟨by simp, [], (List.append_nil _).symm, ?_⟩
  by_cases inside : id.index < store.sequences.size
  · rwa [sequence_updated inside]
  · have absent : (store.updated id f).sequence id = store.sequence id := by
      rw [sequence_outside inside, sequence_outside (by simpa using inside)]
    rw [absent]
    exact Account.Open.refl id _

omit [A.Open id] in
/-- An account holds where something was told that it allows. -/
theorem Accords.of_told (store : Store) {notice : Notice}
    (allowed : A (store.sequence id) [notice] (store.sequence id)) :
    Accords A id store { store with journal := store.journal.push notice } :=
  ⟨Nat.le_refl _, [notice], Array.toList_push, allowed⟩

/-- An account holds where a sequence was added. -/
theorem Accords.of_joined (store : Store) (body : Body) (multi : Bool) :
    Accords A id store (store.joined { body := body, multiValue := multi }) := by
  refine ⟨by simp [joined], [], (List.append_nil _).symm, ?_⟩
  by_cases inside : id.index < store.sequences.size
  · rw [sequence_joined inside]
    exact Account.Open.refl id _
  · rw [sequence_outside inside]
    by_cases new : id.index = store.sequences.size
    · obtain rfl : id = ⟨store.sequences.size⟩ := congrArg SequenceId.mk new
      rw [sequence_joined_new]
      exact Account.Open.fresh ⟨store.sequences.size⟩ body multi
    · rw [sequence_outside (by simp [joined]; omega)]
      exact Account.Open.refl id _

end Store

namespace Run

open Store

variable {A : Account} {id : SequenceId}

section

variable [A.Open id]

instance : (Law.keeping (Accords A id)).Furnished where
  newSequence body multi store := .of_joined store body multi
  newList _ _ := .of_sequences rfl rfl
  newCursor _ _ _ := .of_sequences rfl rfl
  setCursor _ _ _ _ := .of_sequences rfl rfl
  looked _ kept := kept
  entered there _ same kept := by
    rw [Law.keeping, from?_bind_ok (from?_cursor ..), there, same]
    exact Keeps.bind (fun _ => .of_sequences rfl rfl) (fun _ => kept) _
  newDatum _ _ := .of_sequences rfl rfl
  counted _ _ _ _ := .of_sequences rfl rfl
  asked _ _ _ := .of_sequences rfl rfl
  newStream _ _ _ := .of_sequences rfl rfl
  updateList _ _ _ := .of_sequences rfl rfl
  newMeter _ := .of_sequences rfl rfl
  newSource _ _ := .of_sequences rfl rfl
  newKey _ _ := .of_sequences rfl rfl
  newStep _ _ := .of_sequences rfl rfl
  newFault _ _ := .of_sequences rfl rfl

theorem accords_updateSequence_ne {other : SequenceId} (apart : other ≠ id) (f : SequenceState → SequenceState) :
    (updateSequence other f).Keeps (Accords A id) := fun _ => .of_other apart f

omit [A.Open id] in
theorem accords_tell {notice : Notice} (allowed : ∀ state, A state [notice] state) :
    (tell notice).Keeps (Accords A id) := fun store => .of_told store (allowed _)

/-- An account of one sequence is open for what is done to others. -/
theorem accords_moves {other : SequenceId} (apart : other ≠ id) : (Law.keeping (Accords A id)).Moves other where
  body _ _ _ _ _ := .of_other apart _
  noted notice about _ _ := accords_tell fun state => Account.Open.aside state notice (about ▸ apart)
  handed := accords_updateSequence_ne apart _
  begun := accords_updateSequence_ne apart _
  ended := accords_updateSequence_ne apart _
  toldEnd _ := accords_tell fun state => Account.Open.aside state _ apart
  restarted := Keeps.bind (accords_updateSequence_ne apart _) fun _ => (keeps_view _).bind fun _ =>
    accords_tell fun state => Account.Open.aside state _ apart

/-- Building the output of a pipeline is open in every account. -/
theorem accords_keepOutput (other : SequenceId) (output : Value) :
    (Calls.keepOutput other output).Keeps (Accords A id) := by
  intro store
  by_cases same : other = id
  · subst same
    refine .of_updated store ?_
    split
    · rename_i form
      exact Account.Open.output other output form
    · exact Account.Open.refl other _
  · exact .of_other same _

end

/-- Bodies do not matter to an account that does not look at them. -/
theorem accords_bodies [A.Bodiless id] : (Law.keeping (Accords A id)).Bodies id where
  body _ _ _ _ _ := .of_updated _ (Account.Bodiless.body id _ _)
  noted notice about live untold := accords_tell fun state => Account.Bodiless.noted state notice about live untold

end Run

end FirstSeen
