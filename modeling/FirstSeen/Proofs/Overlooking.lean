import FirstSeen.Proofs.History.Following
import FirstSeen.Proofs.Using

/-!
# Streams that nobody asks

As long as nobody asks a stream for an element or closes it, it makes no difference whether the stream is still to be begun,
or where else it is: a run that leaves such a stream unbegun ends alike in all cases, and leaves stores that differ in
nothing else.

This is a law that operations and clients obey. They learn the type of an iterator, and how much is left of one over a
range, but where a stream is they learn only by asking or closing it.
-/

set_option autoImplicit false

namespace FirstSeen

open Store

/-- Whether a run from this store overlooks a stream: it asks the stream, or else it ends alike wherever the stream is. A
stream that was begun does not become an unbegun one. -/
structure Run.Overlooks (k : CursorId) (p : SequenceId) (input : Value) {α : Type} (run : Run α) (store : Store) :
    Prop where
  size : store.cursors.size ≤ (run.from? store).2.cursors.size
  begun : ¬(store.cursor k).IsUnbegun → ¬((run.from? store).2.cursor k).IsUnbegun
  alike : store.cursor k = .streaming p input .fresh → ¬((run.from? store).2.cursor k).IsUnbegun ∨
    (run.from? store).2.cursor k = .streaming p input .fresh ∧
      ∀ phase, run.from? (store.withStream k p input phase) =
        ((run.from? store).1, (run.from? store).2.withStream k p input phase)

/-- The law that a stream is overlooked where there is one. -/
def Law.overlooking (k : CursorId) (p : SequenceId) (input : Value) : Law := fun _ run store =>
  k.index < store.cursors.size → run.Overlooks k p input store

namespace Run

variable {α β : Type} {k : CursorId} {p : SequenceId} {input : Value}

/-! ## Putting runs together -/

/-- What changes no iterator and sees none overlooks a stream. -/
theorem overlooks_of_cursors {run : Run α} {store : Store} (same : (run.from? store).2.cursors = store.cursors)
    (alike : ∀ phase, run.from? (store.withStream k p input phase) =
      ((run.from? store).1, (run.from? store).2.withStream k p input phase)) : run.Overlooks k p input store := by
  have here : (run.from? store).2.cursor k = store.cursor k := by rw [Store.cursor, same, Store.cursor]
  exact ⟨Nat.le_of_eq (by rw [same]), fun begun => here ▸ begun, fun fresh => .inr ⟨here.trans fresh, alike⟩⟩

/-- Wherever streams are, readings are the same that do not see them. -/
theorem faded_withStream {store : Store} (fresh : store.cursor k = .streaming p input .fresh) (phase : StreamPhase) :
    (store.withStream k p input phase).faded = store.faded := by
  have same : (store.cursors.modify k.index fun _ => .streaming p input phase).map Cursor.faded =
      store.cursors.map Cursor.faded := by
    ext i inside inside'
    · simp
    · by_cases here : k.index = i
      · subst here
        have there : k.index < store.cursors.size := by simpa using inside'
        have state : store.cursors[k.index] = .streaming p input .fresh := by
          rw [← fresh]
          simp [Store.cursor, Array.getD_eq_getD_getElem?, there]
        simp [Array.getElem_modify, state, Cursor.faded]
      · simp [Array.getElem_modify, here]
  simp only [faded, withStream, same]

theorem overlooks_bind {run : Run α} {next : α → Run β} {store : Store} (first : run.Overlooks k p input store)
    (rest : ∀ a left, run.from? store = (.ok a, left) → (next a).Overlooks k p input left) :
    (run >>= next).Overlooks k p input store := by
  rcases ends : run.from? store with ⟨halt | a, left⟩
  · have whole : (run >>= next).from? store = (.error halt, left) := from?_bind_error ends
    obtain ⟨size, begun, alike⟩ := first
    rw [ends] at size begun alike
    refine ⟨by rwa [whole], by rwa [whole], fun fresh => ?_⟩
    rw [whole]
    exact (alike fresh).imp_right fun ⟨still, same⟩ => ⟨still, fun phase => from?_bind_error (same phase)⟩
  · have whole : (run >>= next).from? store = (next a).from? left := from?_bind_ok ends
    have second := rest a left ends
    obtain ⟨size, begun, alike⟩ := first
    rw [ends] at size begun alike
    refine ⟨?_, fun past => ?_, fun fresh => ?_⟩
    · rw [whole]
      exact Nat.le_trans size second.size
    · rw [whole]
      exact second.begun (begun past)
    · rw [whole]
      rcases alike fresh with past | ⟨still, same⟩
      · exact .inl (second.begun past)
      · refine (second.alike still).imp_right fun ⟨still', same'⟩ => ⟨still', fun phase => ?_⟩
        rw [from?_bind_ok (same phase), same']

theorem overlooks_onFault {run : Run α} {handler : Fault → Run α} {store : Store} (first : run.Overlooks k p input store)
    (handled : ∀ fault left, run.from? store = (.error (.fault fault), left) →
      (handler fault).Overlooks k p input left) : (onFault run handler).Overlooks k p input store := by
  obtain ⟨size, begun, alike⟩ := first
  rcases ends : run.from? store with ⟨(fault | _) | a, left⟩ <;> rw [ends] at size begun alike
  · have whole : (onFault run handler).from? store = (handler fault).from? left := by rw [from?_onFault, ends]
    have second := handled fault left ends
    refine ⟨?_, fun past => ?_, fun fresh => ?_⟩
    · rw [whole]
      exact Nat.le_trans size second.size
    · rw [whole]
      exact second.begun (begun past)
    · rw [whole]
      rcases alike fresh with past | ⟨still, same⟩
      · exact .inl (second.begun past)
      · refine (second.alike still).imp_right fun ⟨still', same'⟩ => ⟨still', fun phase => ?_⟩
        rw [from?_onFault, same]
        exact same' phase
  all_goals
    have whole : (onFault run handler).from? store = run.from? store := by rw [from?_onFault, ends]
    rw [ends] at whole
    refine ⟨by rwa [whole], by rwa [whole], fun fresh => ?_⟩
    rw [whole]
    refine (alike fresh).imp_right fun ⟨still, same⟩ => ⟨still, fun phase => ?_⟩
    rw [from?_onFault, same]

instance : (Law.overlooking k p input).Composes where
  pure _ _ _ := overlooks_of_cursors rfl fun _ => rfl
  fail _ _ _ := overlooks_of_cursors rfl fun _ => rfl
  outOfFuel _ _ := overlooks_of_cursors rfl fun _ => rfl
  view {_ f} unseeing store _ := by
    refine ⟨Nat.le_refl _, id, fun fresh => .inr ⟨fresh, fun phase => ?_⟩⟩
    have same : f (store.withStream k p input phase) = f store := by
      rw [← unseeing, faded_withStream fresh, unseeing]
    rw [from?_view, from?_view, same]
  bind {_ _ run _ store} first rest inside :=
    overlooks_bind (first inside) fun a left ends => rest a left ends (by
      have size := (first inside).size
      rw [ends] at size
      exact Nat.lt_of_lt_of_le inside size)
  onFault {_ run _ store} first handled inside :=
    overlooks_onFault (first inside) fun fault left ends => handled fault left ends (by
      have size := (first inside).size
      rw [ends] at size
      exact Nat.lt_of_lt_of_le inside size)

/-! ## What runs are made of -/

/-- A new iterator stands apart from a stream that is there. -/
theorem overlooks_newCursor (cursor : Cursor) {store : Store} (inside : k.index < store.cursors.size) :
    (newCursor cursor).Overlooks k p input store := by
  have here : ((newCursor cursor).from? store).2.cursor k = store.cursor k := by
    simp [Store.cursor, Array.getD_eq_getD_getElem?, Array.getElem?_push_lt inside, inside]
  refine ⟨by simp, fun begun => here ▸ begun, fun fresh => .inr ⟨here.trans fresh, fun phase => ?_⟩⟩
  have same : (store.cursors.modify k.index fun _ => .streaming p input phase).push cursor =
      (store.cursors.push cursor).modify k.index fun _ => .streaming p input phase := by
    ext i inside' _
    · simp
    · by_cases last : i < store.cursors.size
      · simp [Array.getElem_push, Array.getElem_modify, last]
      · have apart : k.index ≠ i := by omega
        simp [Array.getElem_push, Array.getElem_modify, last, apart]
  simp [withStream, same]

theorem cursor_setCursor {id : CursorId} {store : Store} (inside : id.index < store.cursors.size) (cursor : Cursor) :
    ((setCursor id cursor).from? store).2.cursor id = cursor := by
  simp [Store.cursor, Array.getD_eq_getD_getElem?, Array.getElem_modify, inside]

/-- An iterator other than an unbegun stream takes the place of a stream, or stands apart from it. -/
theorem overlooks_setCursor (id : CursorId) {cursor : Cursor} (noUnbegun : ¬cursor.IsUnbegun) {store : Store}
    (inside : k.index < store.cursors.size) : (setCursor id cursor).Overlooks k p input store := by
  by_cases same : id = k
  · subst same
    have here : ¬(((setCursor id cursor).from? store).2.cursor id).IsUnbegun := by
      rw [cursor_setCursor inside]
      exact noUnbegun
    exact ⟨by simp, fun _ => here, fun _ => .inl here⟩
  · have apart : id.index ≠ k.index := fun same' => same (by cases id; cases k; simp_all)
    have here : ((setCursor id cursor).from? store).2.cursor k = store.cursor k := by
      simp [Store.cursor, Array.getD_eq_getD_getElem?, Array.getElem?_modify, apart]
    refine ⟨by simp, fun begun => here ▸ begun, fun fresh => .inr ⟨here.trans fresh, fun phase => ?_⟩⟩
    have commutes : (store.cursors.modify k.index fun _ => .streaming p input phase).modify id.index (fun _ => cursor) =
        (store.cursors.modify id.index fun _ => cursor).modify k.index fun _ => .streaming p input phase := by
      ext i inside' _
      · simp
      · by_cases first : id.index = i
        · have other : k.index ≠ i := fun second => apart (first.trans second.symm)
          simp [Array.getElem_modify, first, other]
        · simp [Array.getElem_modify, first]
    simp [withStream, commutes]

/-- Looking at another iterator than a stream. -/
theorem overlooks_looked {id : CursorId} {next : Cursor → Run β} {store : Store} (apart : store.cursor k =
      .streaming p input .fresh → id ≠ k) (rest : (next (store.cursor id)).Overlooks k p input store) :
    (cursor id >>= next).Overlooks k p input store := by
  have whole : (cursor id >>= next).from? store = (next (store.cursor id)).from? store := from?_bind_ok (from?_cursor ..)
  refine ⟨by rw [whole]; exact rest.size, by rw [whole]; exact rest.begun, fun fresh => ?_⟩
  rw [whole]
  refine (rest.alike fresh).imp_right fun ⟨still, same⟩ => ⟨still, fun phase => ?_⟩
  rw [from?_bind_ok (from?_cursor ..), cursor_withStream_ne (apart fresh), same]

instance : (Law.overlooking k p input).Elementary where
  newSequence _ _ _ _ := overlooks_of_cursors rfl fun _ => rfl
  newList _ _ _ := overlooks_of_cursors rfl fun _ => rfl
  handed _ _ _ := overlooks_of_cursors rfl fun _ => rfl
  begun _ _ _ := overlooks_of_cursors rfl fun _ => rfl
  ended _ _ _ := overlooks_of_cursors rfl fun _ => rfl
  restarted _ _ _ := overlooks_of_cursors rfl fun _ => rfl
  body _ _ _ _ _ _ := overlooks_of_cursors rfl fun _ => rfl
  told _ _ _ _ := overlooks_of_cursors rfl fun _ => rfl
  newCursor cursor _ _ := overlooks_newCursor cursor
  setCursor id _ noUnbegun _ := overlooks_setCursor id noUnbegun
  looked {_ id _ store} begun rest inside := overlooks_looked (fun fresh same => begun (same ▸ ⟨p, input, fresh⟩))
    (rest inside)
  entered {_ id next store pipeline input' phase rest} there past same obeys inside := by
    have set : (setCursor id (.streaming pipeline input' phase)).Overlooks k p input store :=
      overlooks_setCursor id (by rintro ⟨_, _, same⟩; cases same; exact past rfl) inside
    have entering : (next (store.cursor id)).Overlooks k p input store := by
      rw [there, same]
      exact overlooks_bind set fun _ left ends => obeys left (by
        have size := set.size
        rw [ends] at size
        exact Nat.lt_of_lt_of_le inside size)
    by_cases apart : id = k
    · -- The stream itself is entered, and is not unbegun from then on.
      subst apart
      have whole : (cursor id >>= next).from? store = (next (store.cursor id)).from? store :=
        from?_bind_ok (from?_cursor ..)
      have left : ¬(((next (store.cursor id)).from? store).2.cursor id).IsUnbegun := by
        rw [there, same, from?_bind_ok (from?_setCursor ..)]
        refine (obeys _ (Nat.lt_of_lt_of_le inside set.size)).begun ?_
        rw [cursor_setCursor inside]
        rintro ⟨_, _, same⟩
        cases same
        exact past rfl
      refine ⟨by rw [whole]; exact entering.size, fun begun => absurd ⟨pipeline, input', there⟩ begun, fun _ => .inl ?_⟩
      rw [whole]
      exact left
    · exact overlooks_looked (fun _ => apart) entering
  newDatum _ _ _ := overlooks_of_cursors rfl fun _ => rfl
  counted _ _ _ _ _ := overlooks_of_cursors rfl fun _ => rfl
  asked _ _ _ _ := overlooks_of_cursors rfl fun _ => rfl

instance : (Law.overlooking k p input).Public where
  keepOutput _ _ _ _ := overlooks_of_cursors rfl fun _ => rfl
  newStream _ _ _ := overlooks_newCursor _
  updateList _ _ _ _ := overlooks_of_cursors rfl fun _ => rfl
  newMeter _ _ := overlooks_of_cursors rfl fun _ => rfl
  newSource _ _ _ := overlooks_of_cursors rfl fun _ => rfl
  newKey _ _ _ := overlooks_of_cursors rfl fun _ => rfl
  newStep _ _ _ := overlooks_of_cursors rfl fun _ => rfl
  newFault _ _ _ := overlooks_of_cursors rfl fun _ => rfl

end Run

/-- A run that obeys the law and leaves a stream unbegun ends alike wherever the stream is. -/
theorem Run.Obeys.overlooks {k : CursorId} {p : SequenceId} {input : Value} {α : Type} {run : Run α}
    (obeys : run.Obeys (.overlooking k p input)) {store : Store} (fresh : store.cursor k = .streaming p input .fresh)
    (unasked : ((run.from? store).2.cursor k) = .streaming p input .fresh) (phase : StreamPhase) :
    run.from? (store.withStream k p input phase) =
      ((run.from? store).1, (run.from? store).2.withStream k p input phase) := by
  have inside : k.index < store.cursors.size := Decidable.byContradiction fun outside => by
    have absent : store.cursor k = default := by
      simp [Store.cursor, Array.getD_eq_getD_getElem?, Nat.le_of_not_lt outside]
    cases absent.symm.trans fresh
  rcases (obeys store inside).alike fresh with begun | ⟨-, same⟩
  · exact absurd ⟨p, input, unasked⟩ begun
  · exact same phase

/-- A client that leaves a stream unbegun ends alike if the stream is over. -/
theorem Client.overlooks {n : Nat} {k : CursorId} {p : SequenceId} {input : Value} {α : Type} {run : Run α}
    (client : Client (calls n) run) {store : Store} (fresh : store.cursor k = .streaming p input .fresh)
    (unasked : ((run.from? store).2.cursor k) = .streaming p input .fresh) :
    run.from? (store.withStream k p input .finished) =
      ((run.from? store).1, (run.from? store).2.withStream k p input .finished) := by
  have obeys : (calls n).Obeys (.overlooking k p input) := Calls.obeys_calls _ Law.Public.keepOutput n
  have peeks : ∀ id, ((calls n).peek id).Obeys (Law.overlooking k p input) := fun id => by
    refine (Run.obeys_sequence id).bind fun state => ?_
    split
    · exact Run.obeys_pure _
    · exact (obeys.next id).bind fun _ =>
        Run.Obeys.bind (fun _ _ => Run.overlooks_of_cursors rfl fun _ => rfl) fun _ => Run.obeys_pure _
  exact (client.obeys peeks).overlooks fresh unasked .finished

end FirstSeen
