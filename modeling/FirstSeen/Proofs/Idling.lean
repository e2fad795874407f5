import FirstSeen.Proofs.Composing

/-!
# What takes no element

Making steps and pipelines, joining and binding them, building a chain, asking for size or whether elements are
taken apart, and beginning again: whatever objects these meet, they open no iterator, take no element from one and
call no source and no key function. Closing an iterator is all that they do to it.

Each is put together from runs that are idle in this sense, and the operations that call each other are idle at
every depth.
-/

set_option autoImplicit false

namespace FirstSeen

/-- An iterator once it was closed. -/
def Cursor.closed : Cursor → Cursor
  | generating script position _ meter closing => generating script position .finished meter closing
  | streaming pipeline input _ => streaming pipeline input .finished
  | cursor => cursor

namespace Store

/-- A store in which no iterator is new or has moved, though it may have been closed, and no source and no key
function was used. -/
structure Untapped (before after : Store) : Prop where
  size : after.cursors.size = before.cursors.size
  cursors : ∀ id, after.cursor id = before.cursor id ∨ after.cursor id = (before.cursor id).closed
  pulls : ∀ id, (after.meter id).pulls = (before.meter id).pulls
  iterations : ∀ id, (after.meter id).iterations = (before.meter id).iterations
  calls : ∀ id, (after.meter id).calls = (before.meter id).calls
  keys : after.keys = before.keys

theorem Untapped.refl (store : Store) : store.Untapped store :=
  ⟨rfl, fun _ => .inl rfl, fun _ => rfl, fun _ => rfl, fun _ => rfl, rfl⟩

theorem Untapped.trans {first second third : Store} (h : first.Untapped second) (k : second.Untapped third) :
    first.Untapped third := by
  refine ⟨k.size.trans h.size, fun id => ?_, fun id => (k.pulls id).trans (h.pulls id),
    fun id => (k.iterations id).trans (h.iterations id), fun id => (k.calls id).trans (h.calls id),
    k.keys.trans h.keys⟩
  have twice : ∀ cursor : Cursor, cursor.closed.closed = cursor.closed := fun cursor => by cases cursor <;> rfl
  rcases k.cursors id with same | closed <;> rcases h.cursors id with same' | closed'
  · exact .inl (same.trans same')
  · exact .inr (same.trans closed')
  · exact .inr (closed.trans (by rw [same']))
  · exact .inr (by rw [closed, closed', twice])

instance : IsPreorder Store Untapped where
  refl := .refl
  trans _ _ _ := .trans

end Store

/-- Whether a run takes no element, wherever it starts. -/
abbrev Run.Idle {α : Type} (run : Run α) : Prop := run.Keeps Store.Untapped

namespace Run

/-! ## Changing what is no iterator -/

theorem idle_updateSequence (id : SequenceId) (f : SequenceState → SequenceState) : (updateSequence id f).Idle :=
  fun _ => ⟨rfl, fun _ => .inl rfl, fun _ => rfl, fun _ => rfl, fun _ => rfl, rfl⟩

theorem idle_setBody (id : SequenceId) (body : Body) : (setBody id body).Idle := idle_updateSequence id _

theorem idle_newSequence (state : SequenceState) : (newSequence state).Idle :=
  fun _ => ⟨rfl, fun _ => .inl rfl, fun _ => rfl, fun _ => rfl, fun _ => rfl, rfl⟩

theorem idle_newList (items : List Value) : (newList items).Idle :=
  fun _ => ⟨rfl, fun _ => .inl rfl, fun _ => rfl, fun _ => rfl, fun _ => rfl, rfl⟩

theorem idle_newStep (step : Step) : (newStep step).Idle :=
  fun _ => ⟨rfl, fun _ => .inl rfl, fun _ => rfl, fun _ => rfl, fun _ => rfl, rfl⟩

theorem idle_tell (notice : Notice) : (tell notice).Idle :=
  fun _ => ⟨rfl, fun _ => .inl rfl, fun _ => rfl, fun _ => rfl, fun _ => rfl, rfl⟩

/-! ## Closing -/

/-- An iterator that is closed has not moved. -/
theorem untapped_closed (store : Store) (id : CursorId) :
    store.Untapped ((setCursor id (store.cursor id).closed).from? store).2 := by
  refine ⟨by simp, fun other => ?_, fun _ => rfl, fun _ => rfl, fun _ => rfl, rfl⟩
  by_cases same : id.index = other.index
  · obtain rfl : id = other := by cases id; cases other; simp_all
    cases there : store.cursors[id.index]? <;>
      simp [Store.cursor, Array.getD_eq_getD_getElem?, Array.getElem?_modify, there]
  · simp [Store.cursor, Array.getD_eq_getD_getElem?, Array.getElem?_modify, same]

/-- Counting that an iterator was closed counts no other use. -/
theorem idle_noteClose (meter : Option MeterId) (closing : CloseRule) : (noteClose meter closing).Idle := by
  have counted : ∀ meter : Option MeterId, (updateMeter? meter fun m => { m with closes := m.closes + 1 }).Idle := by
    intro meter
    cases meter with
    | none => exact keeps_pure ()
    | some id =>
      intro store
      have kept : ∀ (part : Meter → Nat), (∀ m : Meter, part { m with closes := m.closes + 1 } = part m) →
          ∀ other, part (({ store with meters := store.meters.modify id.index fun m =>
            { m with closes := m.closes + 1 } } : Store).meter other) = part (store.meter other) := by
        intro part same other
        simp only [Store.meter, Array.getD_eq_getD_getElem?, Array.getElem?_modify]
        split
        · cases store.meters[other.index]? with
          | none => rfl
          | some m => exact same m
        · rfl
      exact ⟨rfl, fun _ => .inl rfl, kept Meter.pulls fun _ => rfl, kept Meter.iterations fun _ => rfl,
        kept Meter.calls fun _ => rfl, rfl⟩
  cases closing with
  | silent => exact keeps_pure ()
  | counted fault =>
    refine (counted meter).bind fun _ => ?_
    cases fault with
    | none => exact keeps_pure ()
    | some fault => exact keeps_fail fault

theorem idle_closeCursor (id : CursorId) : (closeCursor id).Idle := by
  intro store
  rw [closeCursor, from?_bind_ok (from?_cursor ..)]
  have closed : ∀ {rest : Run Unit}, rest.Idle →
      store.Untapped ((setCursor id (store.cursor id).closed >>= fun _ => rest).from? store).2 := fun idle =>
    (untapped_closed store id).trans (idle _)
  cases found : store.cursor id with
  | walking name script position meter closing => exact idle_noteClose meter closing store
  | listing | ranging => exact .refl store
  | generating script position phase meter closing =>
    rw [found] at closed
    refine closed (.ite (.onFault (idle_noteClose meter closing) fun _ => keeps_fail _) ?_)
    exact keeps_pure ()
  | streaming pipeline input phase =>
    rw [found] at closed
    by_cases running : phase = .running
    · subst running
      exact .refl store
    · simp only [running, if_false]
      exact closed (keeps_pure ())

theorem idle_closeFeed (feed : Feed) : (closeFeed feed).Idle := by
  cases feed with
  | cursor id => exact idle_closeCursor id
  | sequence id => exact keeps_pure ()

instance : (Law.keeping Store.Untapped).Makes where
  newSequence _ _ := idle_newSequence _
  newList := idle_newList

/-! ## Making steps and pipelines -/

theorem idle_newDistinctStep (key limit : Value) : (newDistinctStep key limit).Idle :=
  have adds : ∀ step, (newStep step).Obeys (.keeping Store.Untapped) := idle_newStep
  Obeys.keeps (obeys_newDistinctStep adds key limit)

theorem idle_newPipeline (steps input multiValue : Value) : (newPipeline steps input multiValue).Idle :=
  Obeys.keeps (obeys_newPipeline steps input multiValue)

/-- Joining two values takes nothing from either. -/
theorem idle_join (left right : Value) : (join left right).Idle :=
  Obeys.keeps (obeys_join left right)

theorem idle_joinThen (first second : Value) : (joinThen first second).Idle :=
  Obeys.keeps (obeys_joinThen first second)

/-- Binding a part of a chain to data takes nothing from the data. -/
theorem idle_withInput (v data : Value) (multiValue : Option Value) : (withInput v data multiValue).Idle :=
  Obeys.keeps (obeys_withInput v data multiValue)

end Run

/-! ## Operations that call each other -/

namespace Calls

/-- Whether beginning again, applying steps, and asking for size or for the flag take no element. -/
abbrev Idle (c : Calls) : Prop := c.Keeps Store.Untapped

variable {c : Calls}

open Run

theorem idle_reset (idle : c.Idle) (id : SequenceId) : (c.reset id).Idle := by
  refine (keeps_view _).bind fun state => ?_
  split
  · exact keeps_fail _
  · exact keeps_fail _
  · exact .ite ((keeps_view _).bind fun _ => (keeps_fail _).bind fun _ => idle_setBody id _) (idle_setBody id _)
  · split
    · exact (idle_closeFeed _).bind fun _ => idle_setBody id _
    · exact idle_setBody id _
  · exact (idle.rewind _).bind fun _ => idle_setBody id _
  · exact .ite (keeps_pure _) ((keeps_sequenceFor _ _).bind idle.rewind)

theorem idle_rewindWith (idle : c.Idle) (id : SequenceId) : (c.rewindWith id).Idle :=
  (idle_reset idle id).bind fun _ => (idle_updateSequence id _).bind fun _ => (keeps_view _).bind fun _ => idle_tell _

/-- Building the output of a pipeline takes no element. -/
theorem idle_outputOf (idle : c.Idle) (id : SequenceId) (kept : Value) : (c.outputOf id kept).Idle :=
  idle.builds.outputOf (fun _ _ => idle_updateSequence _ _) id kept

/-- At every depth of calls, beginning again, applying steps, and asking for size or for the flag take no
element. -/
theorem idle_calls (n : Nat) : (calls n).Idle := by
  induction n with
  | zero =>
    exact ⟨fun _ => keeps_outOfFuel, fun _ => keeps_outOfFuel, fun _ => keeps_outOfFuel, fun _ _ => keeps_outOfFuel⟩
  | succ n ih =>
    exact ⟨idle_rewindWith ih, ih.builds.isMultiWith (idle_outputOf ih), ih.builds.sizeWith (idle_outputOf ih),
      ih.builds.applyWith⟩

end Calls

end FirstSeen
