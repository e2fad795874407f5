import FirstSeen.Proofs.Value.Containers

/-!
# Data in a growing store

A value is *data* if everything that it refers to, to any depth, is a list or an unchanging object of
the store, and no list holds itself. The contents of data are complete: no reference is left in them.

While a pipeline runs, the store only grows as far as data are concerned: objects are added, and none of
those that were there is changed. Data of a store are therefore data of every store that it grows to,
with the same contents and of types with the same names.
-/

set_option autoImplicit false

namespace FirstSeen

/-- Whether an iterator is a stream of a pipeline. -/
def Cursor.isStream : Cursor → Bool
  | .streaming .. => true
  | _ => false

/-- Whether a value is a reference to an object of a store. -/
def Value.isObject : Value → Bool
  | object _ => true
  | _ => false

namespace Store

/-- Whether what a value refers to is resolved within so many steps. An unchanging object holds a value, not
another reference. -/
def DataTo (store : Store) : (depth : Nat) → Value → Prop
  | 0, v => v.refs = []
  | depth + 1, v => ∀ ref ∈ v.refs,
    match ref with
    | .datum id =>
      id.index < store.data.size ∧ (store.datum id).isObject = false ∧
        store.DataTo depth (store.datum id)
    | .list id => id.index < store.lists.size ∧ ∀ item ∈ store.list id, store.DataTo depth item
    | _ => False

/-- Whether a value is data: lists and unchanging objects of the store, to any depth. No chain of
references is longer than there are such objects, unless a list holds itself. -/
def IsData (store : Store) (v : Value) : Prop :=
  store.DataTo (store.data.size + store.lists.size + 1) v

/-- What pipelines at work leave of a store: what was there stays, and key functions answer as before. -/
structure Grows (before after : Store) : Prop where
  data : ∃ more, after.data = before.data ++ more
  lists : ∃ more, after.lists = before.lists ++ more
  sources : after.sources = before.sources
  steps : after.steps = before.steps
  keys : ∀ id, (after.key id).respond = (before.key id).respond
  raising : after.raising = before.raising
  meters : before.meters.size ≤ after.meters.size

/-! ## Data -/

/-- A value without references is data. -/
theorem dataTo_of_refs_nil {store : Store} {depth : Nat} {v : Value} (plain : v.refs = []) :
    store.DataTo depth v := by
  cases depth with
  | zero => exact plain
  | succ depth => simp [DataTo, plain]

theorem isData_of_refs_nil {store : Store} {v : Value} (plain : v.refs = []) : store.IsData v :=
  dataTo_of_refs_nil plain

/-- One more step resolves no more of what was resolved. -/
theorem dataTo_succ {store : Store} {depth : Nat} {v : Value} (data : store.DataTo depth v) :
    store.DataTo (depth + 1) v ∧ store.contentsTo (depth + 1) v = store.contentsTo depth v := by
  induction depth generalizing v with
  | zero =>
    exact ⟨dataTo_of_refs_nil data, by simp only [contentsTo]; exact Value.mapRefs_of_refs_nil data _⟩
  | succ depth ih =>
    refine ⟨fun ref held => ?_, ?_⟩
    · specialize data ref held
      cases ref with
      | datum id => exact ⟨data.1, data.2.1, (ih data.2.2).1⟩
      | list id => exact ⟨data.1, fun item member => (ih (data.2 item member)).1⟩
      | _ => exact data
    · rw [contentsTo, contentsTo]
      refine Value.mapRefs_congr fun ref held => ?_
      specialize data ref held
      cases ref with
      | datum id => exact (ih data.2.2).2
      | list id =>
        exact congrArg Value.list
          (List.map_congr_left fun item member => (ih (data.2 item member)).2)
      | _ => exact data.elim

/-- More steps resolve no more of what was resolved. -/
theorem dataTo_mono {store : Store} {depth more : Nat} {v : Value} (le : depth ≤ more)
    (data : store.DataTo depth v) :
    store.DataTo more v ∧ store.contentsTo more v = store.contentsTo depth v := by
  induction le with
  | refl => exact ⟨data, rfl⟩
  | step _ ih => exact ⟨(dataTo_succ ih.1).1, (dataTo_succ ih.1).2.trans ih.2⟩

/-- Contents that are complete hold no reference. -/
theorem refs_contentsTo {store : Store} {depth : Nat} {v : Value} (data : store.DataTo depth v) :
    (store.contentsTo depth v).refs = [] := by
  induction depth generalizing v with
  | zero => exact data
  | succ depth ih =>
    rw [contentsTo, Value.refs_mapRefs, List.flatMap_eq_nil_iff]
    intro ref held
    specialize data ref held
    cases ref with
    | datum id => exact ih data.2.2
    | list id =>
      simp only [Value.refs, Value.refsIn_eq, List.flatMap_map, List.flatMap_eq_nil_iff]
      exact fun item member => ih (data.2 item member)
    | _ => exact data.elim

/-- The contents of data hold no reference. -/
theorem refs_contents {store : Store} {v : Value} (data : store.IsData v) :
    (store.contents v).refs = [] :=
  refs_contentsTo data

/-- A value without references is its own contents. -/
theorem contents_of_refs_nil {store : Store} {v : Value} (plain : v.refs = []) :
    store.contents v = v := by
  rw [contents, contentsTo, Value.mapRefs_of_refs_nil plain]

/-- What a list of data holds is data. -/
theorem isData_of_mem_list {store : Store} {id : ListId} {v : Value}
    (data : store.IsData (.object (.list id))) (member : v ∈ store.list id) : store.IsData v :=
  (dataTo_succ ((data (.list id) (by simp [Value.refs])).2 v member)).1

/-- What is iterated out of data is data. -/
theorem isData_of_mem_items? {store : Store} {v item : Value} {items : List Value}
    (data : store.IsData v) (given : (store.plain v).items? = some items) (member : item ∈ items) :
    store.IsData item := by
  have through : ∀ {w : Value} {depth : Nat}, store.DataTo depth w → w.items? = some items →
      store.DataTo depth item := by
    intro w depth resolved listed
    cases depth with
    | zero =>
      refine List.eq_nil_iff_forall_not_mem.mpr fun ref held => ?_
      simpa [show w.refs = [] from resolved] using Value.refs_of_mem_items? listed member held
    | succ depth => exact fun ref held => resolved ref (Value.refs_of_mem_items? listed member held)
  cases v with
  | object ref =>
    cases ref with
    | datum id =>
      exact (dataTo_succ (through (data (.datum id) (by simp [Value.refs])).2.2 given)).1
    | _ => exact through data given
  | _ => exact through data given

/-! ## Growth -/

namespace Grows

variable {before after : Store}

theorem refl (store : Store) : Grows store store :=
  ⟨⟨#[], by simp⟩, ⟨#[], by simp⟩, rfl, rfl, fun _ => rfl, rfl, Nat.le_refl _⟩

theorem trans {first second third : Store} (h : Grows first second) (k : Grows second third) :
    Grows first third := by
  obtain ⟨⟨moreData, data⟩, ⟨moreLists, lists⟩⟩ := h.data, h.lists
  obtain ⟨⟨stillMoreData, data'⟩, ⟨stillMoreLists, lists'⟩⟩ := k.data, k.lists
  refine ⟨⟨moreData ++ stillMoreData, by rw [data', data, Array.append_assoc]⟩,
    ⟨moreLists ++ stillMoreLists, by rw [lists', lists, Array.append_assoc]⟩,
    k.sources.trans h.sources, k.steps.trans h.steps, fun id => (k.keys id).trans (h.keys id),
    k.raising.trans h.raising, Nat.le_trans h.meters k.meters⟩

/-- An object that was there holds what it held. -/
theorem datum (h : Grows before after) {id : DatumId} (there : id.index < before.data.size) :
    after.datum id = before.datum id := by
  obtain ⟨more, same⟩ := h.data
  simp [Store.datum, same, Array.getD_eq_getD_getElem?, Array.getElem?_append_left there]

/-- A list that was there holds what it held. -/
theorem list (h : Grows before after) {id : ListId} (there : id.index < before.lists.size) :
    after.list id = before.list id := by
  obtain ⟨more, same⟩ := h.lists
  simp [Store.list, same, Array.getD_eq_getD_getElem?, Array.getElem?_append_left there]

/-- What was resolved stays resolved, in the same way. -/
theorem dataTo (h : Grows before after) {depth : Nat} {v : Value} (data : before.DataTo depth v) :
    after.DataTo depth v ∧ after.contentsTo depth v = before.contentsTo depth v := by
  have sizes : before.data.size ≤ after.data.size ∧ before.lists.size ≤ after.lists.size := by
    obtain ⟨⟨_, same⟩, ⟨_, same'⟩⟩ := h.data, h.lists
    simp [same, same']
  induction depth generalizing v with
  | zero => exact ⟨data, rfl⟩
  | succ depth ih =>
    refine ⟨fun ref held => ?_, ?_⟩
    · specialize data ref held
      cases ref with
      | datum id =>
        have kept := h.datum data.1
        exact ⟨by omega, kept ▸ data.2.1, kept ▸ (ih data.2.2).1⟩
      | list id =>
        exact ⟨by omega, by rw [h.list data.1]; exact fun item member => (ih (data.2 item member)).1⟩
      | _ => exact data
    · rw [contentsTo, contentsTo]
      refine Value.mapRefs_congr fun ref held => ?_
      specialize data ref held
      cases ref with
      | datum id => simpa only [h.datum data.1] using (ih data.2.2).2
      | list id =>
        simp only [h.list data.1]
        exact congrArg Value.list
          (List.map_congr_left fun item member => (ih (data.2 item member)).2)
      | _ => exact data.elim

/-- Data stay data. -/
theorem isData (h : Grows before after) {v : Value} (data : before.IsData v) : after.IsData v := by
  obtain ⟨⟨_, same⟩, ⟨_, same'⟩⟩ := h.data, h.lists
  exact (dataTo_mono (by simp [same, same']; omega) (h.dataTo data).1).1

/-- Data keep their contents. -/
theorem contents (h : Grows before after) {v : Value} (data : before.IsData v) :
    after.contents v = before.contents v := by
  obtain ⟨⟨_, same⟩, ⟨_, same'⟩⟩ := h.data, h.lists
  exact (dataTo_mono (by simp [same, same']; omega) (h.dataTo data).1).2.trans (h.dataTo data).2

/-- A datum is found as it was. -/
theorem plain (h : Grows before after) {v : Value} (data : before.IsData v) :
    after.plain v = before.plain v := by
  cases v with
  | object ref =>
    cases ref with
    | datum id => exact h.datum (data (.datum id) (by simp [Value.refs])).1
    | _ => rfl
  | _ => rfl

/-- Data keep the names of their types. -/
theorem typeName (h : Grows before after) {v : Value} (data : before.IsData v) :
    after.typeName v = before.typeName v := by
  cases v with
  | object ref =>
    have held := data ref (by simp [Value.refs])
    cases ref with
    | datum id => simp only [Store.typeName, refTypeName, h.datum held.1]
    | list id => rfl
    | _ => exact held.elim
  | _ => rfl

end Grows

/-- A store that grew while no sequence changed and no stream was asked for an element. -/
structure Still (before after : Store) : Prop where
  grows : before.Grows after
  sequences : after.sequences = before.sequences
  streams : ∀ id, (before.cursor id).isStream → after.cursor id = before.cursor id

/-- A store to which only objects were added, and in which only key functions were asked. -/
structure Adds (before after : Store) : Prop where
  grows : before.Grows after
  sequences : after.sequences = before.sequences
  cursors : after.cursors = before.cursors
  meters : after.meters = before.meters

theorem Adds.refl (store : Store) : store.Adds store := ⟨.refl store, rfl, rfl, rfl⟩

theorem Adds.trans {first second third : Store} (h : first.Adds second) (k : second.Adds third) :
    first.Adds third :=
  ⟨h.grows.trans k.grows, k.sequences.trans h.sequences, k.cursors.trans h.cursors,
    k.meters.trans h.meters⟩

theorem Adds.still {before after : Store} (h : before.Adds after) : before.Still after :=
  ⟨h.grows, h.sequences, fun _ _ => by simp only [Store.cursor, h.cursors]⟩

end Store

end FirstSeen
