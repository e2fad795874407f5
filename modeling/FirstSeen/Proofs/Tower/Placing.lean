import FirstSeen.Proofs.Tower.Playing
import Mathlib.Data.List.Forall2

/-!
# Values that become objects

What a factory makes is installed before it is opened: its lists can be shared, and whatever else is told
apart from equal objects becomes an unchanging object. An installed value has the contents of the value that
it was made from, and what is iterated out of it are the installed items of that value.
-/

set_option autoImplicit false

namespace FirstSeen

/-- Whether a value is told apart from others with the same contents once it is installed. Lists are told
apart too, but are no unchanging objects. -/
def Value.isBoxed : Value → Bool
  | .object (.datum _) => true
  | .object _ | .list _ => false
  | v => !v.isCanonical

namespace Store

/-- Whether a value is what another becomes when it is installed. -/
structure Placed (before after : Store) (v w : Value) : Prop where
  data : after.IsData w
  contents : after.contents w = before.contents v
  boxed : w.isDatum = v.isBoxed

/-- Whether an installed value holds the installed items of the value that it was made from. -/
def Wraps (before after : Store) (v w : Value) : Prop :=
  match v with
  | .list items => ∃ id : ListId, w = .object (.list id) ∧ id.index < after.lists.size ∧
      List.Forall₂ (before.Placed after) items (after.list id)
  | .tuple items => ∃ held, after.plain w = .tuple held ∧ List.Forall₂ (before.Placed after) items held
  | .set items => ∃ held, after.plain w = .set held ∧ List.Forall₂ (before.Placed after) items held
  | .frozenset items => ∃ held, after.plain w = .frozenset held ∧
      List.Forall₂ (before.Placed after) items held
  | .dict entries => ∃ held, after.plain w = .dict held ∧
      List.Forall₂ (fun e f => before.Placed after e.1 f.1 ∧ before.Placed after e.2 f.2) entries held
  | _ => after.plain w = after.plain v

/-! ## What stays -/

theorem Placed.later {first second third : Store} {v w : Value} (h : first.Placed second v w)
    (grows : second.Grows third) : first.Placed third v w :=
  ⟨grows.isData h.data, (grows.contents h.data).trans h.contents, h.boxed⟩

theorem adds_data (store : Store) (more : Array Value) :
    store.Adds { store with data := store.data ++ more } :=
  ⟨⟨⟨more, rfl⟩, ⟨#[], by simp⟩, rfl, rfl, fun _ => rfl, rfl, Nat.le_refl _⟩, rfl, rfl, rfl⟩

/-! ## Contents of containers -/

/-- The contents of a value that holds others are made of theirs. -/
theorem contents_items (store : Store) (items : List Value) :
    store.contents (.tuple items) = .tuple (items.map store.contents) ∧
      store.contents (.list items) = .list (items.map store.contents) ∧
      store.contents (.set items) = .set (items.map store.contents) ∧
      store.contents (.frozenset items) = .frozenset (items.map store.contents) := by
  simp only [contents, contentsTo, Value.mapRefs, Value.mapRefsIn_eq]
  exact ⟨rfl, rfl, rfl, rfl⟩

theorem contents_dict (store : Store) (entries : List (Value × Value)) :
    store.contents (.dict entries) =
      .dict (entries.map fun e => (store.contents e.1, store.contents e.2)) := by
  simp only [contents, contentsTo, Value.mapRefs, Value.mapRefsInEntries_eq]

/-- A value that holds others is data if they are. -/
theorem isData_items {store : Store} {v : Value} {items : List Value}
    (refs : v.refs = items.flatMap Value.refs) : store.IsData v ↔ ∀ item ∈ items, store.IsData item := by
  constructor
  · exact fun data item member ref held =>
      data ref (refs ▸ List.mem_flatMap.mpr ⟨item, member, held⟩)
  · intro data ref held
    obtain ⟨item, member, held⟩ := List.mem_flatMap.mp (refs ▸ held)
    exact data item member ref held

theorem isData_dict {store : Store} {entries : List (Value × Value)} :
    store.IsData (.dict entries) ↔ ∀ e ∈ entries, store.IsData e.1 ∧ store.IsData e.2 := by
  have refs : (Value.dict entries).refs = (entries.flatMap fun e => [e.1, e.2]).flatMap Value.refs := by
    simp [Value.refs, Value.refsInEntries_eq, List.flatMap_assoc]
  rw [isData_items refs]
  simp only [List.mem_flatMap]
  constructor
  · exact fun data e member => ⟨data _ ⟨e, member, by simp⟩, data _ ⟨e, member, by simp⟩⟩
  · rintro data item ⟨e, member, there⟩
    rcases List.mem_pair.mp there with rfl | rfl
    · exact (data e member).1
    · exact (data e member).2

/-- Values with the same contents in turn have the same lists of contents. -/
theorem contents_of_placed {before after : Store} {items held : List Value}
    (placed : List.Forall₂ (before.Placed after) items held) :
    held.map after.contents = items.map before.contents := by
  induction placed with
  | nil => rfl
  | cons first _ ih => simp only [List.map_cons, first.contents, ih]

theorem isData_of_placed {before after : Store} {items held : List Value}
    (placed : List.Forall₂ (before.Placed after) items held) : ∀ w ∈ held, after.IsData w := by
  induction placed with
  | nil => simp
  | cons first _ ih => simpa using ⟨first.data, ih⟩

/-- Entries with the same contents in turn have the same lists of contents. -/
theorem contents_of_entries {before after : Store} {entries held : List (Value × Value)}
    (placed : List.Forall₂ (fun e f => before.Placed after e.1 f.1 ∧ before.Placed after e.2 f.2)
      entries held) :
    (held.map fun e => (after.contents e.1, after.contents e.2)) =
      entries.map fun e => (before.contents e.1, before.contents e.2) := by
  induction placed with
  | nil => rfl
  | cons first _ ih => simp only [List.map_cons, first.1.contents, first.2.contents, ih]

theorem isData_of_entries {before after : Store} {entries held : List (Value × Value)}
    (placed : List.Forall₂ (fun e f => before.Placed after e.1 f.1 ∧ before.Placed after e.2 f.2)
      entries held) : ∀ e ∈ held, after.IsData e.1 ∧ after.IsData e.2 := by
  induction placed with
  | nil => simp
  | cons first _ ih => exact List.forall_mem_cons.mpr ⟨⟨first.1.data, first.2.data⟩, ih⟩

/-! ## Installing -/

/-- Whether a value can be installed, wherever a store has grown to in which it is data. -/
def Installs (v : Value) : Prop :=
  ∀ first store : Store, first.Grows store → first.IsData v →
    ∃ w after, (Run.install v).from? store = (.ok w, after) ∧ store.Adds after ∧
      first.Placed after v w ∧ first.Wraps after v w

/-- Values that can be installed can be installed in turn. -/
theorem installAll_places {items : List Value} (each : ∀ item ∈ items, Installs item)
    {first store : Store} (grows : first.Grows store) (data : ∀ item ∈ items, first.IsData item) :
    ∃ held after, (Run.installAll items).from? store = (.ok held, after) ∧ store.Adds after ∧
      List.Forall₂ (first.Placed after) items held := by
  induction items generalizing store with
  | nil => exact ⟨[], store, by rw [Run.installAll]; rfl, .refl store, .nil⟩
  | cons item rest ih =>
    rw [List.forall_mem_cons] at each data
    obtain ⟨w, next, ends, adds, placed, -⟩ := each.1 first store grows data.1
    obtain ⟨held, after, ends', adds', placed'⟩ := ih each.2 (grows.trans adds.grows) data.2
    refine ⟨w :: held, after, ?_, adds.trans adds', .cons (placed.later adds'.grows) placed'⟩
    rw [Run.installAll, Run.from?_bind_ok ends, Run.from?_bind_ok ends']
    rfl

/-- Entries that can be installed can be installed in turn. -/
theorem installEntries_places {entries : List (Value × Value)}
    (each : ∀ e ∈ entries, Installs e.1 ∧ Installs e.2) {first store : Store}
    (grows : first.Grows store) (data : ∀ e ∈ entries, first.IsData e.1 ∧ first.IsData e.2) :
    ∃ held after, (Run.installEntries entries).from? store = (.ok held, after) ∧ store.Adds after ∧
      List.Forall₂ (fun e f => first.Placed after e.1 f.1 ∧ first.Placed after e.2 f.2) entries held := by
  induction entries generalizing store with
  | nil => exact ⟨[], store, by rw [Run.installEntries]; rfl, .refl store, .nil⟩
  | cons e rest ih =>
    obtain ⟨k, v⟩ := e
    rw [List.forall_mem_cons] at each data
    obtain ⟨k', one, ends, adds, placed, -⟩ := each.1.1 first store grows data.1.1
    obtain ⟨v', two, ends', adds', placed', -⟩ := each.1.2 first one (grows.trans adds.grows) data.1.2
    obtain ⟨held, after, ends'', adds'', placed''⟩ :=
      ih each.2 ((grows.trans adds.grows).trans adds'.grows) data.2
    refine ⟨(k', v') :: held, after, ?_, (adds.trans adds').trans adds'',
      .cons ⟨placed.later (adds'.grows.trans adds''.grows), placed'.later adds''.grows⟩ placed''⟩
    rw [Run.installEntries, Run.from?_bind_ok ends, Run.from?_bind_ok ends', Run.from?_bind_ok ends'']
    rfl

/-- A container of installed items becomes one object. -/
theorem container_places (first : Store) {store next : Store} (v x : Value) (run : Run Value)
    (adds : store.Adds next) (ends : run.from? store = (Run.newObject x).from? next)
    (noObject : x.isObject = false) (data : next.IsData x)
    (contents : next.contents x = first.contents v) (boxed : (!x.isCanonical) = v.isBoxed) :
    ∃ w after, run.from? store = (.ok w, after) ∧ store.Adds after ∧ first.Placed after v w ∧
      after.plain w = x ∧ next.Grows after := by
  obtain ⟨w, more, ends', data', contents', plain, boxed'⟩ := newObject_places noObject data
  have adds' := adds_data next more
  exact ⟨w, _, ends.trans ends', adds.trans adds', ⟨data', contents'.trans contents,
    boxed'.trans boxed⟩, plain, adds'.grows⟩

/-- A list of installed items becomes a list of the store. -/
theorem list_places {first store next : Store} {items held : List Value} {run : Run Value}
    (adds : store.Adds next)
    (ends : run.from? store = (do return .object (.list (← Run.newList held)) : Run Value).from? next)
    (placed : List.Forall₂ (first.Placed next) items held) :
    ∃ w after, run.from? store = (.ok w, after) ∧ store.Adds after ∧ first.Placed after (.list items) w ∧
      first.Wraps after (.list items) w := by
  let after : Store := { next with lists := next.lists.push held }
  have found : after.list ⟨next.lists.size⟩ = held := by simp [after, Store.list]
  have adds' : next.Adds after :=
    ⟨⟨⟨#[], by simp [after]⟩, ⟨#[held], by simp [after]⟩, rfl, rfl, fun _ => rfl, rfl, Nat.le_refl _⟩, rfl, rfl, rfl⟩
  have deep : next.data.size + next.lists.size + 1 ≤ after.data.size + after.lists.size := by
    have lists : after.lists.size = next.lists.size + 1 := Array.size_push held
    have data : after.data.size = next.data.size := rfl
    omega
  have resolved : ∀ w ∈ held, after.DataTo (after.data.size + after.lists.size) w ∧
      after.contentsTo (after.data.size + after.lists.size) w = next.contents w := by
    intro w member
    obtain ⟨resolved, same⟩ := adds'.grows.dataTo (isData_of_placed placed w member)
    obtain ⟨resolved, same'⟩ := dataTo_mono deep resolved
    exact ⟨resolved, same'.trans same⟩
  refine ⟨.object (.list ⟨next.lists.size⟩), after, ends, adds.trans adds', ⟨?_, ?_, rfl⟩,
    ⟨next.lists.size⟩, rfl, by simp [after], ?_⟩
  · intro ref there
    obtain rfl : ref = .list ⟨next.lists.size⟩ := by simpa [Value.refs] using there
    exact ⟨by simp [after], fun w member => (resolved w (found ▸ member)).1⟩
  · rw [(contents_items first items).2.1, ← contents_of_placed placed, contents, contentsTo, Value.mapRefs]
    simp only [found]
    exact congrArg Value.list (List.map_congr_left fun w member => (resolved w member).2)
  · rw [found]
    exact placed.imp fun _ _ placed => placed.later adds'.grows

/-- A value that holds no others and is no reference becomes one object. -/
theorem leaf_places {v : Value} (noObject : v.isObject = false) (leaf : v.isContainer = false) :
    Installs v := by
  intro first store grows data
  have install : Run.install v = Run.newObject v := by
    cases v <;> first | rfl | simp [Value.isContainer] at leaf
  obtain ⟨w, after, ends, adds, placed, plain, -⟩ := container_places first v _ _
    (.refl store) (congrArg (·.from? store) install) noObject (grows.isData data) (grows.contents data)
    (by cases v <;> first | rfl | simp [Value.isContainer, Value.isObject] at leaf noObject)
  refine ⟨w, after, ends, adds, placed, ?_⟩
  cases v <;>
    first
    | exact plain
    | simp [Value.isContainer, Value.isObject] at leaf noObject

/-- A container of items becomes one object, which holds the installed items. -/
theorem items_place (wrap : List Value → Value) {items : List Value} (each : ∀ v ∈ items, Installs v)
    (install : Run.install (wrap items) = (do Run.newObject (wrap (← Run.installAll items))))
    (refs : ∀ held, (wrap held).refs = held.flatMap Value.refs)
    (contents : ∀ (store : Store) held, store.contents (wrap held) = wrap (held.map store.contents))
    (noObject : ∀ held, (wrap held).isObject = false)
    (boxed : ∀ held, (!(wrap held).isCanonical) = (wrap items).isBoxed ∨ held.length ≠ items.length)
    (first store : Store) (grows : first.Grows store) (data : first.IsData (wrap items)) :
    ∃ w after, (Run.install (wrap items)).from? store = (.ok w, after) ∧ store.Adds after ∧
      first.Placed after (wrap items) w ∧
      ∃ held, after.plain w = wrap held ∧ List.Forall₂ (first.Placed after) items held := by
  obtain ⟨held, next, ends, adds, placed⟩ := installAll_places each grows
    ((isData_items (refs items)).mp data)
  obtain ⟨w, after, ends', adds', placed', plain, grows'⟩ := container_places first (wrap items)
    (wrap held) (Run.install (wrap items)) adds
    (by rw [install, Run.from?_bind_ok ends]) (noObject held)
    ((isData_items (refs held)).mpr (isData_of_placed placed))
    (by rw [contents, contents, contents_of_placed placed])
    ((boxed held).resolve_right (absurd placed.length_eq.symm))
  exact ⟨w, after, ends', adds', placed', held, plain, placed.imp fun _ _ placed => placed.later grows'⟩

/-- Data can be installed: what they become has their contents and holds their installed items. -/
theorem install_places (v : Value) : Installs v := by
  induction v using Value.containerInduction with
  | leaf v leaf =>
    cases v with
    | object ref =>
      refine fun first store grows data => ⟨.object ref, store, ?_, .refl store,
        ⟨grows.isData data, grows.contents data, ?_⟩, rfl⟩
      · rw [Run.install, Run.from?_newObject]
        · rfl
        all_goals simp
      · cases ref <;> rfl
    | _ => exact leaf_places rfl leaf
  | list items ih =>
    intro first store grows data
    obtain ⟨held, next, ends, adds, placed⟩ := installAll_places ih grows
      ((isData_items (v := .list items) (Value.refsIn_eq items)).mp data)
    refine list_places adds ?_ placed
    rw [Run.install, Run.from?_bind_ok ends]
  | tuple items ih =>
    refine items_place .tuple ih (by rw [Run.install]) Value.refsIn_eq
      (fun store held => (contents_items store held).1) (fun _ => rfl) fun held => ?_
    cases items <;> cases held <;> simp [Value.isCanonical, Value.isBoxed]
  | set items ih =>
    exact items_place .set ih (by rw [Run.install]) Value.refsIn_eq
      (fun store held => (contents_items store held).2.2.1) (fun _ => rfl) fun held => .inl rfl
  | frozenset items ih =>
    exact items_place .frozenset ih (by rw [Run.install]) Value.refsIn_eq
      (fun store held => (contents_items store held).2.2.2) (fun _ => rfl) fun held => .inl rfl
  | dict entries ih =>
    intro first store grows data
    obtain ⟨held, next, ends, adds, placed⟩ := installEntries_places ih grows (isData_dict.mp data)
    obtain ⟨w, after, ends', adds', placed', plain, grows'⟩ := container_places first (.dict entries)
      (.dict held) (Run.install (.dict entries)) adds
      (by rw [Run.install, Run.from?_bind_ok ends]) rfl
      (isData_dict.mpr (isData_of_entries placed))
      (by rw [contents_dict, contents_dict, contents_of_entries placed]) rfl
    exact ⟨w, after, ends', adds', placed', held, plain, placed.imp fun _ _ placed =>
      ⟨placed.1.later grows', placed.2.later grows'⟩⟩

end Store

end FirstSeen
