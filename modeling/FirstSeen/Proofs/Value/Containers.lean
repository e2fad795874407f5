import FirstSeen.Store
import Mathlib.Data.List.Basic

/-!
# Values that hold values

Induction on values: a property of all values follows if it holds of the values that hold no others and
passes from the parts of a container to the container. The references in a container are those in its
parts, and replacing references in a container replaces them in its parts.
-/

set_option autoImplicit false

namespace FirstSeen

namespace Value

/-- Whether a value holds other values. -/
def isContainer : Value → Bool
  | list _ | tuple _ | dict _ | set _ | frozenset _ => true
  | _ => false

/-- Induction on what values hold. -/
@[elab_as_elim]
theorem containerInduction {P : Value → Prop}
    (leaf : ∀ v, v.isContainer = false → P v)
    (list : ∀ items, (∀ v ∈ items, P v) → P (.list items))
    (tuple : ∀ items, (∀ v ∈ items, P v) → P (.tuple items))
    (dict : ∀ entries, (∀ e ∈ entries, P e.1 ∧ P e.2) → P (.dict entries))
    (set : ∀ members, (∀ v ∈ members, P v) → P (.set members))
    (frozenset : ∀ members, (∀ v ∈ members, P v) → P (.frozenset members))
    (v : Value) : P v :=
  Value.rec (motive_1 := P) (motive_2 := fun items => ∀ v ∈ items, P v)
    (motive_3 := fun entries => ∀ e ∈ entries, P e.1 ∧ P e.2)
    (motive_4 := fun e => P e.1 ∧ P e.2)
    (leaf _ rfl) (fun _ => leaf _ rfl) (fun _ => leaf _ rfl) (fun _ => leaf _ rfl)
    (fun _ => leaf _ rfl) (fun _ => leaf _ rfl) (fun _ => leaf _ rfl) (fun _ => leaf _ rfl)
    list tuple dict set frozenset (fun _ => leaf _ rfl) (fun _ _ _ => leaf _ rfl)
    (fun _ => leaf _ rfl)
    (by simp) (fun _ _ h t => by simpa using ⟨h, t⟩)
    (by simp) (fun _ _ h t => by simpa using ⟨h, fun a b m => t (a, b) m⟩)
    (fun _ _ h t => ⟨h, t⟩) v

theorem refsIn_eq (items : List Value) : refsIn items = items.flatMap refs := by
  induction items with
  | nil => rfl
  | cons v rest ih => simp [refsIn, ih]

theorem refsInEntries_eq (entries : List (Value × Value)) :
    refsInEntries entries = entries.flatMap fun e => refs e.1 ++ refs e.2 := by
  induction entries with
  | nil => rfl
  | cons e rest ih => simp [refsInEntries, ih]

theorem mapRefsIn_eq (f : Ref → Value) (items : List Value) :
    mapRefsIn f items = items.map (mapRefs f) := by
  induction items with
  | nil => rfl
  | cons v rest ih => simp [mapRefsIn, ih]

theorem mapRefsInEntries_eq (f : Ref → Value) (entries : List (Value × Value)) :
    mapRefsInEntries f entries = entries.map fun e => (mapRefs f e.1, mapRefs f e.2) := by
  induction entries with
  | nil => rfl
  | cons e rest ih => simp [mapRefsInEntries, ih]

/-- Only what replaces the references that occur in a value matters to it. -/
theorem mapRefs_congr {f g : Ref → Value} {v : Value} (agree : ∀ ref ∈ v.refs, f ref = g ref) :
    v.mapRefs f = v.mapRefs g := by
  induction v using containerInduction with
  | leaf v h => cases v <;> simp_all [isContainer, mapRefs, refs]
  | list items ih | tuple items ih | set items ih | frozenset items ih =>
    simp only [refs, refsIn_eq, List.mem_flatMap] at agree
    simp only [mapRefs, mapRefsIn_eq]
    congr 1
    exact List.map_congr_left fun v m => ih v m fun ref r => agree ref ⟨v, m, r⟩
  | dict entries ih =>
    simp only [refs, refsInEntries_eq, List.mem_flatMap, List.mem_append] at agree
    simp only [mapRefs, mapRefsInEntries_eq]
    congr 1
    refine List.map_congr_left fun e m => ?_
    rw [(ih e m).1 fun ref r => agree ref ⟨e, m, .inl r⟩,
      (ih e m).2 fun ref r => agree ref ⟨e, m, .inr r⟩]

/-- Replacing references by themselves changes nothing. -/
theorem mapRefs_object (v : Value) : v.mapRefs .object = v := by
  induction v using containerInduction with
  | leaf v h => cases v <;> simp_all [isContainer, mapRefs]
  | list items ih | tuple items ih | set items ih | frozenset items ih =>
    simp only [mapRefs, mapRefsIn_eq]
    rw [List.map_congr_left ih, List.map_id']
  | dict entries ih =>
    simp only [mapRefs, mapRefsInEntries_eq]
    rw [List.map_congr_left fun e m => Prod.ext (ih e m).1 (ih e m).2, List.map_id']

/-- A value without references stays as it is. -/
theorem mapRefs_of_refs_nil {v : Value} (plain : v.refs = []) (f : Ref → Value) : v.mapRefs f = v := by
  rw [mapRefs_congr (g := .object) (by simp [plain]), mapRefs_object]

/-- The references left after a replacement are those in the replacements. -/
theorem refs_mapRefs (f : Ref → Value) (v : Value) :
    (v.mapRefs f).refs = v.refs.flatMap fun ref => (f ref).refs := by
  induction v using containerInduction with
  | leaf v h => cases v <;> simp_all [isContainer, mapRefs, refs]
  | list items ih | tuple items ih | set items ih | frozenset items ih =>
    simp only [mapRefs, mapRefsIn_eq, refs, refsIn_eq, List.flatMap_map, List.flatMap_assoc]
    exact List.flatMap_congr ih
  | dict entries ih =>
    simp only [mapRefs, mapRefsInEntries_eq, refs, refsInEntries_eq, List.flatMap_map,
      List.flatMap_assoc, List.flatMap_append]
    exact List.flatMap_congr fun e m => by rw [(ih e m).1, (ih e m).2]

/-- What is iterated out of a value refers to nothing that the value does not refer to. -/
theorem refs_of_mem_items? {v item : Value} {items : List Value} (given : v.items? = some items)
    (member : item ∈ items) {ref : Ref} (held : ref ∈ item.refs) : ref ∈ v.refs := by
  cases v with
  | list all | tuple all | set all | frozenset all =>
    obtain rfl : all = items := by simpa [items?] using given
    simpa only [refs, refsIn_eq, List.mem_flatMap] using ⟨item, member, held⟩
  | dict entries =>
    obtain rfl : entries.map Prod.fst = items := by simpa [items?] using given
    obtain ⟨entry, there, rfl⟩ := List.mem_map.mp member
    simp only [refs, refsInEntries_eq, List.mem_flatMap, List.mem_append]
    exact ⟨entry, there, .inl held⟩
  | str text =>
    obtain rfl : characters text = items := by simpa [items?] using given
    obtain ⟨c, -, rfl⟩ := List.mem_map.mp member
    simp [refs] at held
  | bytes content | bytearray content =>
    obtain rfl : byteNumbers content = items := by simpa [items?] using given
    obtain ⟨b, -, rfl⟩ := List.mem_map.mp member
    simp [refs] at held
  | range start stop step =>
    simp only [items?, Option.some.injEq] at given
    subst given
    obtain ⟨i, -, rfl⟩ := List.mem_map.mp member
    simp [refs] at held
  | _ => simp [items?] at given

end Value

end FirstSeen
