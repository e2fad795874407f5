import FirstSeen.Proofs.Value.Containers
import FirstSeen.Equality
import Mathlib.Data.Fintype.EquivFin

/-!
# Alikeness

Two values are *alike* if they are the same object or equal. This module says what that means without
asking how it is found out: values that hold no others are alike if they have the same essence, lists and
tuples if they are so item by item, sets if each member of one is alike to a member of the other, and
dictionaries likewise with their entries. Alikeness is an equivalence.

A value is *regular* if it holds no probe and its sets and dictionaries are made as they must be: of
hashable members or keys, no two of them alike.
-/

set_option autoImplicit false

namespace FirstSeen

namespace Value

/-- What a value that holds no others comes to, whatever its type. -/
inductive Essence where
  | null
  | number (n : Numeral)
  | nan (identity : Identity)
  | text (s : String)
  | bytes (content : List UInt8)
  | probe (identity : Identity)
  | range (key : Nat × Option Int × Option Int)
  | object (ref : Ref)
deriving DecidableEq

/-- The essence of a value, unless it is a container. -/
def essence? : Value → Option Essence
  | null => some .null
  | bool b => some (.number (.whole (if b then 1 else 0)))
  | int n => some (.number (.whole n))
  | float x => some (.number (.ofFloat x))
  | nan identity => some (.nan identity)
  | str text => some (.text text)
  | bytes content | bytearray content => some (.bytes content)
  | probe p => some (.probe p.identity)
  | range start stop step => some (.range (rangeKey start stop step))
  | object ref => some (.object ref)
  | list _ | tuple _ | dict _ | set _ | frozenset _ => none

mutual

/-- Whether two values are the same object or equal. -/
def Alike : Value → Value → Prop
  | list xs, other =>
    match other with
    | list ys => AlikeItems xs ys
    | _ => False
  | tuple xs, other =>
    match other with
    | tuple ys => AlikeItems xs ys
    | _ => False
  | set xs, other =>
    match other.members? with
    | some ys => xs.length = ys.length ∧ HaveAlike xs ys ∧ ∀ y ∈ ys, SomeAlike xs y
    | none => False
  | frozenset xs, other =>
    match other.members? with
    | some ys => xs.length = ys.length ∧ HaveAlike xs ys ∧ ∀ y ∈ ys, SomeAlike xs y
    | none => False
  | dict xs, other =>
    match other with
    | dict ys => xs.length = ys.length ∧ EntriesHaveAlike xs ys ∧ ∀ e ∈ ys, SomeEntryAlike xs e
    | _ => False
  | x, y => x.essence? = y.essence?
termination_by structural x => x

/-- Whether two lists of values are alike item by item. -/
def AlikeItems : List Value → List Value → Prop
  | [], ys => ys = []
  | x :: xs, ys =>
    match ys with
    | [] => False
    | y :: rest => Alike x y ∧ AlikeItems xs rest
termination_by structural xs => xs

/-- Whether each value of a list is alike to one of another list. -/
def HaveAlike : List Value → List Value → Prop
  | [], _ => True
  | x :: xs, ys => (∃ y ∈ ys, Alike x y) ∧ HaveAlike xs ys
termination_by structural xs => xs

/-- Whether one value of a list is alike to a value. -/
def SomeAlike : List Value → Value → Prop
  | [], _ => False
  | x :: xs, y => Alike x y ∨ SomeAlike xs y
termination_by structural xs => xs

/-- Whether each entry of a dictionary is alike to one of another dictionary. -/
def EntriesHaveAlike : List (Value × Value) → List (Value × Value) → Prop
  | [], _ => True
  | (k, v) :: xs, ys => (∃ e ∈ ys, Alike k e.1 ∧ Alike v e.2) ∧ EntriesHaveAlike xs ys
termination_by structural xs => xs

/-- Whether one entry of a dictionary is alike to an entry. -/
def SomeEntryAlike : List (Value × Value) → Value × Value → Prop
  | [], _ => False
  | (k, v) :: xs, e => (Alike k e.1 ∧ Alike v e.2) ∨ SomeEntryAlike xs e
termination_by structural xs => xs

end

mutual

/-- Whether a value holds no probe, and only sets and dictionaries of hashable members or keys that are
not alike. -/
def Regular : Value → Prop
  | probe _ => False
  | list items | tuple items => RegularItems items
  | set members | frozenset members =>
    RegularItems members ∧ (∀ v ∈ members, isHashable v) ∧ members.Pairwise fun x y => ¬ Alike x y
  | dict entries =>
    RegularEntries entries ∧ (∀ e ∈ entries, isHashable e.1) ∧
      entries.Pairwise fun d e => ¬ Alike d.1 e.1
  | _ => True

/-- Whether all of the values are regular. -/
def RegularItems : List Value → Prop
  | [] => True
  | v :: rest => Regular v ∧ RegularItems rest

/-- Whether all of the entries are regular. -/
def RegularEntries : List (Value × Value) → Prop
  | [] => True
  | (k, v) :: rest => Regular k ∧ Regular v ∧ RegularEntries rest

end

section Equations

-- The equations of these definitions are derived here, once for all the proofs that unfold them.
attribute [local simp] Alike AlikeItems HaveAlike SomeAlike EntriesHaveAlike SomeEntryAlike Regular RegularItems
  RegularEntries

end Equations

/-! ## The parts of a container -/

theorem alikeItems_iff {xs ys : List Value} : AlikeItems xs ys ↔ List.Forall₂ Alike xs ys := by
  induction xs generalizing ys with
  | nil => simp [AlikeItems]
  | cons x xs ih => cases ys <;> simp [AlikeItems, ih]

theorem haveAlike_iff {xs ys : List Value} : HaveAlike xs ys ↔ ∀ x ∈ xs, ∃ y ∈ ys, Alike x y := by
  induction xs with
  | nil => simp [HaveAlike]
  | cons x xs ih => simp [HaveAlike, ih]

theorem someAlike_iff {xs : List Value} {y : Value} : SomeAlike xs y ↔ ∃ x ∈ xs, Alike x y := by
  induction xs with
  | nil => simp [SomeAlike]
  | cons x xs ih => simp [SomeAlike, ih]

theorem entriesHaveAlike_iff {xs ys : List (Value × Value)} :
    EntriesHaveAlike xs ys ↔ ∀ d ∈ xs, ∃ e ∈ ys, Alike d.1 e.1 ∧ Alike d.2 e.2 := by
  induction xs with
  | nil => simp [EntriesHaveAlike]
  | cons x xs ih => simp [EntriesHaveAlike, ih]

theorem someEntryAlike_iff {xs : List (Value × Value)} {e : Value × Value} :
    SomeEntryAlike xs e ↔ ∃ d ∈ xs, Alike d.1 e.1 ∧ Alike d.2 e.2 := by
  induction xs with
  | nil => simp [SomeEntryAlike]
  | cons x xs ih => simp [SomeEntryAlike, ih]

theorem regularItems_iff {items : List Value} : RegularItems items ↔ ∀ v ∈ items, Regular v := by
  induction items with
  | nil => simp [RegularItems]
  | cons v rest ih => simp [RegularItems, ih]

theorem regularEntries_iff {entries : List (Value × Value)} :
    RegularEntries entries ↔ ∀ e ∈ entries, Regular e.1 ∧ Regular e.2 := by
  induction entries with
  | nil => simp [RegularEntries]
  | cons e rest ih => simp [RegularEntries, ih, and_assoc]

/-! ## Alikeness by the form of a value -/

theorem alike_leaf_iff {x y : Value} (leaf : x.isContainer = false) :
    Alike x y ↔ x.essence? = y.essence? := by
  cases x with
  | list | tuple | dict | set | frozenset => cases leaf
  | _ => exact Iff.rfl

theorem alike_list_iff {xs : List Value} {y : Value} :
    Alike (list xs) y ↔ ∃ ys, y = list ys ∧ List.Forall₂ Alike xs ys := by
  cases y with
  | list => simp [Alike, alikeItems_iff]
  | _ => exact iff_of_false id (by rintro ⟨_, form, -⟩; cases form)

theorem alike_tuple_iff {xs : List Value} {y : Value} :
    Alike (tuple xs) y ↔ ∃ ys, y = tuple ys ∧ List.Forall₂ Alike xs ys := by
  cases y with
  | tuple => simp [Alike, alikeItems_iff]
  | _ => exact iff_of_false id (by rintro ⟨_, form, -⟩; cases form)

/-- Whether two lists have as many members, and each member of one is alike to one of the other. -/
def SameMembers (xs ys : List Value) : Prop :=
  xs.length = ys.length ∧ (∀ x ∈ xs, ∃ y ∈ ys, Alike x y) ∧ ∀ y ∈ ys, ∃ x ∈ xs, Alike x y

/-- Whether two dictionaries have as many entries, and each entry of one is alike to one of the
other. -/
def SameEntries (xs ys : List (Value × Value)) : Prop :=
  xs.length = ys.length ∧ (∀ d ∈ xs, ∃ e ∈ ys, Alike d.1 e.1 ∧ Alike d.2 e.2) ∧
    ∀ e ∈ ys, ∃ d ∈ xs, Alike d.1 e.1 ∧ Alike d.2 e.2

theorem alike_set_iff {xs : List Value} {y : Value} :
    Alike (set xs) y ↔ ∃ ys, y.members? = some ys ∧ SameMembers xs ys := by
  simp only [Alike, SameMembers]
  cases y.members? <;> simp [haveAlike_iff, someAlike_iff]

theorem alike_frozenset_iff {xs : List Value} {y : Value} :
    Alike (frozenset xs) y ↔ ∃ ys, y.members? = some ys ∧ SameMembers xs ys := by
  simp only [Alike, SameMembers]
  cases y.members? <;> simp [haveAlike_iff, someAlike_iff]

theorem alike_dict_iff {xs : List (Value × Value)} {y : Value} :
    Alike (dict xs) y ↔ ∃ ys, y = dict ys ∧ SameEntries xs ys := by
  cases y with
  | dict => simp [Alike, SameEntries, entriesHaveAlike_iff, someEntryAlike_iff]
  | _ => exact iff_of_false id (by rintro ⟨_, form, -⟩; cases form)

/-- The sort of a set does not matter. -/
theorem alike_members_iff {x y : Value} {xs : List Value} (members : x.members? = some xs) :
    Alike x y ↔ ∃ ys, y.members? = some ys ∧ SameMembers xs ys := by
  cases x with
  | set all =>
    obtain rfl : all = xs := by simpa [members?] using members
    exact alike_set_iff
  | frozenset all =>
    obtain rfl : all = xs := by simpa [members?] using members
    exact alike_frozenset_iff
  | _ => simp [members?] at members

/-! ## An equivalence -/

theorem alike_refl (x : Value) : Alike x x := by
  induction x using containerInduction with
  | leaf x h => exact (alike_leaf_iff h).mpr rfl
  | list xs ih => exact alike_list_iff.mpr ⟨xs, rfl, List.forall₂_same.mpr ih⟩
  | tuple xs ih => exact alike_tuple_iff.mpr ⟨xs, rfl, List.forall₂_same.mpr ih⟩
  | set xs ih =>
    exact alike_set_iff.mpr ⟨xs, rfl, rfl, fun x m => ⟨x, m, ih x m⟩, fun x m => ⟨x, m, ih x m⟩⟩
  | frozenset xs ih =>
    exact alike_frozenset_iff.mpr ⟨xs, rfl, rfl, fun x m => ⟨x, m, ih x m⟩, fun x m => ⟨x, m, ih x m⟩⟩
  | dict xs ih =>
    exact alike_dict_iff.mpr ⟨xs, rfl, rfl, fun e m => ⟨e, m, ih e m⟩, fun e m => ⟨e, m, ih e m⟩⟩

/-- Lists that correspond item by item do so the other way round, if their items do. -/
theorem forall₂_symm_of_mem {xs ys : List Value} (h : List.Forall₂ Alike xs ys)
    (symm : ∀ x ∈ xs, ∀ y, Alike x y → Alike y x) : List.Forall₂ Alike ys xs := by
  induction h with
  | nil => exact .nil
  | cons first _ ih =>
    exact .cons (symm _ (by simp) _ first) (ih fun x m => symm x (by simp [m]))

/-- Lists that correspond item by item are in a chain, if their items are. -/
theorem forall₂_trans_of_mem {xs ys zs : List Value} (h : List.Forall₂ Alike xs ys)
    (k : List.Forall₂ Alike ys zs) (trans : ∀ x ∈ xs, ∀ y z, Alike x y → Alike y z → Alike x z) :
    List.Forall₂ Alike xs zs := by
  induction h generalizing zs with
  | nil => exact k
  | cons first _ ih =>
    cases k with
    | cons second rest =>
      exact .cons (trans _ (by simp) _ _ first second) (ih rest fun x m => trans x (by simp [m]))

theorem essence?_isSome {x : Value} : x.essence?.isSome = !x.isContainer := by
  cases x <;> rfl

theorem Alike.symm {x y : Value} (h : Alike x y) : Alike y x := by
  induction x using containerInduction generalizing y with
  | leaf x leaf =>
    rw [alike_leaf_iff leaf] at h
    have leaf' : y.isContainer = false := by
      have := congrArg Option.isSome h
      simpa [essence?_isSome, leaf] using this
    exact (alike_leaf_iff leaf').mpr h.symm
  | list xs ih =>
    obtain ⟨ys, rfl, items⟩ := alike_list_iff.mp h
    exact alike_list_iff.mpr ⟨xs, rfl, forall₂_symm_of_mem items fun x m _ => ih x m⟩
  | tuple xs ih =>
    obtain ⟨ys, rfl, items⟩ := alike_tuple_iff.mp h
    exact alike_tuple_iff.mpr ⟨xs, rfl, forall₂_symm_of_mem items fun x m _ => ih x m⟩
  | set xs ih | frozenset xs ih =>
    obtain ⟨ys, members, length, there, back⟩ := (alike_members_iff rfl).mp h
    refine (alike_members_iff members).mpr ⟨xs, rfl, length.symm, fun y m => ?_, fun x m => ?_⟩
    · obtain ⟨x, inside, same⟩ := back y m
      exact ⟨x, inside, ih x inside same⟩
    · obtain ⟨y, inside, same⟩ := there x m
      exact ⟨y, inside, ih x m same⟩
  | dict xs ih =>
    obtain ⟨ys, rfl, length, there, back⟩ := alike_dict_iff.mp h
    refine alike_dict_iff.mpr ⟨xs, rfl, length.symm, fun e m => ?_, fun d m => ?_⟩
    · obtain ⟨d, inside, key, value⟩ := back e m
      exact ⟨d, inside, (ih d inside).1 key, (ih d inside).2 value⟩
    · obtain ⟨e, inside, key, value⟩ := there d m
      exact ⟨e, inside, (ih d m).1 key, (ih d m).2 value⟩

theorem Alike.trans {x y z : Value} (h : Alike x y) (k : Alike y z) : Alike x z := by
  induction x using containerInduction generalizing y z with
  | leaf x leaf =>
    rw [alike_leaf_iff leaf] at h ⊢
    have leaf' : y.isContainer = false := by
      have := congrArg Option.isSome h
      simpa [essence?_isSome, leaf] using this
    exact h.trans ((alike_leaf_iff leaf').mp k)
  | list xs ih =>
    obtain ⟨ys, rfl, items⟩ := alike_list_iff.mp h
    obtain ⟨zs, rfl, items'⟩ := alike_list_iff.mp k
    exact alike_list_iff.mpr ⟨zs, rfl, forall₂_trans_of_mem items items' fun x m _ _ => ih x m⟩
  | tuple xs ih =>
    obtain ⟨ys, rfl, items⟩ := alike_tuple_iff.mp h
    obtain ⟨zs, rfl, items'⟩ := alike_tuple_iff.mp k
    exact alike_tuple_iff.mpr ⟨zs, rfl, forall₂_trans_of_mem items items' fun x m _ _ => ih x m⟩
  | set xs ih | frozenset xs ih =>
    obtain ⟨ys, members, length, there, back⟩ := (alike_members_iff rfl).mp h
    obtain ⟨zs, members', length', there', back'⟩ := (alike_members_iff members).mp k
    refine (alike_members_iff rfl).mpr ⟨zs, members', length.trans length', fun x m => ?_,
      fun z m => ?_⟩
    · obtain ⟨y, inside, same⟩ := there x m
      obtain ⟨z, inside', same'⟩ := there' y inside
      exact ⟨z, inside', ih x m same same'⟩
    · obtain ⟨y, inside, same⟩ := back' z m
      obtain ⟨x, inside', same'⟩ := back y inside
      exact ⟨x, inside', ih x inside' same' same⟩
  | dict xs ih =>
    obtain ⟨ys, rfl, length, there, back⟩ := alike_dict_iff.mp h
    obtain ⟨zs, rfl, length', there', back'⟩ := alike_dict_iff.mp k
    refine alike_dict_iff.mpr ⟨zs, rfl, length.trans length', fun d m => ?_, fun f m => ?_⟩
    · obtain ⟨e, inside, key, value⟩ := there d m
      obtain ⟨f, inside', key', value'⟩ := there' e inside
      exact ⟨f, inside', (ih d m).1 key key', (ih d m).2 value value'⟩
    · obtain ⟨e, inside, key, value⟩ := back' f m
      obtain ⟨d, inside', key', value'⟩ := back e inside
      exact ⟨d, inside', (ih d inside').1 key' key, (ih d inside').2 value' value⟩

/-! ## Counting partners -/

/-- If no two of some items have a partner in common, and each has one among as many others, then each
of the others is the partner of an item. -/
theorem all_partners {α : Type} (Partner : α → α → Prop) {xs ys : List α}
    (length : xs.length = ys.length) (there : ∀ x ∈ xs, ∃ y ∈ ys, Partner x y)
    (apart : xs.Pairwise fun x x' => ∀ y ∈ ys, Partner x y → ¬ Partner x' y) :
    ∀ y ∈ ys, ∃ x ∈ xs, Partner x y := by
  have choice : ∀ i : Fin xs.length, ∃ j : Fin xs.length, Partner xs[i] (ys.get (j.cast length)) := by
    intro i
    obtain ⟨y, member, partner⟩ := there xs[i] (List.getElem_mem _)
    obtain ⟨j, bound, rfl⟩ := List.getElem_of_mem member
    exact ⟨⟨j, length ▸ bound⟩, partner⟩
  choose f partner using choice
  have injective : Function.Injective f := by
    intro i j same
    by_contra different
    have ordered := List.pairwise_iff_getElem.mp apart
    rcases Nat.lt_or_gt_of_ne (fun h => different (Fin.ext h)) with lt | lt
    · exact ordered i j i.isLt j.isLt lt _ (List.getElem_mem _) (partner i) (same ▸ partner j)
    · exact ordered j i j.isLt i.isLt lt _ (List.getElem_mem _) (partner j) (same ▸ partner i)
  intro y member
  obtain ⟨j, bound, rfl⟩ := List.getElem_of_mem member
  obtain ⟨i, hit⟩ := Finite.injective_iff_surjective.mp injective ⟨j, length ▸ bound⟩
  have met := partner i
  simp only [hit] at met
  exact ⟨xs[i], List.getElem_mem _, met⟩

end Value

end FirstSeen
