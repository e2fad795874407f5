import FirstSeen.Proofs.Equality.Alike

/-!
# Comparison decides alikeness

Comparing regular values never fails, in whichever direction it is made, and its answer is whether they
are alike. The short cuts do not show: regular values that are one object are alike, and alike values
that can be hashed hash alike, so that a look-up among hashed members misses none of them.
-/

set_option autoImplicit false

namespace FirstSeen

namespace Value

/-- A result is an answer, which tells whether a proposition holds. -/
def Decides (result : Except Fault Bool) (p : Prop) : Prop :=
  ∃ answer, result = .ok answer ∧ (answer = true ↔ p)

/-! ## Deciding step by step -/

namespace Decides

variable {p q : Prop} {result : Except Fault Bool}

/-- An answer decides what it says. -/
theorem ok {answer : Bool} (h : answer = true ↔ p) : Decides (.ok answer) p := ⟨answer, rfl, h⟩

/-- What decides a proposition decides an equivalent one. -/
theorem congr (h : Decides result p) (same : p ↔ q) : Decides result q := by
  obtain ⟨answer, rfl, correct⟩ := h
  exact ok (correct.trans same)

/-- A conjunction is decided by its second part if the first one holds. -/
theorem andThen {next : Except Fault Bool} (h : Decides result p) (k : p → Decides next q) :
    Decides (do if ← result then next else return false) (p ∧ q) := by
  obtain ⟨answer, rfl, correct⟩ := h
  cases answer with
  | true =>
    have holds : p := correct.mp rfl
    exact (k holds).congr ⟨fun hq => ⟨holds, hq⟩, fun both => both.2⟩
  | false => exact ok (by simpa using fun holds => absurd (correct.mpr holds) Bool.false_ne_true)

/-- A disjunction is decided by its second part if the first one fails. -/
theorem orElse {next : Except Fault Bool} (h : Decides result p) (k : Decides next q) :
    Decides (do if ← result then return true else next) (p ∨ q) := by
  obtain ⟨answer, rfl, correct⟩ := h
  cases answer with
  | true => exact ok (by simp [correct.mp rfl])
  | false => exact k.congr (by simp [show ¬ p from fun holds => by simpa using correct.mpr holds])

/-- A search for a candidate that passes a test decides whether there is one. -/
theorem search {α : Type} {test : α → Except Fault Bool} {P : α → Prop} {candidates : List α}
    (h : ∀ a ∈ candidates, Decides (test a) (P a)) :
    Decides (Value.search test candidates) (∃ a ∈ candidates, P a) := by
  induction candidates with
  | nil => exact ok (by simp)
  | cons a rest ih =>
    simp only [List.exists_mem_cons_iff]
    exact orElse (h a (by simp)) (ih fun b m => h b (by simp [m]))

/-- A test of all candidates decides whether all of them pass it. -/
theorem searchAll {α : Type} {test : α → Except Fault Bool} {P : α → Prop} {candidates : List α}
    (h : ∀ a ∈ candidates, Decides (test a) (P a)) :
    Decides (Value.searchAll test candidates) (∀ a ∈ candidates, P a) := by
  induction candidates with
  | nil => exact ok (by simp)
  | cons a rest ih =>
    simp only [List.forall_mem_cons]
    exact andThen (h a (by simp)) fun _ => ih fun b m => h b (by simp [m])

/-- Values that hash differently need no test if what is tested makes them hash alike. -/
theorem ifSameHash {x y : Value} {test : Unit → Except Fault Bool} (h : Decides (test ()) p)
    (hashes : p → sameHash x y = true) : Decides (Value.ifSameHash x y test) p := by
  unfold Value.ifSameHash
  split
  · exact h
  · exact ok (by simpa using fun holds => absurd (hashes holds) ‹_›)

end Decides

/-- A search for the first candidate that passes a test finds one that does, unless there is none. -/
theorem searchFirst_spec {α : Type} {test : α → Except Fault Bool} {P : α → Prop}
    {candidates : List α} (h : ∀ a ∈ candidates, Decides (test a) (P a)) :
    ∃ found, searchFirst test candidates = .ok found ∧
      match found with
      | some a => a ∈ candidates ∧ P a
      | none => ∀ a ∈ candidates, ¬ P a := by
  induction candidates with
  | nil => exact ⟨none, rfl, by simp⟩
  | cons a rest ih =>
    obtain ⟨found, ends, correct⟩ := ih fun b m => h b (by simp [m])
    obtain ⟨answer, tested, tells⟩ := h a (by simp)
    cases answer with
    | true => exact ⟨some a, by rw [searchFirst, tested]; rfl, by simp, tells.mp rfl⟩
    | false =>
      refine ⟨found, by rw [searchFirst, tested]; exact ends, ?_⟩
      cases found with
      | some b => exact ⟨by simp [correct.1], correct.2⟩
      | none =>
        exact List.forall_mem_cons.mpr ⟨fun holds => by simpa using tells.mpr holds, correct⟩

/-! ## Hashing -/

theorem itemsHashFault?_eq_none {items : List Value} :
    itemsHashFault? items = none ↔ ∀ v ∈ items, v.isHashable := by
  induction items with
  | nil => simp [itemsHashFault?]
  | cons v rest ih =>
    rw [List.forall_mem_cons, ← ih, itemsHashFault?, isHashable]
    cases hashFault? v <;> simp

theorem isHashable_tuple {items : List Value} :
    (tuple items).isHashable ↔ ∀ v ∈ items, v.isHashable := by
  rw [← itemsHashFault?_eq_none, isHashable, hashFault?, Option.isNone_iff_eq_none]

theorem sameHashes_iff {xs ys : List Value} :
    sameHashes xs ys = true ↔ List.Forall₂ (fun x y => sameHash x y = true) xs ys := by
  induction xs generalizing ys with
  | nil => simp [sameHashes]
  | cons x xs ih => cases ys <;> simp [sameHashes, ih]

theorem allHashedIn_iff {xs ys : List Value} :
    allHashedIn xs ys = true ↔ ∀ x ∈ xs, ∃ y ∈ ys, sameHash x y = true := by
  induction xs with
  | nil => simp [allHashedIn]
  | cons x xs ih => simp [allHashedIn, ih]

/-- The members of a regular set are regular and hashable, and no two of them are alike. -/
theorem Regular.members {x : Value} {xs : List Value} (h : Regular x) (members : x.members? = some xs) :
    (∀ v ∈ xs, Regular v) ∧ (∀ v ∈ xs, isHashable v) ∧ xs.Pairwise fun v w => ¬ Alike v w := by
  cases x with
  | set all | frozenset all =>
    obtain rfl : all = xs := by simpa [members?] using members
    exact ⟨regularItems_iff.mp h.1, h.2⟩
  | _ => simp [members?] at members

/-- The entries of a regular dictionary are regular, their keys hashable, and no two keys alike. -/
theorem Regular.entries {xs : List (Value × Value)} (h : Regular (dict xs)) :
    (∀ e ∈ xs, Regular e.1 ∧ Regular e.2) ∧ (∀ e ∈ xs, isHashable e.1) ∧
      xs.Pairwise fun d e => ¬ Alike d.1 e.1 :=
  ⟨regularEntries_iff.mp h.1, h.2⟩

/-- Alike values that can be hashed hash alike. -/
theorem sameHash_of_alike {x y : Value} (regular : Regular x) (regular' : Regular y)
    (hashable : x.isHashable) (hashable' : y.isHashable) (alike : Alike x y) :
    sameHash x y = true := by
  induction x using containerInduction generalizing y with
  | leaf x leaf =>
    rw [alike_leaf_iff leaf] at alike
    cases x <;> cases y <;>
      simp_all [essence?, sameHash, hashCode?, isHashable, hashFault?, isContainer, Regular]
  | list xs _ => simp [isHashable, hashFault?] at hashable
  | tuple xs ih =>
    obtain ⟨ys, rfl, items⟩ := alike_tuple_iff.mp alike
    rw [isHashable_tuple] at hashable hashable'
    rw [Regular, regularItems_iff] at regular regular'
    rw [sameHash, sameHashes_iff]
    clear alike
    induction items with
    | nil => exact .nil
    | cons first _ rest =>
      simp only [List.forall_mem_cons] at ih hashable hashable' regular regular'
      exact .cons (ih.1 regular.1 regular'.1 hashable.1 hashable'.1 first)
        (rest ih.2 regular.2 hashable.2 regular'.2 hashable'.2)
  | dict xs _ => simp [isHashable, hashFault?] at hashable
  | set xs _ => simp [isHashable, hashFault?] at hashable
  | frozenset xs ih =>
    obtain ⟨ys, members, length, there, -⟩ := alike_frozenset_iff.mp alike
    cases y with
    | frozenset all =>
      obtain rfl : all = ys := by simpa [members?] using members
      obtain ⟨regularMembers, hashableMembers, -⟩ := regular.members rfl
      obtain ⟨regularMembers', hashableMembers', -⟩ := regular'.members rfl
      rw [sameHash, Bool.and_eq_true, beq_iff_eq, allHashedIn_iff]
      refine ⟨length, fun v m => ?_⟩
      obtain ⟨w, inside, same⟩ := there v m
      exact ⟨w, inside, ih v m (regularMembers v m) (regularMembers' w inside) (hashableMembers v m)
        (hashableMembers' w inside) same⟩
    | set all => simp [isHashable, hashFault?] at hashable'
    | _ => simp [members?] at members

/-! ## Comparison -/

/-- Among entries whose keys are not alike, alike keys belong to one entry. -/
theorem entry_unique {xs : List (Value × Value)} (apart : xs.Pairwise fun d e => ¬ Alike d.1 e.1)
    {d e : Value × Value} (left : d ∈ xs) (right : e ∈ xs) (alike : Alike d.1 e.1) : d = e := by
  have unique : ∀ d ∈ xs, ∀ e ∈ xs, Alike d.1 e.1 → d = e :=
    List.Pairwise.forall_of_forall_of_flip (fun _ _ _ => rfl) (apart.imp fun h k => absurd k h)
      (apart.imp fun h k => absurd k.symm h)
  exact unique d left e right alike

/-- Comparison of two values of which not both are containers of one sort, if none is a probe. -/
theorem decides_equalOthers {flipped : Bool} {x y : Value} {p : Prop} (regular : Regular x)
    (regular' : Regular y) (h : equalAtoms x y = true ↔ p) :
    Decides (equalOthers flipped x y) p := by
  have noProbe : (x.isProbe || y.isProbe) = false := by
    cases x <;> cases y <;> simp_all [Regular, isProbe]
  rw [equalOthers, if_neg (by simp [noProbe])]
  exact .ok h

/-- The short cut for one object decides what the comparison decides. -/
theorem decides_same_leaf {flipped : Bool} {x y : Value} (leaf : x.isContainer = false)
    (regular : Regular x) (regular' : Regular y) : Decides (same flipped x y) (Alike x y) := by
  rw [alike_leaf_iff leaf, same, unlessIdentical]
  split
  · refine .ok ?_
    cases x <;> cases y <;> simp_all [identical, essence?]
  · have compared : equal flipped x y = equalOthers flipped x y := by
      cases x <;> simp_all [isContainer, equal]
    rw [compared]
    refine decides_equalOthers regular regular' ?_
    cases x <;> cases y <;>
      simp_all [identical, essence?, equalAtoms, numeral?, isContainer, Regular]

section Parts

variable {flipped : Bool}

/-- Item by item, a comparison decides alikeness if it does so for each item. -/
theorem decides_equalItems {xs ys : List Value}
    (h : ∀ x ∈ xs, ∀ y ∈ ys, Decides (same flipped x y) (Alike x y)) :
    Decides (equalItems flipped xs ys) (List.Forall₂ Alike xs ys) := by
  induction xs generalizing ys with
  | nil => exact .ok (by simp)
  | cons x xs ih =>
    cases ys with
    | nil => exact .ok (by simp)
    | cons y ys =>
      rw [equalItems, List.forall₂_cons]
      exact .andThen (h x (by simp) y (by simp)) fun _ =>
        ih fun v m w n => h v (by simp [m]) w (by simp [n])

/-- The members of the left set are looked up in the right one. -/
theorem decides_membersIn {xs ys : List Value}
    (h : ∀ x ∈ xs, ∀ y ∈ ys, Decides (ifSameHash x y fun _ => same true x y) (Alike x y)) :
    Decides (membersIn xs ys) (∀ x ∈ xs, ∃ y ∈ ys, Alike x y) := by
  induction xs with
  | nil => exact .ok (by simp)
  | cons x xs ih =>
    rw [membersIn, List.forall_mem_cons]
    exact .andThen (.search (h x (by simp))) fun _ => ih fun v m => h v (by simp [m])

/-- The look-up of one member tries those that are there in order. -/
theorem decides_hasMember {xs : List Value} {y : Value}
    (h : ∀ x ∈ xs, Decides (ifSameHash x y fun _ => same false x y) (Alike x y)) :
    Decides (hasMember xs y) (∃ x ∈ xs, Alike x y) := by
  induction xs with
  | nil => exact .ok (by simp)
  | cons x xs ih =>
    rw [hasMember, List.exists_mem_cons_iff]
    exact .orElse (h x (by simp)) (ih fun v m => h v (by simp [m]))

/-- The keys of the left dictionary are looked up in the right one, and their values compared. Since only
one entry has the key that is sought, the first one found decides. -/
theorem decides_entriesIn {xs ys : List (Value × Value)}
    (apart : ys.Pairwise fun d e => ¬ Alike d.1 e.1)
    (keys : ∀ d ∈ xs, ∀ e ∈ ys, Decides (ifSameHash d.1 e.1 fun _ => same true d.1 e.1) (Alike d.1 e.1))
    (values : ∀ d ∈ xs, ∀ e ∈ ys, Decides (same true d.2 e.2) (Alike d.2 e.2)) :
    Decides (entriesIn xs ys) (∀ d ∈ xs, ∃ e ∈ ys, Alike d.1 e.1 ∧ Alike d.2 e.2) := by
  induction xs with
  | nil => exact .ok (by simp)
  | cons d xs ih =>
    specialize ih (fun v m => keys v (by simp [m])) fun v m => values v (by simp [m])
    obtain ⟨found, ends, correct⟩ := searchFirst_spec (keys d (by simp))
    rw [entriesIn, List.forall_mem_cons]
    simp only [same] at ends
    rw [ends]
    cases found with
    | none => exact .ok (by simpa using fun k v there alike => absurd alike (correct (k, v) there))
    | some e =>
      obtain ⟨there, key⟩ := correct
      refine (Decides.andThen (values d (by simp) e there) fun _ => ih).congr ?_
      refine and_congr_left fun _ => ⟨fun value => ⟨e, there, key, value⟩, ?_⟩
      rintro ⟨e', there', key', value⟩
      rwa [entry_unique apart there there' (key.symm.trans key')]

/-- The look-up of one entry finds the entry of its key first and then compares the values. -/
theorem decides_hasEntry {xs : List (Value × Value)} {e : Value × Value}
    (apart : xs.Pairwise fun d e => ¬ Alike d.1 e.1)
    (keys : ∀ d ∈ xs, Decides (ifSameHash d.1 e.1 fun _ => same false d.1 e.1) (Alike d.1 e.1))
    (values : ∀ d ∈ xs, Decides (same false d.2 e.2) (Alike d.2 e.2)) :
    Decides (hasEntry xs e) (∃ d ∈ xs, Alike d.1 e.1 ∧ Alike d.2 e.2) := by
  induction xs with
  | nil => exact .ok (by simp)
  | cons d xs ih =>
    specialize ih apart.of_cons (fun v m => keys v (by simp [m])) fun v m => values v (by simp [m])
    obtain ⟨answer, ends, correct⟩ := keys d (by simp)
    rw [hasEntry]
    simp only [same] at ends
    rw [ends]
    cases answer with
    | false =>
      refine ih.congr ?_
      simp [show ¬ Alike d.1 e.1 from fun holds => by simpa using correct.mpr holds]
    | true =>
      have key := correct.mp rfl
      refine (values d (by simp)).congr ⟨fun value => ⟨d, by simp, key, value⟩, ?_⟩
      rintro ⟨d', there, key', value⟩
      rwa [entry_unique apart List.mem_cons_self there (key.trans key'.symm)]

end Parts

/-- Comparing sets, whichever of the two is looked through. -/
theorem decides_equal_members {flipped : Bool} {xs ys : List Value}
    (apart : xs.Pairwise fun v w => ¬ Alike v w) (apart' : ys.Pairwise fun v w => ¬ Alike v w)
    (h : ∀ x ∈ xs, ∀ y ∈ ys, ∀ flipped,
      Decides (ifSameHash x y fun _ => same flipped x y) (Alike x y)) :
    Decides (if xs.length = ys.length then
        if flipped then searchAll (fun y => hasMember xs y) ys else membersIn xs ys
      else .ok false) (SameMembers xs ys) := by
  split
  · rename_i length
    split
    · refine (Decides.searchAll fun y m => decides_hasMember fun x n => h x n y m false).congr ?_
      refine ⟨fun back => ⟨length, fun x m => ?_, back⟩, fun same => same.2.2⟩
      obtain ⟨y, there, partner⟩ := all_partners (fun y x => Alike x y) length.symm back
        (apart'.imp fun h x _ k k' => h (k.symm.trans k')) x m
      exact ⟨y, there, partner⟩
    · refine (decides_membersIn fun x m y n => h x m y n true).congr ?_
      exact ⟨fun there => ⟨length, there, all_partners _ length there
        (apart.imp fun h y _ k k' => h (k.trans k'.symm))⟩, fun same => same.2.1⟩
  · exact .ok (by simp_all [SameMembers])

/-- Comparing dictionaries, whichever of the two is looked through. -/
theorem decides_equal_entries {flipped : Bool} {xs ys : List (Value × Value)}
    (apart : xs.Pairwise fun d e => ¬ Alike d.1 e.1)
    (apart' : ys.Pairwise fun d e => ¬ Alike d.1 e.1)
    (keys : ∀ d ∈ xs, ∀ e ∈ ys, ∀ flipped,
      Decides (ifSameHash d.1 e.1 fun _ => same flipped d.1 e.1) (Alike d.1 e.1))
    (values : ∀ d ∈ xs, ∀ e ∈ ys, ∀ flipped, Decides (same flipped d.2 e.2) (Alike d.2 e.2)) :
    Decides (if xs.length = ys.length then
        if flipped then searchAll (fun entry => hasEntry xs entry) ys else entriesIn xs ys
      else .ok false) (SameEntries xs ys) := by
  split
  · rename_i length
    split
    · refine (Decides.searchAll fun e m => decides_hasEntry apart (fun d n => keys d n e m false)
        fun d n => values d n e m false).congr ?_
      refine ⟨fun back => ⟨length, fun d m => ?_, back⟩, fun same => same.2.2⟩
      obtain ⟨e, there, partner⟩ := all_partners
        (fun e d => Alike d.1 e.1 ∧ Alike d.2 e.2) length.symm back
        (apart'.imp fun h d _ k k' => h (k.1.symm.trans k'.1)) d m
      exact ⟨e, there, partner⟩
    · refine (decides_entriesIn apart' (fun d m e n => keys d m e n true)
        fun d m e n => values d m e n true).congr ?_
      exact ⟨fun there => ⟨length, there, all_partners _ length there
        (apart.imp fun h e _ k k' => h (k.1.trans k'.1.symm))⟩, fun same => same.2.1⟩
  · exact .ok (by simp_all [SameEntries])

/-- Comparing a container with a value of another sort. -/
theorem decides_equal_other {flipped : Bool} {x y : Value} {p : Prop} (container : x.isContainer)
    (regular : Regular x) (regular' : Regular y) (h : ¬ p) :
    Decides (equalOthers flipped x y) p := by
  refine decides_equalOthers regular regular' ?_
  cases x <;> cases y <;> simp_all [isContainer, equalAtoms, numeral?]

/-- No container is spoken of by its identity. -/
theorem same_container {flipped : Bool} {x y : Value} (container : x.isContainer) :
    same flipped x y = equal flipped x y := by
  have apart : identical x y = false := by cases x <;> simp_all [isContainer, identical]
  rw [same, unlessIdentical, apart]
  rfl

/-- Whether two regular values are one object or equal, in either direction, is whether they are
alike. -/
theorem decides_same {flipped : Bool} {x y : Value} (regular : Regular x) (regular' : Regular y) :
    Decides (same flipped x y) (Alike x y) := by
  induction x using containerInduction generalizing y flipped with
  | leaf x leaf => exact decides_same_leaf leaf regular regular'
  | list xs ih =>
    rw [same_container rfl, alike_list_iff]
    rcases em (∃ ys, y = list ys) with ⟨ys, rfl⟩ | other
    · have parts := regularItems_iff.mp regular
      have parts' := regularItems_iff.mp regular'
      rw [equal]
      split
      · exact (decides_equalItems fun x m y n => ih x m (parts x m) (parts' y n)).congr (by simp)
      · rename_i different
        exact .ok (by simpa using fun h => different h.length_eq)
    · rw [equal]
      · exact decides_equal_other rfl regular regular' (by simp_all)
      · exact fun ys form => other ⟨ys, form⟩
  | tuple xs ih =>
    rw [same_container rfl, alike_tuple_iff]
    rcases em (∃ ys, y = tuple ys) with ⟨ys, rfl⟩ | other
    · have parts := regularItems_iff.mp regular
      have parts' := regularItems_iff.mp regular'
      rw [equal]
      exact (decides_equalItems fun x m y n => ih x m (parts x m) (parts' y n)).congr (by simp)
    · rw [equal]
      · exact decides_equal_other rfl regular regular' (by simp_all)
      · exact fun ys form => other ⟨ys, form⟩
  | set xs ih | frozenset xs ih =>
    rw [same_container rfl, equal, alike_members_iff rfl]
    split
    · rename_i ys members
      obtain ⟨parts, hashable, apart⟩ := regular.members rfl
      obtain ⟨parts', hashable', apart'⟩ := regular'.members members
      refine (decides_equal_members apart apart' fun x m y n flipped => ?_).congr (by simp [members])
      exact .ifSameHash (ih x m (parts x m) (parts' y n))
        (sameHash_of_alike (parts x m) (parts' y n) (hashable x m) (hashable' y n))
    · exact decides_equal_other rfl regular regular' (by simp_all)
  | dict xs ih =>
    rw [same_container rfl, alike_dict_iff]
    rcases em (∃ ys, y = dict ys) with ⟨ys, rfl⟩ | other
    · rw [equal]
      obtain ⟨parts, hashable, apart⟩ := regular.entries
      obtain ⟨parts', hashable', apart'⟩ := regular'.entries
      refine (decides_equal_entries apart apart' (fun d m e n flipped => ?_)
        fun d m e n flipped => (ih d m).2 (parts d m).2 (parts' e n).2).congr (by simp)
      exact .ifSameHash ((ih d m).1 (parts d m).1 (parts' e n).1)
        (sameHash_of_alike (parts d m).1 (parts' e n).1 (hashable d m) (hashable' e n))
    · rw [equal]
      · exact decides_equal_other rfl regular regular' (by simp_all)
      · exact fun ys form => other ⟨ys, form⟩

/-- A look-up among hashed members decides whether one is alike to the value that is sought. -/
theorem decides_isKey {stored sought : Value} (regular : Regular stored) (regular' : Regular sought)
    (hashable : stored.isHashable) (hashable' : sought.isHashable) :
    Decides (ifSameHash stored sought fun _ => matchesStored stored sought) (Alike stored sought) :=
  .ifSameHash (decides_same regular regular')
    (sameHash_of_alike regular regular' hashable hashable')

end Value

end FirstSeen
