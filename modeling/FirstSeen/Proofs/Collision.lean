import FirstSeen.Proofs.Equality.Decision
import FirstSeen.Seen

/-!
# Collisions of keys

When a key is a duplicate of an earlier one. A distinct stage keeps the keys that can be hashed apart
from those that cannot, so that two keys collide if they are one object or equal and on the same side;
and an earlier frozen set collides with a later set, since a set is looked up as the frozen set of its
members.

`Seen.Remembers` ties the two collections of a stage to the keys of all elements that it met, emitted or
not. It holds of a new stage, recording a key keeps it, and under it a key is fresh exactly if no earlier
key collides with it.
-/

set_option autoImplicit false

namespace FirstSeen

namespace Value

/-- Whether a value is a frozen set. -/
def isFrozenset : Value → Bool
  | frozenset _ => true
  | _ => false

/-- Whether a value is a set that can change. -/
def isSet : Value → Bool
  | set _ => true
  | _ => false

/-- Whether a key that came earlier makes a later one a duplicate. -/
def collides (earlier later : Value) : Bool :=
  (match matchesStored earlier later with
    | .ok same => same
    | .error _ => false) &&
  (earlier.isHashable == later.isHashable || earlier.isFrozenset && later.isSet)

/-- Regular keys collide if they are alike and kept on the same side, or the earlier one is a frozen set
and the later one a set. -/
theorem collides_iff {earlier later : Value} (regular : Regular earlier) (regular' : Regular later) :
    collides earlier later = true ↔
      Alike earlier later ∧
        (earlier.isHashable = later.isHashable ∨ earlier.isFrozenset ∧ later.isSet) := by
  have decides : Decides (same false earlier later) (Alike earlier later) := decides_same regular regular'
  obtain ⟨answer, ends, correct⟩ := decides
  simp [collides, matchesStored, ends, ← correct]

/-- A value without probes that cannot be hashed has a wrong type for it. -/
theorem isType_of_hashFault? {v : Value} {fault : Fault} (regular : Regular v)
    (h : v.hashFault? = some fault) : fault.isType = true := by
  induction v using containerInduction with
  | leaf v leaf =>
    cases v <;> simp_all [hashFault?, isContainer, Regular]
    subst h
    rfl
  | tuple items ih =>
    rw [Regular, regularItems_iff] at regular
    rw [hashFault?] at h
    induction items with
    | nil => simp [itemsHashFault?] at h
    | cons v rest step =>
      rw [itemsHashFault?] at h
      simp only [List.forall_mem_cons] at ih regular
      cases first : v.hashFault? with
      | some found =>
        rw [first] at h
        obtain rfl : found = fault := by simpa using h
        exact ih.1 regular.1 first
      | none =>
        rw [first] at h
        exact step ih.2 regular.2 h
  | list items _ | dict entries _ | set members _ =>
    simp only [hashFault?, Option.some.injEq] at h
    subst h
    rfl
  | frozenset members _ => simp [hashFault?] at h

end Value

namespace Seen

open Value

/-- The two collections of a stage account for the keys that it met: each holds some of them, and whatever
collides with one of these keys is alike to a member. A set is not kept if an equal frozen set was. -/
structure Remembers (seen : Seen) (earlier : List Value) : Prop where
  hashed : ∀ v ∈ seen.hashed, v ∈ earlier ∧ v.isHashable
  listed : ∀ v ∈ seen.listed, v ∈ earlier ∧ ¬ v.isHashable
  findsHashable : ∀ v ∈ earlier, v.isHashable → ∃ w ∈ seen.hashed, Alike w v
  findsUnhashable : ∀ v ∈ earlier, ¬ v.isHashable →
    (∃ w ∈ seen.listed, Alike w v) ∨ (v.isSet ∧ ∃ w ∈ seen.hashed, Alike w v)

/-- A new stage met nothing. -/
theorem remembers_empty : Remembers empty [] :=
  ⟨by simp [empty], by simp [empty], by simp, by simp⟩

/-- One more key is accounted for if the collections only grow, by no other key than it, and find it. -/
theorem Remembers.extend {seen after : Seen} {earlier : List Value} {key : Value}
    (h : Remembers seen earlier)
    (hashed : ∀ v ∈ after.hashed, v ∈ seen.hashed ∨ v = key ∧ key.isHashable)
    (listed : ∀ v ∈ after.listed, v ∈ seen.listed ∨ v = key ∧ ¬ key.isHashable)
    (keptHashed : ∀ v ∈ seen.hashed, v ∈ after.hashed)
    (keptListed : ∀ v ∈ seen.listed, v ∈ after.listed)
    (findsHashable : key.isHashable → ∃ w ∈ after.hashed, Alike w key)
    (findsUnhashable : ¬ key.isHashable →
      (∃ w ∈ after.listed, Alike w key) ∨ (key.isSet ∧ ∃ w ∈ after.hashed, Alike w key)) :
    Remembers after (earlier ++ [key]) := by
  have more : ∀ {xs ys : List Value} {v : Value}, (∀ w ∈ xs, w ∈ ys) → (∃ w ∈ xs, Alike w v) →
      ∃ w ∈ ys, Alike w v := by
    rintro xs ys v sub ⟨w, m, alike⟩
    exact ⟨w, sub w m, alike⟩
  refine ⟨fun v m => ?_, fun v m => ?_, fun v m hashable => ?_, fun v m unhashable => ?_⟩
  · rcases hashed v m with old | ⟨rfl, hashable⟩
    · simp [h.hashed v old]
    · simp [hashable]
  · rcases listed v m with old | ⟨rfl, unhashable⟩
    · simp [h.listed v old]
    · simp [unhashable]
  · rcases List.mem_append.mp m with old | new
    · exact more keptHashed (h.findsHashable v old hashable)
    · obtain rfl := List.mem_singleton.mp new
      exact findsHashable hashable
  · rcases List.mem_append.mp m with old | new
    · exact (h.findsUnhashable v old unhashable).imp (more keptListed)
        fun found => ⟨found.1, more keptHashed found.2⟩
    · obtain rfl := List.mem_singleton.mp new
      exact findsUnhashable unhashable

/-! ## Looking a key up -/

/-- The look-up among the hashed keys decides whether one of them is alike to the key. -/
theorem decides_findHashed {seen : Seen} (key : Value) (regular : ∀ v ∈ seen.hashed, Regular v)
    (hashable : ∀ v ∈ seen.hashed, v.isHashable) (regular' : Regular key) (hashable' : key.isHashable) :
    Decides (seen.findHashed key) (∃ w ∈ seen.hashed, Alike w key) :=
  .search fun v m => decides_isKey (regular v m) regular' (hashable v m) hashable'

/-- The look-up in the list decides whether one of its keys is alike to the key. -/
theorem decides_findListed {seen : Seen} (key : Value) (regular : ∀ v ∈ seen.listed, Regular v)
    (regular' : Regular key) : Decides (seen.findListed key) (∃ w ∈ seen.listed, Alike w key) :=
  .search fun v m => decides_same (regular v m) regular'

/-- The limit on listed keys can be compared with a number unless it is a probe. -/
theorem atLimit_ok (seen : Seen) {limit : Value} (noProbe : limit.isProbe = false) :
    ∃ full, seen.atLimit limit = .ok full := by
  refine ⟨equalAtoms (.ofNat seen.listed.length) limit, ?_⟩
  cases limit <;> simp_all [atLimit, equals, equal, equalOthers, isProbe]

/-- While warnings are only told, recording in the list depends on the keys alone. -/
theorem recordListed_calm {seen : Seen} {limit key : Value} {found : Bool}
    (noProbe : limit.isProbe = false) (search : seen.findListed key = .ok found) :
    (seen.recordListed limit false key).outcome = .ok (!found) ∧
      (seen.recordListed limit false key).seen =
        if found then seen else { seen with listed := seen.listed ++ [key] } := by
  obtain ⟨full, reached⟩ := atLimit_ok seen noProbe
  cases found <;> simp [recordListed, reached, search]

/-! ## What the look-ups say about the earlier keys -/

/-- A hashable value that is alike to a set is a frozen set. -/
theorem isFrozenset_of_alike {v w : Value} (alike : Alike v w) (set : w.isSet) (hashable : v.isHashable) :
    v.isFrozenset := by
  cases w with
  | set members =>
    obtain ⟨ys, found, -⟩ := alike_set_iff.mp alike.symm
    cases v <;> simp_all [members?, isFrozenset, isHashable, hashFault?]
  | _ => simp [isSet] at set

/-- A value that is alike to a set and cannot be hashed is a set. -/
theorem isSet_of_alike {v w : Value} (alike : Alike v w) (set : v.isSet) (unhashable : ¬ w.isHashable) :
    w.isSet := by
  cases v with
  | set members =>
    obtain ⟨ys, found, -⟩ := alike_set_iff.mp alike
    cases w <;> simp_all [members?, isSet, isHashable, hashFault?]
  | _ => simp [isSet] at set

/-- No set can be hashed. -/
theorem not_isHashable_of_isSet {v : Value} (set : v.isSet) : ¬ v.isHashable := by
  cases v <;> simp_all [isSet, isHashable, hashFault?]

section Finding

variable {seen : Seen} {earlier : List Value} {key : Value}

/-- A hashable key collides with an earlier one exactly if a hashed one is alike to it. -/
theorem Remembers.hashed_iff (h : Remembers seen earlier) (regular : ∀ v ∈ earlier, Regular v)
    (regular' : Regular key) (hashable : key.isHashable) :
    (∃ w ∈ seen.hashed, Alike w key) ↔ ∃ v ∈ earlier, collides v key = true := by
  constructor
  · rintro ⟨w, m, alike⟩
    obtain ⟨there, hashable'⟩ := h.hashed w m
    exact ⟨w, there, (collides_iff (regular w there) regular').mpr ⟨alike, .inl (by simp [*])⟩⟩
  · rintro ⟨v, m, collide⟩
    obtain ⟨alike, sides⟩ := (collides_iff (regular v m) regular').mp collide
    have hashable' : v.isHashable := by
      rcases sides with same | ⟨-, set⟩
      · rwa [same]
      · exact absurd hashable (not_isHashable_of_isSet set)
    obtain ⟨w, inside, alike'⟩ := h.findsHashable v m hashable'
    exact ⟨w, inside, alike'.trans alike⟩

/-- A set collides with an earlier key if a hashed one is alike to it. -/
theorem Remembers.collides_of_hashed (h : Remembers seen earlier) (regular : ∀ v ∈ earlier, Regular v)
    (regular' : Regular key) (set : key.isSet) (found : ∃ w ∈ seen.hashed, Alike w key) :
    ∃ v ∈ earlier, collides v key = true := by
  obtain ⟨w, m, alike⟩ := found
  obtain ⟨there, hashable⟩ := h.hashed w m
  have frozen := isFrozenset_of_alike alike set hashable
  exact ⟨w, there, (collides_iff (regular w there) regular').mpr ⟨alike, .inr ⟨frozen, set⟩⟩⟩

/-- A key that cannot be hashed, and is no set that was found among the hashed keys, collides with an
earlier one exactly if a listed one is alike to it. -/
theorem Remembers.listed_iff (h : Remembers seen earlier) (regular : ∀ v ∈ earlier, Regular v)
    (regular' : Regular key) (unhashable : ¬ key.isHashable)
    (missed : key.isSet → ¬ ∃ w ∈ seen.hashed, Alike w key) :
    (∃ w ∈ seen.listed, Alike w key) ↔ ∃ v ∈ earlier, collides v key = true := by
  constructor
  · rintro ⟨w, m, alike⟩
    obtain ⟨there, unhashable'⟩ := h.listed w m
    have sides : w.isHashable = key.isHashable := by simp [unhashable, unhashable']
    exact ⟨w, there, (collides_iff (regular w there) regular').mpr ⟨alike, .inl sides⟩⟩
  · rintro ⟨v, m, collide⟩
    obtain ⟨alike, sides⟩ := (collides_iff (regular v m) regular').mp collide
    rcases sides with same | ⟨frozen, set⟩
    · have unhashable' : ¬ v.isHashable := by rwa [same]
      rcases h.findsUnhashable v m unhashable' with ⟨w, inside, alike'⟩ | ⟨set, w, inside, alike'⟩
      · exact ⟨w, inside, alike'.trans alike⟩
      · exact absurd ⟨w, inside, alike'.trans alike⟩ (missed (isSet_of_alike alike set unhashable))
    · have hashable : v.isHashable := by cases v <;> simp_all [isFrozenset, isHashable, hashFault?]
      obtain ⟨w, inside, alike'⟩ := h.findsHashable v m hashable
      exact absurd ⟨w, inside, alike'.trans alike⟩ (missed set)

end Finding

/-! ## Recording -/

/-- A hashable key is looked up among the hashed ones. -/
theorem lookUp_of_isHashable {seen : Seen} {key : Value} (hashable : key.isHashable) :
    seen.lookUp key = seen.findHashed key := by
  cases key <;> simp_all [lookUp, isHashable, hashFault?]

/-- The look-up of any other key that is no set fails with a type. -/
theorem lookUp_of_not_isHashable (seen : Seen) {key : Value} (regular : Regular key)
    (unhashable : ¬ key.isHashable) (other : ¬ key.isSet) :
    ∃ fault, seen.lookUp key = .error fault ∧ fault.isType := by
  obtain ⟨fault, fails⟩ : ∃ fault, key.hashFault? = some fault :=
    Option.ne_none_iff_exists'.mp (by simpa [isHashable] using unhashable)
  refine ⟨fault, ?_, isType_of_hashFault? regular fails⟩
  cases key <;> simp_all [lookUp, isSet]

/-- The look-up of a set decides whether a hashed key is alike to it. -/
theorem decides_lookUp_set {seen : Seen} {key : Value} (regular : ∀ v ∈ seen.hashed, Regular v)
    (hashable : ∀ v ∈ seen.hashed, v.isHashable) (regular' : Regular key) (set : key.isSet) :
    Decides (seen.lookUp key) (∃ w ∈ seen.hashed, Alike w key) := by
  cases key with
  | set members =>
    refine (decides_findHashed (.frozenset members) regular hashable regular' rfl).congr ?_
    have either : ∀ w, Alike w (.frozenset members) ↔ Alike w (.set members) := fun w =>
      ⟨fun alike => ((alike_members_iff rfl).mpr ((alike_members_iff rfl).mp alike.symm)).symm,
        fun alike => ((alike_members_iff rfl).mpr ((alike_members_iff rfl).mp alike.symm)).symm⟩
    simp only [either]
  | _ => simp [isSet] at set

/-- A key that the hashed ones do not settle is recorded in the list. -/
theorem record_listed {seen : Seen} {limit key : Value} {raising : Bool} (fault : Fault)
    (fails : seen.recordHashed key = .error fault) (type : fault.isType) :
    seen.record limit raising key = seen.recordListed limit raising key := by
  simp [record, fails, type]

/-- Recording a key never fails while warnings are only told. The key is fresh exactly if no earlier key
collides with it, and is accounted for afterwards. -/
theorem record_spec {seen : Seen} {earlier : List Value} {limit key : Value}
    (remembers : Remembers seen earlier) (regular : ∀ v ∈ earlier, Regular v) (regular' : Regular key)
    (noProbe : limit.isProbe = false) :
    (seen.record limit false key).outcome = .ok (earlier.all fun v => !collides v key) ∧
      Remembers (seen.record limit false key).seen (earlier ++ [key]) := by
  have fresh_iff : ∀ found : Bool, (found = true ↔ ∃ v ∈ earlier, collides v key = true) →
      (!found) = earlier.all fun v => !collides v key := by
    intro found correct
    rw [Bool.eq_iff_iff, List.all_eq_true]
    cases found <;> simp at correct <;> simpa using correct
  have regularHashed : ∀ v ∈ seen.hashed, Regular v := fun v m => regular v (remembers.hashed v m).1
  have hashableHashed : ∀ v ∈ seen.hashed, v.isHashable := fun v m => (remembers.hashed v m).2
  -- What follows once the hashed keys have not settled the matter.
  have inList : (unhashable : ¬ key.isHashable) →
      (missed : key.isSet → ¬ ∃ w ∈ seen.hashed, Alike w key) →
      (seen.recordListed limit false key).outcome = .ok (earlier.all fun v => !collides v key) ∧
        Remembers (seen.recordListed limit false key).seen (earlier ++ [key]) := by
    intro unhashable missed
    obtain ⟨found, search, correct⟩ := decides_findListed key
      (fun v m => regular v (remembers.listed v m).1) regular'
    obtain ⟨outcome, after⟩ := recordListed_calm noProbe search
    rw [outcome, after]
    refine ⟨by rw [fresh_iff _ (correct.trans (remembers.listed_iff regular regular' unhashable missed))],
      ?_⟩
    cases found with
    | true =>
      exact remembers.extend (fun v m => .inl m) (fun v m => .inl m) (fun v m => m) (fun v m => m)
        (fun h => absurd h unhashable) fun _ => .inl (correct.mp rfl)
    | false =>
      refine remembers.extend (fun v m => .inl m) (fun v m => ?_) (fun v m => m) (fun v m => ?_)
        (fun h => absurd h unhashable) fun _ => .inl ⟨key, by simp, alike_refl key⟩
      · exact (List.mem_append.mp m).imp_right fun new => ⟨by simpa using new, unhashable⟩
      · simpa using .inl m
  by_cases hashable : key.isHashable
  · obtain ⟨found, search, correct⟩ := decides_findHashed key regularHashed hashableHashed regular' hashable
    rw [← lookUp_of_isHashable hashable] at search
    have noFault : key.hashFault? = none := by simpa [isHashable] using hashable
    have settled := fresh_iff _ (correct.trans (remembers.hashed_iff regular regular' hashable))
    cases found with
    | true =>
      simp only [record, recordHashed, search]
      refine ⟨by rw [← settled]; rfl, ?_⟩
      exact remembers.extend (fun v m => .inl m) (fun v m => .inl m) (fun v m => m) (fun v m => m)
        (fun _ => correct.mp rfl) fun h => absurd hashable h
    | false =>
      simp only [record, recordHashed, search, noFault]
      refine ⟨by rw [← settled]; rfl, ?_⟩
      refine remembers.extend (fun v m => ?_) (fun v m => .inl m) (fun v m => ?_) (fun v m => m)
        (fun _ => ⟨key, by simp, alike_refl key⟩) fun h => absurd hashable h
      · exact (List.mem_append.mp m).imp_right fun new => ⟨by simpa using new, hashable⟩
      · simpa using .inl m
  · by_cases set : key.isSet
    · obtain ⟨found, search, correct⟩ := decides_lookUp_set regularHashed hashableHashed regular' set
      cases found with
      | true =>
        have collide := remembers.collides_of_hashed regular regular' set (correct.mp rfl)
        simp only [record, recordHashed, search]
        refine ⟨by rw [← fresh_iff true (by simpa using collide)]; rfl, ?_⟩
        exact remembers.extend (fun v m => .inl m) (fun v m => .inl m) (fun v m => m) (fun v m => m)
          (fun h => absurd h hashable) fun _ => .inr ⟨set, correct.mp rfl⟩
      | false =>
        obtain ⟨fault, fails⟩ : ∃ fault, key.hashFault? = some fault :=
          Option.ne_none_iff_exists'.mp (by simpa [isHashable] using hashable)
        rw [record_listed fault (by simp [recordHashed, search, fails])
          (isType_of_hashFault? regular' fails)]
        exact inList hashable fun _ there => by simpa using correct.mpr there
    · obtain ⟨fault, fails, type⟩ := lookUp_of_not_isHashable seen regular' hashable set
      rw [record_listed fault (by simp [recordHashed, fails]) type]
      exact inList hashable fun h => absurd h set

end Seen

end FirstSeen
