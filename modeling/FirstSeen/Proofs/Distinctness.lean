import FirstSeen.Proofs.Deduplication
import FirstSeen.Proofs.Tower.Materializing

/-!
# Keys of emitted elements

What may be said of the keys of the elements that a distinct stage hands out, looking only at these elements. An
element is dropped exactly if its key collides with that of an element which was handed out before, so that no two
elements are handed out whose keys are equal and on the same side: both can be hashed, or neither can. Keys on
different sides are not looked for: a byte string that can change and an equal one that cannot are both handed out.

Collisions pass on from key to key, whatever the sides. An element that was dropped therefore collides with an
element that was handed out, and not only with one that was dropped itself.
-/

set_option autoImplicit false

namespace FirstSeen

namespace Value

variable {x y z : Value}

/-- Keys that are not alike are not equal. -/
theorem equals_of_not_alike (regular : Regular x) (regular' : Regular y) (apart : ¬ Alike x y) :
    equals x y = .ok false := by
  have decides : Decides (same false x y) (Alike x y) := decides_same regular regular'
  obtain ⟨same', found, iff⟩ := decides
  obtain rfl : same' = false := Bool.eq_false_iff.mpr fun alike => apart (iff.mp alike)
  rw [same, unlessIdentical] at found
  split at found
  · cases found
  · exact found

/-- What collides with a key that collides with a later one collides with that one. -/
theorem Collides.trans (first : Collides x y) (second : Collides y z) : Collides x z := by
  have alike : Alike x z := first.1.trans second.1
  refine ⟨alike, ?_⟩
  have hashable_of_frozen : ∀ {v : Value}, v.isFrozenset → v.isHashable := by
    intro v frozen
    cases v <;> simp_all [isFrozenset, isHashable, hashFault?]
  rcases first.2 with sides | ⟨frozen, set⟩ <;> rcases second.2 with sides' | ⟨frozen', set'⟩
  · exact .inl (sides.trans sides')
  · have hashable : x.isHashable := sides ▸ hashable_of_frozen frozen'
    exact .inr ⟨Seen.isFrozenset_of_alike alike set' hashable, set'⟩
  · have unhashable : ¬ z.isHashable := sides' ▸ Seen.not_isHashable_of_isSet set
    exact .inr ⟨frozen, Seen.isSet_of_alike second.1 set unhashable⟩
  · exact absurd (hashable_of_frozen frozen') (Seen.not_isHashable_of_isSet set)

end Value

/-! ## First occurrences among themselves -/

/-- The places of the keys that collide with no earlier one. -/
def firsts (m : Nat) (key : Nat → Value) : List Nat :=
  (List.range m).filter fun i => (List.range i).all fun j => !(key j).collides (key i)

section Firsts

variable {m : Nat} {key : Nat → Value}

theorem firsts_sorted (m : Nat) (key : Nat → Value) : (firsts m key).Pairwise (· < ·) :=
  List.pairwise_lt_range.filter _

variable (regular : ∀ i < m, (key i).Regular)
include regular

theorem mem_firsts {i : Nat} : i ∈ firsts m key ↔ i < m ∧ ∀ j < i, ¬ (key j).Collides (key i) := by
  rw [firsts, List.mem_filter, List.mem_range, List.all_eq_true]
  refine and_congr_right fun inside => forall_congr' fun j => ?_
  rw [List.mem_range]
  refine forall_congr' fun less => ?_
  have iff := Value.collides_iff (regular j (by omega)) (regular i inside)
  rw [Bool.not_eq_true', ← Bool.not_eq_true, iff]
  rfl

/-- A key collides with an earlier one only if it collides with a first one. -/
theorem exists_first_of_collides {i j : Nat} (inside : i < m) (less : j < i) (collides : (key j).Collides (key i)) :
    ∃ k ∈ firsts m key, k < i ∧ (key k).Collides (key i) := by
  induction j using Nat.strong_induction_on with
  | _ j ih =>
    by_cases first : j ∈ firsts m key
    · exact ⟨j, first, less, collides⟩
    · have earlier : ∃ k < j, (key k).Collides (key j) := by
        by_contra none
        exact first ((mem_firsts regular).mpr ⟨by omega, fun k less' collides' => none ⟨k, less', collides'⟩⟩)
      obtain ⟨k, less', collides'⟩ := earlier
      exact ih k less' (by omega) (collides'.trans collides)

/-- A key is dropped exactly if it collides with a first one before it. -/
theorem not_mem_firsts {i : Nat} (inside : i < m) :
    i ∉ firsts m key ↔ ∃ j ∈ firsts m key, j < i ∧ (key j).Collides (key i) := by
  constructor
  · intro dropped
    by_contra none
    refine dropped ((mem_firsts regular).mpr ⟨inside, fun j less collides => none ?_⟩)
    exact exists_first_of_collides regular inside less collides
  · rintro ⟨j, -, less, collides⟩ first
    exact ((mem_firsts regular).mp first).2 j less collides

/-- No two first keys on the same side are equal. -/
theorem firsts_differ :
    (firsts m key).Pairwise fun j i =>
      ((key j).isHashable = (key i).isHashable ∨ (key j).isFrozenset ∧ (key i).isSet) →
        Value.equals (key j) (key i) = .ok false := by
  refine (firsts_sorted m key).imp_of_mem fun {j i} first second less sides => ?_
  obtain ⟨inside, -⟩ := (mem_firsts regular).mp first
  obtain ⟨inside', free⟩ := (mem_firsts regular).mp second
  exact Value.equals_of_not_alike (regular j inside) (regular i inside') fun alike => free j less ⟨alike, sides⟩

end Firsts

/-! ## The elements of a stage -/

namespace Store

/-- Taking all elements of a distinct stage over data that come to an end hands out elements whose keys are pairwise
different on the same side, and drops exactly those whose key collides with that of an element handed out before;
such a key is the same object or equal. -/
theorem emitted_keys_differ {store : Store} {d key limit : Value} {multi : Bool} {m : Nat} {item : Nat → Item}
    {keyAt : Nat → Value} (raw : store.Raw d) (gives : store.Gives d ((List.range m).map item))
    (sound : store.SoundKey Item.Plain multi key) (data : store.IsData limit)
    (keys : ∀ i < m, (store.ruleOf multi key limit).keyOf (item i) = .ok (keyAt i))
    (regular : ∀ i < m, (keyAt i).Regular) (noProbe : (store.contents limit).isProbe = false)
    (calm : store.raising = false) :
    ∃ enough, ∀ n, enough ≤ n → ∃ (values : List Value) (after : Store) (indices : List Nat),
      ((calls n).deduplicate d multi key limit).from? store = (.ok values, after) ∧
      after.ShowsAll Item.Plain values (indices.map item) ∧
      indices.Pairwise (· < ·) ∧ (∀ i ∈ indices, i < m) ∧
      (indices.Pairwise fun j i =>
        ((keyAt j).isHashable = (keyAt i).isHashable ∨ (keyAt j).isFrozenset ∧ (keyAt i).isSet) →
          Value.equals (keyAt j) (keyAt i) = .ok false) ∧
      ∀ i < m, i ∉ indices ↔ ∃ j ∈ indices, j < i ∧ (keyAt j).Collides (keyAt i) := by
  let rule := store.ruleOf multi key limit
  let tower : Tower := .filter {} rule .empty (.ground {} (store.originOf d))
  obtain ⟨tape, last, source, reaches, ended⟩ := gives
  obtain ⟨smooth, -, out⟩ := @sieve_firsts rule _ _ _ keys regular noProbe calm
  have awake : tower.Calm := ⟨⟨rfl, rfl⟩, rfl, rfl⟩
  obtain ⟨enough, left, forces⟩ := @Tower.force_outputs tower _ _ _ _ rfl awake source reaches ended smooth
  refine ⟨max enough (4 * tower.height + 1), fun n le => ?_⟩
  have high : 4 * tower.height + 1 ≤ n := Nat.le_trans (Nat.le_max_right ..) le
  obtain ⟨n, rfl⟩ : ∃ p, n = p + 1 := ⟨n - 1, by omega⟩
  obtain ⟨ids, made, ends, stands⟩ := from?_newDistinct raw multi sound data n
  obtain ⟨values, after, given, shows', -⟩ :=
    Holds.forces (Awake.holds ⟨ids, stands⟩) high (forces _ (Nat.le_trans (Nat.le_max_left ..) le))
  refine ⟨values, after, firsts m keyAt, ?_, ?_, firsts_sorted m keyAt, fun i first => ((mem_firsts regular).mp first).1,
    firsts_differ regular, fun i inside => not_mem_firsts regular inside⟩
  · rw [Calls.deduplicate, ← bind_assoc, Run.from?_bind_ok ends]
    exact given
  · change after.ShowsAll Item.Plain values (Stage.outputs [⟨rule, .empty⟩] _) at shows'
    rw [out] at shows'
    exact shows'

/-- A byte string that can change, an equal one that cannot, and the first one again, which is dropped. -/
theorem emitted_keys_differ_bytes :
    ∃ enough, ∀ n, enough ≤ n → ∃ after, ((calls n).deduplicate
      (.tuple [.bytearray [97], .bytes [97], .bytearray [97]]) false .null (.int 10000)).from? {} =
        (.ok [.bytearray [97], .bytes [97]], after) := by
  let elements : List Value := [.bytearray [97], .bytes [97], .bytearray [97]]
  let item (i : Nat) : Item := ⟨elements.getD i .null, false, some (elements.getD i .null)⟩
  have raw : Store.Raw {} (.tuple elements) :=
    ⟨.inl rfl, fun _ => isData_of_refs_nil rfl, fun given => (by cases given), fun _ found => (by cases found)⟩
  have gives : Store.Gives {} (.tuple elements) ((List.range 3).map item) :=
    ⟨_, _, rfl, ⟨rfl, rfl, rfl, rfl⟩, rfl⟩
  have among : ∀ {i : Nat}, i < 3 → i = 0 ∨ i = 1 ∨ i = 2 := fun less => by omega
  have regular : ∀ i < 3, (elements.getD i .null).Regular := by
    intro i less
    rcases among less with rfl | rfl | rfl <;> trivial
  have apart : ¬ (elements.getD 0 .null).Collides (elements.getD 1 .null) := by
    rintro ⟨-, same | frozen⟩
    · cases same
    · cases frozen.1
  obtain ⟨enough, all⟩ := @emitted_keys_differ _ _ .null (.int 10000) false 3 item (fun i => elements.getD i .null)
    raw gives (.inl rfl) (isData_of_refs_nil rfl) (fun _ _ => rfl) regular rfl rfl
  refine ⟨enough, fun n le => ?_⟩
  obtain ⟨values, after, indices, ends, shows', sorted, inside, -, dropped⟩ := all n le
  have first : 0 ∈ indices := by
    by_contra missing
    obtain ⟨j, -, less, -⟩ := (dropped 0 (by omega)).mp missing
    exact absurd less (Nat.not_lt_zero j)
  have second : 1 ∈ indices := by
    by_contra missing
    obtain ⟨j, -, less, collides⟩ := (dropped 1 (by omega)).mp missing
    obtain rfl : j = 0 := by omega
    exact apart collides
  have third : 2 ∉ indices := (dropped 2 (by omega)).mpr ⟨0, first, by omega, Value.alike_refl _, .inl rfl⟩
  obtain rfl : indices = [0, 1] := by
    refine sorted.eq_of_mem_iff (by decide) fun i => ⟨fun member => ?_, fun member => ?_⟩
    · rcases among (inside i member) with rfl | rfl | rfl
      · simp
      · simp
      · exact absurd member third
    · simp only [List.mem_cons, List.not_mem_nil, or_false] at member
      rcases member with rfl | rfl
      · exact first
      · exact second
  obtain ⟨v, w, rfl⟩ := List.length_eq_two.mp (List.Forall₂.length_eq shows')
  simp only [ShowsAll, List.map_cons, List.map_nil, List.forall₂_cons] at shows'
  obtain rfl := shows'.1.held _ rfl
  obtain rfl := shows'.2.1.held _ rfl
  exact ⟨after, ends⟩

/-- Two elements with equal keys are both handed out if one of these can be hashed and the other cannot. -/
theorem equal_keys_on_both_sides :
    Value.equals (.bytearray [97]) (.bytes [97]) = .ok true ∧
      (((calls 16).deduplicate (.tuple [.bytearray [97], .bytes [97]]) false .null (.int 10000)).from? {}).1 =
        .ok [.bytearray [97], .bytes [97]] :=
  ⟨rfl, rfl⟩

end Store

end FirstSeen
