import FirstSeen.Proofs.Collision
import FirstSeen.Proofs.History.Beginning
import FirstSeen.Proofs.Tower.Sieving

/-!
# First occurrences

Taking all elements of a distinct stage over data that come to an end gives the elements whose keys collide with
no earlier key, in the order in which they came. The earlier keys are those of all elements that came before,
whether these were handed out or not.

The stage remembers keys in two collections, and what it finds there is what the keys that it met so far say;
the rest is counting along the elements.
-/

set_option autoImplicit false

namespace FirstSeen

/-- Whether a key that came earlier makes a later one a duplicate: the two are the same object or equal, and both
can be hashed, or neither can, or the earlier one is a frozen set and the later one a set. -/
def Value.Collides (earlier later : Value) : Prop :=
  Alike earlier later ∧ (earlier.isHashable = later.isHashable ∨ earlier.isFrozenset ∧ later.isSet)

namespace Stage

theorem sieveAll_snoc (stages : List Stage) (items : List Item) (item : Item) :
    sieveAll stages (items ++ [item]) = (sieve (sieveAll stages items) item).2 := by
  rw [sieveAll, List.foldl_append]
  rfl

/-- The last of some elements gets to the top if it does so after the others. -/
theorem outputs_snoc (stages : List Stage) (items : List Item) (item : Item) :
    outputs stages (items ++ [item]) =
      outputs stages items ++
        match (sieve (sieveAll stages items) item).1 with
        | .ok true => [item]
        | _ => [] := by
  induction items generalizing stages with
  | nil =>
    simp only [List.nil_append, outputs, sieveAll, List.foldl_nil]
    rcases sieve stages item with ⟨_ | _ | _, after⟩ <;> rfl
  | cons first rest ih =>
    simp only [List.cons_append, outputs, sieveAll, List.foldl_cons]
    rcases sieve stages first with ⟨_ | _ | _, after⟩ <;> simp only [ih, List.cons_append, sieveAll]

theorem smooth_snoc {stages : List Stage} {items : List Item} {item : Item} (smooth : Smooth stages items)
    {fresh : Bool} (judged : (sieve (sieveAll stages items) item).1 = .ok fresh) :
    Smooth stages (items ++ [item]) := by
  induction items generalizing stages with
  | nil => exact ⟨⟨fresh, judged⟩, trivial⟩
  | cons first rest ih => exact ⟨smooth.1, ih smooth.2 judged⟩

end Stage

section Counting

variable {rule : Rule} {m : Nat} {item : Nat → Item} {key : Nat → Value}

/-- A stage that met some elements remembers their keys, and let through those whose keys collided with no
earlier one. -/
theorem sieve_firsts (keys : ∀ i < m, rule.keyOf (item i) = .ok (key i)) (regular : ∀ i < m, (key i).Regular)
    (noProbe : rule.limit.isProbe = false) (calm : rule.raising = false) :
    Stage.Smooth [⟨rule, .empty⟩] ((List.range m).map item) ∧
      (∃ seen, Stage.sieveAll [⟨rule, .empty⟩] ((List.range m).map item) = [⟨rule, seen⟩] ∧
        seen.Remembers ((List.range m).map key)) ∧
      Stage.outputs [⟨rule, .empty⟩] ((List.range m).map item) =
        ((List.range m).filter fun i => (List.range i).all fun j => !(key j).collides (key i)).map item := by
  induction m with
  | zero => exact ⟨trivial, ⟨.empty, rfl, Seen.remembers_empty⟩, rfl⟩
  | succ m ih =>
    obtain ⟨smooth, ⟨seen, sieved, remembers⟩, out⟩ := ih (fun i less => keys i (by omega))
      fun i less => regular i (by omega)
    have regular' : ∀ v ∈ (List.range m).map key, v.Regular := by
      intro v member
      obtain ⟨i, inside, rfl⟩ := List.mem_map.mp member
      exact regular i (by simp at inside; omega)
    obtain ⟨outcome, remembers'⟩ := Seen.record_spec remembers regular' (regular m (by omega)) noProbe
    have counted : ((List.range m).map key).all (fun v => !v.collides (key m)) =
        (List.range m).all fun j => !(key j).collides (key m) := List.all_map
    rw [counted] at outcome
    have judged : Stage.sieve (Stage.sieveAll [⟨rule, .empty⟩] ((List.range m).map item)) (item m) =
        (.ok ((List.range m).all fun j => !(key j).collides (key m)),
          [⟨rule, (seen.record rule.limit false (key m)).seen⟩]) := by
      rw [sieved, Stage.sieve, Stage.judge, Rule.judge, keys m (by omega)]
      simp only [calm, outcome]
      cases (List.range m).all fun j => !(key j).collides (key m) <;> rfl
    rw [List.range_succ, List.map_append, List.map_append]
    refine ⟨Stage.smooth_snoc smooth (congrArg Prod.fst judged), ⟨_, ?_, remembers'⟩, ?_⟩
    · exact (Stage.sieveAll_snoc ..).trans (congrArg Prod.snd judged)
    · rw [List.map_singleton, Stage.outputs_snoc, judged, out, List.filter_append, List.map_append]
      congr 1
      rw [List.filter_singleton]
      cases (List.range m).all fun j => !(key j).collides (key m) <;> rfl

end Counting

/-! ## A stage over data -/

/-- Takes all elements of a new distinct stage over data. -/
def Calls.deduplicate (c : Calls) (d : Value) (multi : Bool) (key limit : Value) : Run (List Value) := do
  let supply ← Run.toSequence d (.bool multi)
  let stage ← c.newDistinct (.ofSequence supply) key limit
  c.force stage

namespace Store

/-- Whether iterating data, or what a factory makes, gives these elements and then the end. -/
def Gives (store : Store) (d : Value) (items : List Item) : Prop :=
  ∃ tape last, (store.originOf d).current = some tape ∧ tape.Reaches items last ∧ last.Ended

/-- A new distinct stage over raw data stands as a filter on their origin. -/
theorem from?_newDistinct {store : Store} {d key limit : Value} (raw : store.Raw d) (multi : Bool)
    (sound : store.SoundKey Item.Plain multi key) (data : store.IsData limit) (n : Nat) :
    ∃ ids after, (do
        let supply ← Run.toSequence d (.bool multi)
        (calls (n + 1)).newDistinct (.ofSequence supply) key limit : Run SequenceId).from? store =
          (.ok ⟨store.sequences.size + 1⟩, after) ∧
      after.Stands Item.Plain (store.aside d) multi ⟨store.sequences.size + 1⟩ ids
        (.filter {} (store.ruleOf multi key limit) .empty (.ground {} (store.originOf d))) := by
  let supply : SequenceState := { body := store.groundBody d, multiValue := multi }
  have grows := grows_joined store supply
  have stands : (store.joined supply).Stands Item.Plain (store.aside d) multi ⟨store.sequences.size⟩
      [⟨store.sequences.size⟩] (.ground {} (store.originOf d)) := stands_ground_joined (backs_of_raw raw raw.within)
  have above := stands_filter_joined stands (grows.soundKey sound) (grows.isData data)
  have size : (store.joined supply).sequences.size = store.sequences.size + 1 := by simp [joined]
  rw [size, grows.ruleOf data] at above
  refine ⟨_, _, ?_, above⟩
  rw [Run.from?_bind_ok (from?_toSequence raw multi (.refl store))]
  change (Run.from? (do
    let flag ← (calls (n + 1)).isMulti ⟨store.sequences.size⟩
    Run.newSequence { body := .distinct ⟨store.sequences.size⟩ key limit .empty, multiValue := flag })
      (store.joined supply)) = _
  rw [Run.from?_bind_ok (isMulti_stands stands (by simp [Tower.height]))]
  change (Except.ok (⟨(store.joined supply).sequences.size⟩ : SequenceId), _) = _
  rw [size]
  rfl

/-- Taking all elements of a distinct stage over data that come to an end gives those whose keys collide with no
earlier key, as the objects that they are and in the order in which they came. -/
theorem deduplicate_firsts {store : Store} {d key limit : Value} {multi : Bool} {m : Nat} {item : Nat → Item}
    {keyAt : Nat → Value} (raw : store.Raw d) (gives : store.Gives d ((List.range m).map item))
    (sound : store.SoundKey Item.Plain multi key) (data : store.IsData limit)
    (keys : ∀ i < m, (store.ruleOf multi key limit).keyOf (item i) = .ok (keyAt i))
    (regular : ∀ i < m, (keyAt i).Regular) (noProbe : (store.contents limit).isProbe = false)
    (calm : store.raising = false) :
    ∃ enough, ∀ n, enough ≤ n → ∃ (values : List Value) (after : Store) (indices : List Nat),
      ((calls n).deduplicate d multi key limit).from? store = (.ok values, after) ∧
      indices.Pairwise (· < ·) ∧
      (∀ i, i ∈ indices ↔ i < m ∧ ∀ j < i, ¬ (keyAt j).Collides (keyAt i)) ∧
      after.ShowsAll Item.Plain values (indices.map item) := by
  let rule := store.ruleOf multi key limit
  let tower : Tower := .filter {} rule .empty (.ground {} (store.originOf d))
  obtain ⟨tape, last, source, reaches, ended⟩ := gives
  obtain ⟨smooth, -, out⟩ := @sieve_firsts rule _ _ _ keys regular noProbe calm
  have awake : tower.Calm := ⟨⟨rfl, rfl⟩, rfl, rfl⟩
  obtain ⟨k, left, gathers⟩ := @Tower.Collects.gather _ _ [] (Tower.collects_outputs awake source reaches ended smooth) awake
  refine ⟨max k (4 * tower.height + 1), fun n enough => ?_⟩
  have high : 4 * tower.height + 1 ≤ n := Nat.le_trans (Nat.le_max_right ..) enough
  obtain ⟨n, rfl⟩ : ∃ p, n = p + 1 := ⟨n - 1, by omega⟩
  obtain ⟨ids, made, ends, stands⟩ := from?_newDistinct raw multi sound data n
  have forced := force_holds (Awake.holds ⟨ids, stands⟩) high
  have told : tower.force (n + 1) = some (.ok (Stage.outputs tower.stages ((List.range m).map item)), left) :=
    Tower.gather_mono (Nat.le_trans (Nat.le_max_left ..) enough) gathers
  have unfolded : ((calls (n + 1)).deduplicate d multi key limit).from? store =
      ((calls (n + 1)).force ⟨store.sequences.size + 1⟩).from? made := by
    have split : (calls (n + 1)).deduplicate d multi key limit = (do
        let supply ← Run.toSequence d (.bool multi)
        (calls (n + 1)).newDistinct (.ofSequence supply) key limit : Run SequenceId) >>=
          (calls (n + 1)).force := (bind_assoc ..).symm
    rw [split, Run.from?_bind_ok ends]
  rw [unfolded]
  rw [told] at forced
  rcases result : ((calls (n + 1)).force ⟨store.sequences.size + 1⟩).from? made with ⟨halt | values, after⟩ <;>
    rw [result] at forced
  · exact forced.1.elim
  · refine ⟨values, after, (List.range m).filter fun i => (List.range i).all fun j => !(keyAt j).collides (keyAt i),
      rfl, List.pairwise_lt_range.filter _, fun i => ?_, ?_⟩
    · rw [List.mem_filter, List.mem_range, List.all_eq_true]
      refine and_congr_right fun inside => forall_congr' fun j => ?_
      rw [List.mem_range]
      refine forall_congr' fun less => ?_
      have iff := Value.collides_iff (regular j (by omega)) (regular i inside)
      rw [Bool.not_eq_true', ← Bool.not_eq_true, iff]
      rfl
    · rw [← out]
      exact forced.1

/-- A set, an equal frozen set, which is fresh, and a set that is equal to both. -/
theorem deduplicate_firsts_sets :
    ∃ enough, ∀ n, enough ≤ n → ∃ after, ((calls n).deduplicate
      (.tuple [.set [.int 1], .frozenset [.int 1], .set [.bool true]]) false .null (.int 10000)).from? {} =
        (.ok [.set [.int 1], .frozenset [.int 1]], after) := by
  let elements : List Value := [.set [.int 1], .frozenset [.int 1], .set [.bool true]]
  let item (i : Nat) : Item := ⟨elements.getD i .null, false, some (elements.getD i .null)⟩
  have raw : Store.Raw {} (.tuple elements) :=
    ⟨.inl rfl, fun _ => isData_of_refs_nil rfl, fun given => (by cases given), fun _ found => (by cases found)⟩
  have gives : Store.Gives {} (.tuple elements) ((List.range 3).map item) :=
    ⟨_, _, rfl, ⟨rfl, rfl, rfl, rfl⟩, rfl⟩
  have later : (elements.getD 0 .null).Collides (elements.getD 2 .null) :=
    ⟨by simp [elements, Value.Alike, Value.HaveAlike, Value.SomeAlike, Value.members?, Value.essence?], .inl rfl⟩
  have apart : ¬ (elements.getD 0 .null).Collides (elements.getD 1 .null) := by
    rintro ⟨-, same | frozen⟩
    · cases same
    · cases frozen.1
  have regular : ∀ i < 3, (elements.getD i .null).Regular := by
    intro i less
    have among : i = 0 ∨ i = 1 ∨ i = 2 := by omega
    rcases among with rfl | rfl | rfl <;> simp [elements, Value.Regular, Value.RegularItems] <;> rfl
  obtain ⟨enough, all⟩ := @deduplicate_firsts _ _ .null (.int 10000) false 3 item (fun i => elements.getD i .null)
    raw gives (.inl rfl) (isData_of_refs_nil rfl) (fun _ _ => rfl) regular rfl rfl
  refine ⟨enough, fun n le => ?_⟩
  obtain ⟨values, after, indices, ends, sorted, kept, shows'⟩ := all n le
  obtain rfl : indices = [0, 1] := by
    refine sorted.eq_of_mem_iff (by decide) fun i => (kept i).trans ⟨?_, ?_⟩
    · rintro ⟨less, free⟩
      have among : i = 0 ∨ i = 1 ∨ i = 2 := by omega
      rcases among with rfl | rfl | rfl
      · simp
      · simp
      · exact absurd later (free 0 (by omega))
    · intro member
      simp only [List.mem_cons, List.not_mem_nil, or_false] at member
      rcases member with rfl | rfl
      · exact ⟨by omega, fun j less => absurd less (Nat.not_lt_zero j)⟩
      · refine ⟨by omega, fun j less => ?_⟩
        obtain rfl : j = 0 := by omega
        exact apart
  obtain ⟨first, second, rfl⟩ := List.length_eq_two.mp (List.Forall₂.length_eq shows')
  simp only [ShowsAll, List.map_cons, List.map_nil, List.forall₂_cons] at shows'
  obtain rfl := shows'.1.held _ rfl
  obtain rfl := shows'.2.1.held _ rfl
  exact ⟨after, ends⟩

end Store

end FirstSeen
