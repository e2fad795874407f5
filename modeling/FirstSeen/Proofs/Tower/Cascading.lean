import FirstSeen.Proofs.Distinctness

/-!
# Stages above stages

What gets through stages that stand above others is what the upper ones let through of what gets through the lower ones,
and a fault is met in one of the two. So a chain can be taken apart at any height.

A stage above another one sees only what that one let through, and remembers the keys of no other elements. It lets
through what it would alone if elements whose keys collide below have keys that collide above: the first elements among
those that get that far are then the first ones of all.
-/

set_option autoImplicit false

namespace FirstSeen

namespace Stage

/-- An element that gets through the lower stages goes up through the upper ones. -/
theorem sieve_append (below above : List Stage) (item : Item) :
    sieve (below ++ above) item =
      match sieve below item with
      | (.ok true, below) => ((sieve above item).1, below ++ (sieve above item).2)
      | (verdict, below) => (verdict, below ++ above) := by
  induction below with
  | nil => rfl
  | cons first rest ih =>
    simp only [List.cons_append, sieve, ih]
    rcases first.judge item with ⟨_ | _ | _, after⟩
    · rfl
    · rfl
    · rcases sieve rest item with ⟨_ | _ | _, others⟩ <;> rfl

/-- The upper stages let through some of what the lower ones do. -/
theorem outputs_append (below above : List Stage) (items : List Item) :
    outputs (below ++ above) items = outputs above (outputs below items) := by
  induction items generalizing below above with
  | nil => rfl
  | cons item rest ih =>
    simp only [outputs, sieve_append]
    rcases sieve below item with ⟨_ | _ | _, below'⟩
    · exact ih below' above
    · exact ih below' above
    · simp only [outputs]
      rcases sieve above item with ⟨_ | _ | _, above'⟩ <;> simp only [ih]

/-- No fault is met in some stages if none is met in the lower ones, nor in the upper ones by what gets there. -/
theorem smooth_append {below above : List Stage} {items : List Item} (smooth : Smooth below items)
    (smooth' : Smooth above (outputs below items)) : Smooth (below ++ above) items := by
  induction items generalizing below above with
  | nil => trivial
  | cons item rest ih =>
    obtain ⟨⟨fresh, judged⟩, smooth⟩ := smooth
    rw [outputs] at smooth'
    rw [Smooth, sieve_append]
    rcases sieved : sieve below item with ⟨_ | _ | _, below'⟩ <;> rw [sieved] at judged smooth smooth'
    · cases judged
    · exact ⟨⟨false, rfl⟩, ih smooth smooth'⟩
    · exact ⟨smooth'.1, ih smooth smooth'.2⟩

/-- What gets through stages comes in the order in which it went up. -/
theorem outputs_sublist (stages : List Stage) (items : List Item) : (outputs stages items).Sublist items := by
  induction items generalizing stages with
  | nil => exact .slnil
  | cons item rest ih =>
    rw [outputs]
    rcases sieve stages item with ⟨_ | _ | _, after⟩
    · exact (ih after).cons item
    · exact (ih after).cons item
    · exact (ih after).cons_cons item

end Stage

/-! ## Chains without faults -/

/-- Whether a rule finds regular keys for some elements, and fails by no limit. -/
structure Rule.Settles (rule : Rule) (items : List Item) : Prop where
  keys : ∀ item ∈ items, ∃ key, rule.keyOf item = .ok key ∧ key.Regular
  noProbe : rule.limit.isProbe = false
  calm : rule.raising = false

/-- The key that a rule finds for an element, or null if it finds none. -/
def Rule.keyFor (rule : Rule) (item : Item) : Value := (rule.keyOf item).toOption.getD .null

/-- The elements whose keys collide neither with some keys nor with that of an earlier element. -/
def Rule.firstsAfter (rule : Rule) (earlier : List Value) : List Item → List Item
  | [] => []
  | item :: rest =>
    let others := rule.firstsAfter (earlier ++ [rule.keyFor item]) rest
    if earlier.all fun v => !v.collides (rule.keyFor item) then item :: others else others

/-- Elements for which a rule finds regular keys meet no fault in its stage, whatever keys it met before, and those get
through whose keys are new. -/
theorem Rule.Settles.outputs {rule : Rule} {items : List Item} (settles : rule.Settles items) {seen : Seen}
    {earlier : List Value} (remembers : seen.Remembers earlier) (regular : ∀ v ∈ earlier, v.Regular) :
    Stage.Smooth [⟨rule, seen⟩] items ∧ Stage.outputs [⟨rule, seen⟩] items = rule.firstsAfter earlier items := by
  induction items generalizing seen earlier with
  | nil => exact ⟨trivial, rfl⟩
  | cons item rest ih =>
    obtain ⟨key, found, regular'⟩ := settles.keys item List.mem_cons_self
    obtain ⟨outcome, remembers'⟩ := Seen.record_spec remembers regular regular' settles.noProbe
    have judged : Stage.sieve [⟨rule, seen⟩] item =
        (.ok (earlier.all fun v => !v.collides key), [⟨rule, (seen.record rule.limit false key).seen⟩]) := by
      rw [Stage.sieve, Stage.judge, Rule.judge, found]
      simp only [settles.calm, outcome]
      cases earlier.all fun v => !v.collides key <;> rfl
    obtain ⟨smooth, out⟩ := ih ⟨fun other member => settles.keys other (List.mem_cons_of_mem _ member), settles.noProbe,
      settles.calm⟩ remembers' fun v member =>
        (List.mem_append.mp member).elim (regular v) fun new => List.mem_singleton.mp new ▸ regular'
    have own : rule.keyFor item = key := by rw [Rule.keyFor, found]; rfl
    rw [Stage.Smooth, Stage.outputs, judged, Rule.firstsAfter, own]
    refine ⟨⟨⟨_, rfl⟩, smooth⟩, ?_⟩
    cases earlier.all fun v => !v.collides key
    · exact out
    · exact congrArg (item :: ·) out

/-- Elements for which all rules find regular keys meet no fault in a chain of new stages, of which each lets through those
whose keys are new to it. -/
theorem outputs_of_settles {rules : List Rule} {items : List Item} (settles : ∀ rule ∈ rules, rule.Settles items) :
    Stage.Smooth (rules.map (⟨·, .empty⟩)) items ∧ Stage.outputs (rules.map (⟨·, .empty⟩)) items =
      rules.foldl (fun items rule => rule.firstsAfter [] items) items := by
  induction rules generalizing items with
  | nil =>
    clear settles
    induction items with
    | nil => exact ⟨trivial, rfl⟩
    | cons item rest ih => exact ⟨⟨⟨true, rfl⟩, ih.1⟩, congrArg (item :: ·) ih.2⟩
  | cons rule rest ih =>
    rw [List.forall_mem_cons] at settles
    obtain ⟨smooth, out⟩ := settles.1.outputs Seen.remembers_empty (by simp)
    obtain ⟨smooth', out'⟩ := ih fun other member => by
      obtain ⟨keys, noProbe, calm⟩ := settles.2 other member
      exact ⟨fun item there => keys item ((Stage.outputs_sublist [⟨rule, .empty⟩] items).subset there), noProbe, calm⟩
    have both := Stage.smooth_append smooth smooth'
    refine ⟨both, ?_⟩
    rw [List.map_cons, ← List.singleton_append, Stage.outputs_append, out', out]
    rfl

/-! ## A stage that is absorbed -/

section Absorbing

variable {m : Nat} {key key' : Nat → Value}

/-- A key that is a first one above is a first one below, if what collides below collides above. -/
theorem firsts_subset (regular : ∀ i < m, (key i).Regular) (regular' : ∀ i < m, (key' i).Regular)
    (coarser : ∀ i < m, ∀ j < i, (key j).Collides (key i) → (key' j).Collides (key' i)) :
    firsts m key' ⊆ firsts m key := by
  intro i first
  obtain ⟨inside, free⟩ := (mem_firsts regular').mp first
  exact (mem_firsts regular).mpr ⟨inside, fun j less collides => free j less (coarser i inside j less collides)⟩

/-- The first keys above among the places of the first keys below are the first keys above of all. -/
theorem firsts_among_firsts (regular : ∀ i < m, (key i).Regular) (regular' : ∀ i < m, (key' i).Regular)
    (coarser : ∀ i < m, ∀ j < i, (key j).Collides (key i) → (key' j).Collides (key' i)) {places : List Nat}
    (are : places = firsts m key) {place : Nat → Nat} (at' : ∀ a (inside : a < places.length), place a = places[a]) :
    (firsts places.length fun a => key' (place a)).map place = firsts m key' := by
  have sorted : places.Pairwise (· < ·) := are ▸ firsts_sorted m key
  have inside : ∀ a < places.length, place a ∈ places ∧ place a < m := by
    intro a less
    have member : place a ∈ places := at' a less ▸ List.getElem_mem less
    exact ⟨member, ((mem_firsts regular).mp (are ▸ member)).1⟩
  have order : ∀ a < places.length, ∀ b < a, place b < place a := by
    intro a less b earlier
    rw [at' a less, at' b (by omega)]
    exact List.pairwise_iff_getElem.mp sorted b a _ less earlier
  have regularAt : ∀ a < places.length, (key' (place a)).Regular := fun a less => regular' _ (inside a less).2
  refine (List.Pairwise.map place ?_ ((firsts_sorted places.length fun a => key' (place a)).imp_of_mem
    fun {b a} _ member earlier => And.intro member earlier)).eq_of_mem_iff (firsts_sorted m key') fun i => ?_
  · rintro b a ⟨member, earlier⟩
    exact order a ((mem_firsts regularAt).mp member).1 b earlier
  · rw [List.mem_map]
    constructor
    · rintro ⟨a, first, rfl⟩
      obtain ⟨less, free⟩ := (mem_firsts regularAt).mp first
      refine (mem_firsts regular').mpr ⟨(inside a less).2, fun j earlier collides => ?_⟩
      -- What it collides with may have been dropped below, but then it collides with a first one, which was not.
      obtain ⟨k, first', earlier', collides'⟩ := exists_first_of_collides regular' (inside a less).2 earlier collides
      have there : k ∈ places := are ▸ firsts_subset regular regular' coarser first'
      obtain ⟨b, less', rfl⟩ := List.getElem_of_mem there
      rw [← at' b less'] at earlier' collides'
      have before : b < a := by
        by_contra later
        rcases Nat.lt_or_eq_of_le (Nat.le_of_not_lt later) with later | rfl
        · exact absurd (order b less' a later) (by omega)
        · exact absurd earlier' (Nat.lt_irrefl _)
      exact free b before collides'
    · intro first
      have there : i ∈ places := are ▸ firsts_subset regular regular' coarser first
      obtain ⟨a, less, rfl⟩ := List.getElem_of_mem there
      rw [← at' a less] at first ⊢
      refine ⟨a, (mem_firsts regularAt).mpr ⟨less, fun b earlier collides => ?_⟩, rfl⟩
      exact ((mem_firsts regular').mp first).2 (place b) (order a less b earlier) collides

variable {rule rule' : Rule} {item : Nat → Item}

/-- A stage above another one lets through what it would alone, if what collides below collides above. -/
theorem outputs_absorbed (keys : ∀ i < m, rule.keyOf (item i) = .ok (key i))
    (keys' : ∀ i < m, rule'.keyOf (item i) = .ok (key' i)) (regular : ∀ i < m, (key i).Regular)
    (regular' : ∀ i < m, (key' i).Regular) (noProbe : rule.limit.isProbe = false) (noProbe' : rule'.limit.isProbe = false)
    (calm : rule.raising = false) (calm' : rule'.raising = false)
    (coarser : ∀ i < m, ∀ j < i, (key j).Collides (key i) → (key' j).Collides (key' i)) :
    Stage.Smooth [⟨rule, .empty⟩, ⟨rule', .empty⟩] ((List.range m).map item) ∧
      Stage.outputs [⟨rule, .empty⟩, ⟨rule', .empty⟩] ((List.range m).map item) = (firsts m key').map item := by
  obtain ⟨smooth, -, lower⟩ := sieve_firsts keys regular noProbe calm
  change Stage.outputs _ _ = (firsts m key).map item at lower
  -- The survivors of the lower stage, numbered by their own places.
  let places := firsts m key
  let place (a : Nat) : Nat := places.getD a 0
  have at' : ∀ a (inside : a < places.length), place a = places[a] := fun a less => by simp [place, less]
  have survivors : (List.range places.length).map (fun a => item (place a)) = places.map item := by
    refine List.ext_getElem (by simp) fun a less _ => ?_
    have less : a < places.length := by simpa using less
    simp [at' a less]
  have inside : ∀ a < places.length, place a < m := fun a less =>
    ((mem_firsts regular).mp (at' a less ▸ List.getElem_mem less)).1
  have keysOf : ∀ a < places.length, rule'.keyOf (item (place a)) = .ok (key' (place a)) :=
    fun a less => keys' _ (inside a less)
  have regularAt : ∀ a < places.length, (key' (place a)).Regular := fun a less => regular' _ (inside a less)
  obtain ⟨smooth', -, upper⟩ := sieve_firsts keysOf regularAt noProbe' calm'
  rw [survivors, ← lower] at smooth' upper
  have both := Stage.smooth_append smooth smooth'
  refine ⟨both, ?_⟩
  rw [show [(⟨rule, .empty⟩ : Stage), ⟨rule', .empty⟩] = [⟨rule, .empty⟩] ++ [⟨rule', .empty⟩] from rfl,
    Stage.outputs_append, upper, ← firsts_among_firsts regular regular' coarser rfl at', List.map_map]
  rfl

end Absorbing

end FirstSeen
