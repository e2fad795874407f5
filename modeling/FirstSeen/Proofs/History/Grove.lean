import FirstSeen.Proofs.History.Branching
import Mathlib.Data.List.Induction

/-!
# Groves

A grove is a sequence with the pipelines that are bound to it, told without a store: the tower of the sequence, and the
tower of each pipeline that was woken. A visit to the sequence or to a pipeline moves the tower of the sequence for all of
them. What visits come to is the same for a grove and for a store that bears it.

A pipeline that was woken early, as by a question, can be told from one that still sleeps only by who finds the sequence
started: as long as neither is asked then, both groves show the same.
-/

set_option autoImplicit false

namespace FirstSeen

/-- The tower of a sequence, and the towers of those pipelines on it that were woken. -/
structure Grove where
  base : Tower
  branch : SequenceId → Option Tower

/-- What stays the same about a grove: which sequence its root is, how the pipelines filter, and the tower that the root is
at its beginning. -/
structure Plot where
  root : SequenceId
  rules : SequenceId → List Rule
  start : Tower

namespace Plot

variable (plot : Plot)

/-- How many layers a pipeline has on the root. -/
def layers (p : SequenceId) : Nat := (plot.rules p).length + 1

/-- The tower of a pipeline that was not woken. -/
def bud (p : SequenceId) : Tower := .passage {} (.filters (plot.rules p) plot.start)

/-- The tower of a pipeline. -/
def towerOf (grove : Grove) (p : SequenceId) : Tower := (grove.branch p).getD (plot.bud p)

/-- The grove once its root has become a tower. -/
def moved (grove : Grove) (base : Tower) : Grove :=
  ⟨base, fun p => (grove.branch p).map fun tower => tower.graft (plot.layers p) base⟩

/-- The grove once a pipeline has become a tower. -/
def grown (grove : Grove) (p : SequenceId) (tower : Tower) : Grove :=
  let moved := plot.moved grove (tower.beneath (plot.layers p))
  { moved with branch := fun other => if other = p then some tower else moved.branch other }

/-- What is seen at a visit, and the grove after it, unless this is out of fuel. -/
def visit (multi : Bool) (n : Nat) (visit : Visit) (grove : Grove) : Option (List Outcome × Grove) :=
  if visit.id = plot.root then
    ((Scene.mk grove.base []).play multi n visit.ops).map fun played => (played.1, plot.moved grove played.2.tower)
  else
    ((Scene.mk (plot.towerOf grove visit.id) []).play multi n visit.ops).map fun played =>
      (played.1, if (grove.branch visit.id).isSome || Op.wakesAmong 0 visit.ops then
        plot.grown grove visit.id played.2.tower else grove)

/-- What is seen at visits in turn, and the grove after them. -/
def tour (multi : Bool) (n : Nat) : List Visit → Grove → Option (List (List Outcome) × Grove)
  | [], grove => some ([], grove)
  | visit :: rest, grove =>
    match plot.visit multi n visit grove with
    | none => none
    | some (seen, grove) => (tour multi n rest grove).map fun toured => (seen :: toured.1, toured.2)

/-- Whether the towers of all pipelines stand on that of the root. -/
def Level (grove : Grove) : Prop :=
  ∀ p tower, grove.branch p = some tower → plot.layers p < tower.height ∧ tower.beneath (plot.layers p) = grove.base

variable {plot} {grove other : Grove} {p q : SequenceId} {multi : Bool} {n : Nat}

/-! ## What stands on the root -/

theorem beneath_filters (rules : List Rule) (below : Tower) : (Tower.filters rules below).beneath rules.length = below := by
  induction rules using List.reverseRecOn with
  | nil => rfl
  | append_singleton rules rule ih =>
    rw [Tower.filters, List.foldl_append, List.length_append]
    exact ih

theorem beneath_bud (plot : Plot) (p : SequenceId) : (plot.bud p).beneath (plot.layers p) = plot.start :=
  beneath_filters (plot.rules p) plot.start

theorem height_bud (plot : Plot) (p : SequenceId) : (plot.bud p).height = plot.layers p + plot.start.height := by
  simp only [bud, Tower.height, Tower.height_filters, layers]
  omega

theorem layers_lt_bud (plot : Plot) (p : SequenceId) : plot.layers p < (plot.bud p).height := by
  rw [height_bud]
  have := plot.start.height_pos
  omega

theorem fresh_bud (fresh : plot.start.Fresh) (p : SequenceId) : (plot.bud p).Fresh := ⟨rfl, Tower.fresh_filters fresh⟩

theorem graft_graft (tower below last : Tower) (k : Nat) : (tower.graft k below).graft k last = tower.graft k last := by
  induction k generalizing tower with
  | zero => rfl
  | succ k ih =>
    cases tower with
    | ground pass origin => rfl
    | passage pass below => exact congrArg (Tower.passage pass) (ih below)
    | filter pass rule seen below => exact congrArg (Tower.filter pass rule seen) (ih below)

/-- Moving the root moves what stands on it. -/
theorem Level.moved (level : plot.Level grove) (base : Tower) : plot.Level (plot.moved grove base) := by
  intro p tower found
  obtain ⟨tower', found', rfl⟩ := Option.map_eq_some_iff.mp found
  obtain ⟨deep, -⟩ := level p tower' found'
  refine ⟨?_, Tower.beneath_graft deep⟩
  rw [Tower.height_graft deep]
  have := base.height_pos
  omega

theorem Level.grown (level : plot.Level grove) {tower : Tower} (deep : plot.layers p < tower.height) :
    plot.Level (plot.grown grove p tower) := by
  intro q other found
  simp only [Plot.grown] at found
  split at found
  · cases found
    rename_i same
    subst same
    exact ⟨deep, rfl⟩
  · exact level.moved _ q other found

/-- Moving the root to where it is changes nothing. -/
theorem Level.moved_base (level : plot.Level grove) : plot.moved grove grove.base = grove := by
  obtain ⟨base, branch⟩ := grove
  simp only [Plot.moved, Grove.mk.injEq, true_and]
  funext p
  cases found : branch p with
  | none => rfl
  | some tower =>
    have same := (level p tower found).2
    simp only [Option.map_some, Option.some.injEq]
    rw [← show tower.beneath (plot.layers p) = base from same]
    exact Tower.graft_beneath ..

/-! ## Two groves -/

/-- Whether groves differ in a pipeline that sleeps in one and was woken in the other, and nowhere else. -/
structure Late (plot : Plot) (p : SequenceId) (grove other : Grove) : Prop where
  base : other.base = grove.base
  asleep : grove.branch p = none
  awake : other.branch p = some ((plot.bud p).graft (plot.layers p) grove.base)
  same : ∀ q ≠ p, other.branch q = grove.branch q

theorem Late.moved (late : plot.Late p grove other) (base : Tower) :
    plot.Late p (plot.moved grove base) (plot.moved other base) := by
  refine ⟨rfl, by simp [Plot.moved, late.asleep], ?_, fun q different => ?_⟩
  · simp only [Plot.moved, late.awake, Option.map_some, graft_graft]
  · simp only [Plot.moved, late.same q different]

/-- What is done with another pipeline leaves groves that differ in one as they are. -/
theorem Late.grown (late : plot.Late p grove other) (different : q ≠ p) (tower : Tower) :
    plot.Late p (plot.grown grove q tower) (plot.grown other q tower) := by
  obtain ⟨base, asleep, awake, same⟩ := late.moved (tower.beneath (plot.layers q))
  refine ⟨rfl, ?_, ?_, fun r apart => ?_⟩
  · rw [Plot.grown]
    simp only [if_neg different.symm]
    exact asleep
  · rw [Plot.grown]
    simp only [if_neg different.symm]
    exact awake
  · rw [Plot.grown, Plot.grown]
    simp only
    split
    · rfl
    · exact same r apart

/-- Once the pipeline is woken in both groves they are the same. -/
theorem Late.grown_same (late : plot.Late p grove other) (tower : Tower) :
    plot.grown other p tower = plot.grown grove p tower := by
  obtain ⟨-, -, -, same⟩ := late.moved (tower.beneath (plot.layers p))
  simp only [Plot.grown, Grove.mk.injEq]
  refine ⟨rfl, funext fun q => ?_⟩
  split
  · rfl
  · rename_i apart
    exact same q apart

/-- Waking a pipeline while the root is at its beginning gives a grove that differs in it and nowhere else. -/
theorem Level.late (level : plot.Level grove) (asleep : grove.branch p = none) (begun : grove.base = plot.start) :
    plot.Late p grove (plot.grown grove p (plot.bud p)) := by
  have unmoved : plot.moved grove plot.start = grove := begun ▸ level.moved_base
  rw [Plot.grown, beneath_bud, unmoved]
  refine ⟨rfl, asleep, ?_, fun q different => if_neg different⟩
  simp only [if_true]
  rw [begun, ← plot.beneath_bud p, Tower.graft_beneath]

/-- While the root is at its beginning, a pipeline that was woken and taken back differs as before from one that sleeps. -/
theorem Late.grown_bud (late : plot.Late p grove other) (level : plot.Level grove) (begun : grove.base = plot.start) :
    plot.Late p grove (plot.grown other p (plot.bud p)) := by
  rw [late.grown_same]
  exact level.late late.asleep begun

/-- A visit comes to the same for groves that differ in a pipeline, unless the pipeline is visited while the root is not at
its beginning. They differ afterwards in no more. -/
theorem Late.visit (late : plot.Late p grove other) (level : plot.Level grove) (fresh : plot.start.Fresh)
    {visit : Visit} (quiet : visit.id = p → grove.base = plot.start) {seen : List Outcome} {left : Grove}
    (visits : plot.visit multi n visit grove = some (seen, left)) :
    ∃ left', plot.visit multi n visit other = some (seen, left') ∧ (left = left' ∨ plot.Late p left left') := by
  unfold Plot.visit at visits ⊢
  by_cases root : visit.id = plot.root
  · rw [if_pos root] at visits ⊢
    obtain ⟨⟨seen', scene⟩, played, same⟩ := Option.map_eq_some_iff.mp visits
    cases same
    rw [late.base, played]
    exact ⟨_, rfl, .inr (late.moved _)⟩
  · rw [if_neg root] at visits ⊢
    obtain ⟨⟨seen', scene⟩, played, same⟩ := Option.map_eq_some_iff.mp visits
    cases same
    by_cases here : visit.id = p
    · -- The root is at its beginning, so that the pipeline is the same tower in both.
      have begun := quiet here
      have tower : plot.towerOf other visit.id = plot.towerOf grove visit.id := by
        rw [here, towerOf, towerOf, late.asleep, late.awake, begun, ← plot.beneath_bud p, Tower.graft_beneath]
        rfl
      rw [tower, played]
      refine ⟨_, rfl, ?_⟩
      rw [here, late.asleep, late.awake]
      simp only [Option.isSome_none, Option.isSome_some, Bool.false_or, Bool.true_or, if_true]
      cases wakes : Op.wakesAmong 0 visit.ops with
      | true =>
        left
        rw [if_pos rfl, late.grown_same]
      | false =>
        right
        have asleep : scene.tower = plot.bud p := by
          have bud : plot.towerOf grove visit.id = plot.bud p := by rw [here, towerOf, late.asleep]; rfl
          rw [bud] at played
          have begun' : (Scene.mk (plot.bud p) []).tower.Fresh := fresh_bud fresh p
          exact Scene.play_asleep begun' wakes played
        rw [if_neg Bool.false_ne_true, asleep]
        exact late.grown_bud level begun
    · have tower : plot.towerOf other visit.id = plot.towerOf grove visit.id := by
        rw [towerOf, towerOf, late.same _ here]
      rw [tower, played]
      refine ⟨_, rfl, .inr ?_⟩
      rw [late.same _ here]
      simp only
      split
      · exact late.grown here _
      · exact late

/-- A visit leaves the towers of all pipelines on that of the root. -/
theorem Level.visit (level : plot.Level grove) {visit : Visit} {seen : List Outcome} {left : Grove}
    (visits : plot.visit multi n visit grove = some (seen, left)) : plot.Level left := by
  rw [Plot.visit] at visits
  split at visits
  · obtain ⟨⟨seen', scene⟩, played, same⟩ := Option.map_eq_some_iff.mp visits
    cases same
    exact level.moved _
  · obtain ⟨⟨seen', scene⟩, played, same⟩ := Option.map_eq_some_iff.mp visits
    cases same
    have height : scene.tower.height = (plot.towerOf grove visit.id).height :=
      Scene.play_keeps (Tower.steady_height _) rfl played
    have deep : plot.layers visit.id < (plot.towerOf grove visit.id).height := by
      rw [towerOf]
      cases found : grove.branch visit.id with
      | none => exact plot.layers_lt_bud visit.id
      | some tower => exact (level _ tower found).1
    simp only
    split
    · exact level.grown (by rw [height]; exact deep)
    · exact level

/-- Visits come to the same for groves that differ in a pipeline, unless the pipeline is visited while it sleeps in one of
them and the root is not at its beginning. -/
theorem Late.tour (fresh : plot.start.Fresh) {visits : List Visit} {grove other left : Grove}
    (level : plot.Level grove) (late : grove = other ∨ plot.Late p grove other)
    {seen : List (List Outcome)} (toured : plot.tour multi n visits grove = some (seen, left))
    (quiet : ∀ earlier visit later, visits = earlier ++ visit :: later → visit.id = p → ∀ seen between,
      plot.tour multi n earlier grove = some (seen, between) → between.branch p = none → between.base = plot.start) :
    ∃ left', plot.tour multi n visits other = some (seen, left') := by
  induction visits generalizing grove other seen with
  | nil =>
    cases toured
    exact ⟨other, rfl⟩
  | cons visit rest ih =>
    rw [Plot.tour] at toured ⊢
    rcases visited : plot.visit multi n visit grove with _ | ⟨here, between⟩ <;> simp only [visited] at toured
    · cases toured
    · obtain ⟨⟨others, last⟩, toured', same⟩ := Option.map_eq_some_iff.mp toured
      cases same
      obtain ⟨between', visited', late'⟩ : ∃ between', plot.visit multi n visit other = some (here, between') ∧
          (between = between' ∨ plot.Late p between between') := by
        rcases late with rfl | late
        · exact ⟨between, visited, .inl rfl⟩
        · exact late.visit level fresh
            (fun same => quiet [] visit rest rfl same [] grove rfl late.asleep) visited
      obtain ⟨left', toured''⟩ := ih (level.visit visited) late' toured'
        fun earlier visit' later split same seen last reach =>
        quiet (visit :: earlier) visit' later (by rw [split]; rfl) same (here :: seen) last (by
          rw [Plot.tour]
          simp only [visited, reach, Option.map_some])
      exact ⟨left', by simp only [visited', toured'', Option.map_some]⟩

/-! ## Questions -/

/-- Putting the tower of a pipeline in its place changes nothing. -/
theorem Level.grown_self (level : plot.Level grove) {tower : Tower} (found : grove.branch p = some tower) :
    plot.grown grove p tower = grove := by
  rw [Plot.grown, (level p tower found).2, level.moved_base]
  obtain ⟨base, branch⟩ := grove
  simp only [Grove.mk.injEq, true_and]
  funext q
  split
  · rename_i same
    rw [same, ← show branch p = some tower from found]
  · rfl

/-- A question to a pipeline wakes it and does nothing else. -/
theorem visit_query (apart : p ≠ plot.root) {query : Op} (asks : query = .size ∨ query = .multiValue) :
    ∃ reply, plot.visit multi n ⟨p, [query]⟩ grove = some ([reply], plot.grown grove p (plot.towerOf grove p)) := by
  have wakes : Op.wakesAmong 0 [query] = true := by rcases asks with rfl | rfl <;> rfl
  obtain ⟨answer, asked⟩ : ∃ answer, (Scene.mk (plot.towerOf grove p) []).perform multi n query =
      some (answer, ⟨plot.towerOf grove p, []⟩) := by
    rcases asks with rfl | rfl <;> exact ⟨_, rfl⟩
  refine ⟨Scene.outcome answer ⟨plot.towerOf grove p, []⟩, ?_⟩
  rw [Plot.visit, if_neg apart, Scene.play, asked]
  simp only [Scene.play, Option.map_some, wakes, Bool.or_true, if_true]

/-- A question to a pipeline changes nothing of what visits come to afterwards, if the pipeline was woken before. Nor does
it if the root is at its beginning, both now and whenever the pipeline is visited before anything else has woken it. -/
theorem tour_query (fresh : plot.start.Fresh) (level : plot.Level grove) (apart : p ≠ plot.root) {query : Op}
    (asks : query = .size ∨ query = .multiValue) {visits : List Visit} {seen : List (List Outcome)} {left : Grove}
    (toured : plot.tour multi n visits grove = some (seen, left))
    (quiet : grove.branch p = none → grove.base = plot.start ∧
      ∀ earlier visit later, visits = earlier ++ visit :: later → visit.id = p → ∀ seen between,
        plot.tour multi n earlier grove = some (seen, between) → between.branch p = none → between.base = plot.start) :
    ∃ reply left', plot.tour multi n (⟨p, [query]⟩ :: visits) grove = some ([reply] :: seen, left') := by
  obtain ⟨reply, asked⟩ : ∃ reply, plot.visit multi n ⟨p, [query]⟩ grove = _ := visit_query apart asks
  have among : ∃ left', plot.tour multi n visits (plot.grown grove p (plot.towerOf grove p)) = some (seen, left') := by
    rw [towerOf]
    cases found : grove.branch p with
    | some tower =>
      rw [Option.getD_some, level.grown_self found]
      exact ⟨left, toured⟩
    | none =>
      obtain ⟨begun, quiet⟩ := quiet found
      exact Late.tour fresh level (.inr (level.late found begun)) toured quiet
  obtain ⟨left', toured'⟩ := among
  refine ⟨reply, left', ?_⟩
  rw [Plot.tour, asked]
  simp only [toured', Option.map_some]

end Plot

end FirstSeen
