import FirstSeen.Proofs.Deduplication
import FirstSeen.Proofs.History.Interleaving
import FirstSeen.Proofs.Rewinding
import FirstSeen.Proofs.Tower.Materializing
import FirstSeen.Proofs.Tower.Restarting

/-!
# Taking all elements from the beginning

A distinct stage and the sequence that it was made on can both be asked, in any order. Taking all elements of the stage
begins again if the stage was started, and then gives all first occurrences, wherever the other sequence was; so it
does, above all, right after all elements of the stage were taken. If the stage was not started, it goes on from where
the other sequence is: it gives all first occurrences if that was not started either, but only what is left otherwise.
-/

set_option autoImplicit false

namespace FirstSeen

namespace Tower

/-- Whether a filter and the tower below it have come from their beginning, each in its own way: both can be taken
back to it, and either is there unless it was started. -/
structure Paired (rule : Rule) (origin : Origin) (tower : Tower) : Prop where
  returns : Returns (filter {} rule .empty (ground {} origin)) tower
  rested : tower.Rested
  below : tower.lower.Rested

theorem steady_paired (rule : Rule) (origin : Origin) : Steady (Paired rule origin) := by
  have steady := (steady_returns (filter {} rule .empty (ground {} origin))).and
    (steady_rested.and steady_rested.lower)
  have iff : ∀ tower, Paired rule origin tower ↔ Returns (filter {} rule .empty (ground {} origin)) tower ∧
      tower.Rested ∧ tower.lower.Rested :=
    fun tower => ⟨fun paired => ⟨paired.returns, paired.rested, paired.below⟩, fun ⟨h, k, l⟩ => ⟨h, k, l⟩⟩
  simpa only [← iff] using steady

variable {rule : Rule} {origin : Origin} {tower : Tower}

/-- A filter and a ground below it, told apart. -/
theorem Paired.parts (paired : Paired rule origin tower) :
    ∃ pass seen below, tower = filter pass rule seen below ∧ Returns (ground {} origin) below ∧ below.Rested ∧
      (pass.started = false → pass = {} ∧ seen = .empty) := by
  obtain ⟨⟨repeats, silent, blank⟩, rested, below⟩ := paired
  cases tower with
  | ground pass origin | passage pass below => cases blank
  | filter pass rule' seen lower =>
    simp only [Tower.blank, filter.injEq, true_and] at blank
    obtain ⟨rfl, bottom⟩ := blank
    exact ⟨pass, seen, lower, rfl, ⟨repeats, silent, bottom⟩, below, rested⟩

theorem paired_of_parts {pass : Pass} {seen : Seen} {below : Tower} (returns : Returns (ground {} origin) below)
    (rested : below.Rested) (idle : pass.started = false → pass = {} ∧ seen = .empty) :
    Paired rule origin (filter pass rule seen below) :=
  ⟨⟨returns.repeats, returns.silent, by rw [Tower.blank, returns.blank]⟩, idle, rested⟩

/-- The lower one of the two may be asked by itself. -/
theorem Paired.graft {other : Tower} (paired : Paired rule origin tower) (returns : Returns (ground {} origin) other)
    (rested : other.Rested) : Paired rule origin (tower.graft 1 other) := by
  obtain ⟨pass, seen, below, rfl, -, -, idle⟩ := paired.parts
  exact paired_of_parts returns rested idle

/-- A ground that was not started is where it began. -/
theorem eq_of_rested {below : Tower} (returns : Returns (ground {} origin) below) (rested : below.Rested)
    (unstarted : below.pass.started = false) : below = ground {} origin := by
  have blank := returns.blank
  cases below with
  | passage pass below | filter pass rule seen below => cases blank
  | ground pass origin' =>
    obtain ⟨rfl, free⟩ := rested unstarted
    rw [← blank]
    have fresh : (ground {} origin').Fresh := ⟨rfl, free⟩
    exact fresh.blank.symm

/-- Taking all elements begins again if the filter was started, and if neither of the two was. -/
theorem Paired.restart (paired : Paired rule origin tower)
    (ready : tower.pass.started = true ∨ tower.lower.pass.started = false) :
    tower.restart = (none, filter {} rule .empty (ground {} origin)) := by
  rw [Tower.restart]
  by_cases started : tower.pass.started
  · rw [if_pos started]
    exact paired.returns.rewind
  · obtain ⟨pass, seen, below, rfl, returns, rested, idle⟩ := paired.parts
    obtain ⟨rfl, rfl⟩ := idle (Bool.eq_false_iff.mpr started)
    rw [if_neg started, eq_of_rested returns rested (ready.resolve_left started)]

/-- Taking all elements starts the filter, unless it fails before. -/
theorem Paired.started_force {n : Nat} {left : Tower} {items : List Item} (paired : Paired rule origin tower)
    (forces : tower.force n = some (.ok items, left)) : left.pass.started = true := by
  have rested := (steady_rested).restart paired.rested
  rw [force] at forces
  rcases restarts : tower.restart with ⟨_ | fault, begun⟩ <;> rw [restarts] at forces rested
  · exact rested.started_gather forces
  · cases forces

end Tower

namespace Store

/-- Whether all elements of a stage can be taken, and are those whose keys collide with no earlier key, as the objects
that they are and in the order in which they come. -/
def GivesFirsts (store : Store) (stage : SequenceId) (m : Nat) (item : Nat → Item) (keyAt : Nat → Value) : Prop :=
  ∃ enough, ∀ n, enough ≤ n → ∃ (values : List Value) (after : Store) (indices : List Nat),
    ((calls n).force stage).from? store = (.ok values, after) ∧
    indices.Pairwise (· < ·) ∧
    (∀ i, i ∈ indices ↔ i < m ∧ ∀ j < i, ¬ (keyAt j).Collides (keyAt i)) ∧
    after.ShowsAll Item.Plain values (indices.map item)

section Stage

variable {store : Store} {key limit : Value} {aside : Option CursorId} {multi : Bool} {m : Nat} {item : Nat → Item}
  {keyAt : Nat → Value} {supply stage : SequenceId} {rule : Rule} {origin : Origin} {tower : Tower}

/-- A stage whose tower begins again gives all first occurrences. -/
theorem Stands.givesFirsts (stands : store.Stands Item.Plain aside multi stage [stage, supply] tower)
    (paired : tower.Paired rule origin) (ready : tower.pass.started = true ∨ tower.lower.pass.started = false)
    {tape last : Tape} (source : origin.current = some tape) (reaches : tape.Reaches ((List.range m).map item) last)
    (ended : last.Ended) (keys : ∀ i < m, rule.keyOf (item i) = .ok (keyAt i)) (regular : ∀ i < m, (keyAt i).Regular)
    (noProbe : rule.limit.isProbe = false) (calm : rule.raising = false) : store.GivesFirsts stage m item keyAt := by
  obtain ⟨smooth, -, out⟩ := @sieve_firsts rule _ _ _ keys regular noProbe calm
  have awake : (Tower.filter {} rule .empty (.ground {} origin)).Calm := ⟨⟨rfl, rfl⟩, rfl, rfl⟩
  obtain ⟨enough, left, forces⟩ := Tower.force_outputs (paired.restart ready) awake source reaches ended smooth
  refine ⟨max enough (4 * tower.height + 1), fun n le => ?_⟩
  obtain ⟨values, after, given, shows', -⟩ := Holds.forces (Awake.holds ⟨_, stands⟩)
    (Nat.le_trans (Nat.le_max_right ..) le) (forces n (Nat.le_trans (Nat.le_max_left ..) le))
  refine ⟨values, after, _, given, List.pairwise_lt_range.filter _, fun i => ?_,
    (show Stage.outputs [⟨rule, .empty⟩] _ = _ from out) ▸ shows'⟩
  rw [List.mem_filter, List.mem_range, List.all_eq_true]
  refine and_congr_right fun inside => forall_congr' fun j => ?_
  rw [List.mem_range]
  refine forall_congr' fun less => ?_
  have iff := Value.collides_iff (regular j (by omega)) (regular i inside)
  rw [Bool.not_eq_true', ← Bool.not_eq_true, iff]
  rfl

/-- What is asked of a sequence over data leaves it where it can be taken back. -/
theorem tour_returns {n : Nat} {visits : List Visit} {last : Store} {seen : List (List Outcome)} (deep : 6 ≤ n)
    (stands : store.Stands Item.Plain aside multi supply [supply] (.ground {} origin))
    (returns : Tower.Returns (.ground {} origin) (.ground {} origin)) (free : origin.held = none)
    (alone : ∀ visit ∈ visits, visit.id = supply) (toured : store.tour n visits = some (seen, last)) :
    ∃ left, last.Stands Item.Plain aside multi supply [supply] left ∧
      (Tower.Returns (.ground {} origin) left ∧ left.Rested) ∧ store.Grows last := by
  refine tour_keeps (P := fun last => ∃ left, last.Stands Item.Plain aside multi supply [supply] left ∧
    (Tower.Returns (.ground {} origin) left ∧ left.Rested) ∧ store.Grows last) ?_
    ⟨_, stands, ⟨returns, fun _ => ⟨rfl, free⟩⟩, .refl store⟩ toured
  rintro ⟨id, ops⟩ member before after seen ⟨tower, stands, kept, grows⟩ visits
  obtain rfl : id = supply := alone _ member
  have one : tower.height = 1 := kept.1.height
  obtain ⟨left, stands', -, kept', works⟩ := stands.visited_keeps
    ((Tower.steady_returns (.ground {} origin)).and Tower.steady_rested) (by omega) kept visits
  exact ⟨left, stands', kept', grows.trans works.grows⟩

/-- What is asked of a stage and of the sequence below it leaves them paired. -/
theorem tour_paired {n : Nat} {visits : List Visit} {last : Store} {seen : List (List Outcome)} (deep : 10 ≤ n)
    (stands : store.Stands Item.Plain aside multi stage [stage, supply] tower) (paired : tower.Paired rule origin)
    (apart : stage ≠ supply) (among : ∀ visit ∈ visits, visit.id = supply ∨ visit.id = stage)
    (toured : store.tour n visits = some (seen, last)) :
    ∃ left, last.Stands Item.Plain aside multi stage [stage, supply] left ∧ left.Paired rule origin := by
  refine tour_keeps (P := fun store => ∃ left, store.Stands Item.Plain aside multi stage [stage, supply] left ∧
    left.Paired rule origin) ?_ ⟨tower, stands, paired⟩ toured
  rintro ⟨id, ops⟩ member store after seen ⟨tower, stands, paired⟩ visits
  have two : tower.height = 2 := paired.returns.height
  rcases among _ member with here | here <;> obtain rfl : id = _ := here
  · have apart' : ∀ layer ∈ [stage], layer ∉ [id] := fun layer member => by
      simpa [List.mem_singleton.mp member] using apart
    have below : Tower.Returns (.ground {} origin) (tower.beneath 1) ∧ (tower.beneath 1).Rested := by
      obtain ⟨pass, seen, below, rfl, returns, rested, -⟩ := paired.parts
      exact ⟨returns, rested⟩
    have layered : store.Stands Item.Plain aside multi stage ([stage] ++ [id]) tower := stands
    obtain ⟨other, stands', -, returns, rested⟩ := layered.visited_below
      ((Tower.steady_returns (.ground {} origin)).and Tower.steady_rested) (by omega) apart' below visits
    exact ⟨_, stands', paired.graft returns rested⟩
  · obtain ⟨left, stands', -, paired', -⟩ :=
      stands.visited_keeps (Tower.steady_paired rule origin) (by omega) paired visits
    exact ⟨left, stands', paired'⟩

end Stage

/-- A stage is made on a sequence over restartable data that come to an end, and both are asked in any order, the
sequence also before the stage is made. Then the stage gives all first occurrences if it was started or the sequence
was not, and it does so whenever all its elements were just taken. -/
theorem forced_from_beginning {store supplied moved made last : Store} {d key limit : Value} {multi : Bool} {m : Nat}
    {item : Nat → Item} {keyAt : Nat → Value} {supply stage : SequenceId} {n : Nat} {before after : List Visit}
    {seen seen' : List (List Outcome)} (raw : store.Raw d) (again : store.Restartable d)
    (silent : (store.originOf d).Silent) (gives : store.Gives d ((List.range m).map item))
    (sound : store.SoundKey Item.Plain multi key) (data : store.IsData limit)
    (keys : ∀ i < m, (store.ruleOf multi key limit).keyOf (item i) = .ok (keyAt i))
    (regular : ∀ i < m, (keyAt i).Regular) (noProbe : (store.contents limit).isProbe = false)
    (calm : store.raising = false) (deep : 10 ≤ n)
    (supplies : (Run.toSequence d (.bool multi)).from? store = (.ok supply, supplied))
    (early : ∀ visit ∈ before, visit.id = supply) (toured : supplied.tour n before = some (seen, moved))
    (makes : ((calls n).newDistinct (.ofSequence supply) key limit).from? moved = (.ok stage, made))
    (among : ∀ visit ∈ after, visit.id = supply ∨ visit.id = stage)
    (toured' : made.tour n after = some (seen', last)) :
    ((last.sequence stage).started = true ∨ (last.sequence supply).started = false →
      last.GivesFirsts stage m item keyAt) ∧
    ∀ k values final, 10 ≤ k → ((calls k).force stage).from? last = (.ok values, final) →
      final.GivesFirsts stage m item keyAt := by
  obtain ⟨tape, end', source, reaches, ended⟩ := gives
  let origin := store.originOf d
  have start : Tower.Returns (.ground {} origin) (.ground {} origin) :=
    ⟨raw.repeats again, silent, Tower.Fresh.blank ⟨rfl, rfl⟩⟩
  -- The sequence over the data, and what was asked of it before the stage was made.
  rw [from?_toSequence raw multi (.refl store)] at supplies
  cases supplies
  let first : Store := store.joined { body := store.groundBody d, multiValue := multi }
  have standing : first.Stands Item.Plain (store.aside d) multi ⟨store.sequences.size⟩ [⟨store.sequences.size⟩]
      (.ground {} origin) := stands_ground_joined (backs_of_raw raw raw.within)
  obtain ⟨below, stands, ⟨returns, rested⟩, grows'⟩ := tour_returns (by omega) standing start rfl early toured
  have grows : store.Grows moved := (grows_joined ..).trans grows'
  -- The stage, and what was asked of both.
  rw [stands.from?_newDistinct (by rw [returns.height]; simp only [Tower.height]; omega)] at makes
  cases makes
  have above := stands_filter_joined stands (grows.soundKey sound) (grows.isData data)
  rw [grows.ruleOf data] at above
  have apart : (⟨moved.sequences.size⟩ : SequenceId) ≠ ⟨store.sequences.size⟩ := fun same => by
    have inside := stands.inside _ List.mem_cons_self
    rw [← same] at inside
    exact absurd inside (Nat.lt_irrefl _)
  obtain ⟨tower, stands', paired⟩ := tour_paired deep above
    (Tower.paired_of_parts returns rested fun _ => ⟨rfl, rfl⟩) apart among toured'
  have layered : last.Stands Item.Plain (store.aside d) multi ⟨moved.sequences.size⟩
      ([⟨moved.sequences.size⟩] ++ [⟨store.sequences.size⟩]) tower := stands'
  have lower : last.Passes Item.Plain ⟨store.sequences.size⟩ tower.lower.pass := layered.beneath.1.passes
  refine ⟨fun ready => ?_, fun k values final deep' forces => ?_⟩
  · rw [stands'.passes.started, lower.started] at ready
    exact stands'.givesFirsts paired ready source reaches ended keys regular noProbe calm
  · have forced := (tracks_stands last _ _).force ⟨stands', .refl _ last⟩ (n := k)
      (by rw [paired.returns.height]; simp only [Tower.height]; omega)
    rw [forces] at forced
    rcases told : tower.force k with _ | ⟨fault | items, left⟩ <;> rw [told] at forced
    · cases forced
    · exact forced.1.elim
    · exact forced.2.1.1.givesFirsts ((Tower.steady_paired _ _).force paired told) (.inl (paired.started_force told))
        source reaches ended keys regular noProbe calm

/-- The sequence is asked before the stage is made and after all elements of the stage were taken; these are taken
again. -/
theorem forced_from_beginning_tuple :
    ∃ supplied moved made last : Store,
      (Run.toSequence (.tuple [.int 1, .int 2, .int 1]) (.bool false)).from? {} = (.ok ⟨0⟩, supplied) ∧
      (supplied.tour 10 [⟨⟨0⟩, [.next]⟩]).map Prod.snd = some moved ∧
      ((calls 10).newDistinct (.ofSequence ⟨0⟩) .null (.int 10000)).from? moved = (.ok ⟨1⟩, made) ∧
      (made.tour 10 [⟨⟨1⟩, [.force]⟩, ⟨⟨0⟩, [.rewind, .next]⟩]).map Prod.snd = some last ∧
      ∃ enough, ∀ n, enough ≤ n → ∃ after, ((calls n).force ⟨1⟩).from? last = (.ok [.int 1, .int 2], after) := by
  let elements : List Value := [.int 1, .int 2, .int 1]
  let item (i : Nat) : Item := ⟨elements.getD i .null, false, some (elements.getD i .null)⟩
  have raw : Store.Raw {} (.tuple elements) :=
    ⟨.inl rfl, fun _ => isData_of_refs_nil rfl, fun given => (by cases given), fun _ found => (by cases found)⟩
  have gives : Store.Gives {} (.tuple elements) ((List.range 3).map item) :=
    ⟨_, _, rfl, ⟨rfl, rfl, rfl, rfl⟩, rfl⟩
  have among : ∀ {i : Nat}, i < 3 → i = 0 ∨ i = 1 ∨ i = 2 := fun less => by omega
  have regular : ∀ i < 3, (elements.getD i .null).Regular := by
    intro i less
    rcases among less with rfl | rfl | rfl <;> trivial
  have later : (elements.getD 0 .null).Collides (elements.getD 2 .null) := ⟨Value.alike_refl _, .inl rfl⟩
  have apart : ¬ (elements.getD 0 .null).Collides (elements.getD 1 .null) := by
    rintro ⟨same, -⟩
    simp [elements, Value.Alike, Value.essence?] at same
  let supplied : Store := ((Run.toSequence (.tuple elements) (.bool false)).from? {}).2
  -- What was asked comes to an end, and leaves the stage started.
  have evaluated : (supplied.tour 10 [⟨⟨0⟩, [.next]⟩]).bind (fun moved =>
      let made := ((calls 10).newDistinct (.ofSequence ⟨0⟩) .null (.int 10000)).from? moved.2
      (made.2.tour 10 [⟨⟨1⟩, [.force]⟩, ⟨⟨0⟩, [.rewind, .next]⟩]).map fun last =>
        (made.1, (last.2.sequence ⟨1⟩).started)) = some (.ok ⟨1⟩, true) := by decide +kernel
  obtain ⟨⟨seen, moved⟩, toured, evaluated⟩ := Option.bind_eq_some_iff.mp evaluated
  obtain ⟨⟨seen', last⟩, toured', evaluated⟩ := Option.map_eq_some_iff.mp evaluated
  obtain ⟨makes, started⟩ := Prod.mk.inj evaluated
  have makes' : ((calls 10).newDistinct (.ofSequence ⟨0⟩) .null (.int 10000)).from? moved = (.ok ⟨1⟩, _) :=
    Prod.ext makes rfl
  have forced := (@forced_from_beginning {} supplied moved _ last (.tuple elements) .null (.int 10000) false 3 item
    (fun i => elements.getD i .null) ⟨0⟩ ⟨1⟩ 10 _ _ seen seen' raw (fun _ => ⟨rfl, by rintro ⟨⟩⟩)
    ⟨fun _ _ found => by cases found; rfl, fun _ found => by cases found⟩ gives (.inl rfl) (isData_of_refs_nil rfl)
    (fun _ _ => rfl) regular rfl rfl (by decide) rfl (by simp) toured makes' (by simp) toured').1 (.inl started)
  obtain ⟨enough, all⟩ := forced
  refine ⟨supplied, moved, _, last, rfl, by rw [toured]; rfl, makes', by rw [toured']; rfl, enough, fun n le => ?_⟩
  obtain ⟨values, after, indices, ends, sorted, firsts, shows'⟩ := all n le
  obtain rfl : indices = [0, 1] := by
    refine sorted.eq_of_mem_iff (by decide) fun i => (firsts i).trans ⟨?_, ?_⟩
    · rintro ⟨less, free⟩
      rcases among less with rfl | rfl | rfl
      · simp
      · simp
      · exact absurd later (free 0 (by omega))
    · intro member
      simp only [List.mem_cons, List.not_mem_nil, or_false] at member
      rcases member with rfl | rfl
      · exact ⟨by omega, fun j less => absurd less (Nat.not_lt_zero j)⟩
      · refine ⟨by omega, fun j less => ?_⟩
        obtain rfl : j = 0 := by omega
        exact apart
  obtain ⟨first, second, rfl⟩ := List.length_eq_two.mp (List.Forall₂.length_eq shows')
  simp only [ShowsAll, List.map_cons, List.map_nil, List.forall₂_cons] at shows'
  obtain rfl := shows'.1.held _ rfl
  obtain rfl := shows'.2.1.held _ rfl
  exact ⟨after, ends⟩

/-- A stage on a sequence that is not at its beginning gives what is left, and everything when it is asked again. -/
theorem forced_from_middle :
    ((do
      let supply ← Run.toSequence (.tuple [.int 1, .int 2, .int 3]) (.bool false)
      let _ ← (calls 10).next supply
      let stage ← (calls 10).newDistinct (.ofSequence supply) .null (.int 10000)
      let once ← (calls 10).force stage
      let again ← (calls 10).force stage
      return (once.filterMap Value.integer?, again.filterMap Value.integer?) : Run (List Int × List Int)).from? {}).1 =
        .ok ([2, 3], [1, 2, 3]) := by
  decide +kernel

end Store

end FirstSeen
