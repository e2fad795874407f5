import FirstSeen.Proofs.Consumption
import FirstSeen.Proofs.Flattening
import FirstSeen.Proofs.History.Joining
import FirstSeen.Proofs.Tower.Cascading

/-!
# Absorption

If elements whose keys collide by one key function have keys that collide by another, then removing duplicates by the one
and then by the other gives what removing them by the other alone does. In particular, removing duplicates twice by one key
function gives the same as removing them once.

The source is what a chain is joined to: data as they are, or a new sequence over them, whose elements may be taken apart.
What a joined chain collects is told by its stages, and so the absorption of a stage is that of the chain.
-/

set_option autoImplicit false

namespace FirstSeen

/-- What a chain is joined to: data as they are, or a new sequence over them. -/
inductive Inlet where
  | data
  /-- A sequence, whose elements may be taken apart. -/
  | sequence (multi : Bool)

namespace Inlet

/-- Whether elements are taken apart for key functions. -/
def multi : Inlet → Bool
  | data => false
  | sequence multi => multi

/-- Makes the source that a chain is joined to. -/
def make (d : Value) : Inlet → Run Value
  | data => pure d
  | sequence multi => do return .ofSequence (← Run.toSequence d (.bool multi))

end Inlet

/-- All elements of a pipeline that is made by joining a source with steps one after the other. -/
def Calls.collectJoined (c : Calls) (d : Value) (inlet : Inlet) (steps : List Value) : Run (List Value) := do
  let pipeline ← Run.sequenceFor "collect" (← Run.joinAll (← inlet.make d) steps)
  c.collect pipeline .null

namespace Store

/-- Whether joining a source with steps, and taking all elements, gives these elements. -/
def JoinedGives (store : Store) (d : Value) (inlet : Inlet) (steps : List Value) (items : List Item) : Prop :=
  ∃ enough, ∀ n, enough ≤ n → ∃ (values : List Value) (after : Store),
    ((calls n).collectJoined d inlet steps).from? store = (.ok values, after) ∧ after.ShowsAll Item.Plain values items

/-! ## Joining -/

/-- Whether a pipeline of these steps was just bound to a source, and nothing but lists and sequences was added before. -/
def Attached (first : Store) (v : Value) (steps : List Value) (p : SequenceId) (after : Store) : Prop :=
  ∃ listed later, first.Enlarges later ∧ listed.index < later.lists.size ∧ later.list listed = steps ∧
    p = ⟨later.sequences.size⟩ ∧ after = later.joined { body := .pipeline listed v .null }

section Joining

variable {multi : Bool} {first store : Store} {v step : Value} {steps : List Value} {p : SequenceId}

theorem Attached.enlarges (attached : first.Attached v steps p store) : first.Enlarges store := by
  obtain ⟨listed, later, enlarges, -, -, -, rfl⟩ := attached
  exact enlarges.trans (enlarges_joined ..)

/-- Sound steps are made a pipeline. -/
theorem attached_newPipeline (enlarges : first.Enlarges store)
    (sound : ∀ step ∈ steps, first.SoundStep Item.Plain multi step) :
    ∃ p after, (Run.newPipeline (.list steps) v (.bool false)).from? store = (.ok p, after) ∧
      first.Attached v steps p after := by
  have makes : store.Makes (Run.newPipeline (.list steps) v (.bool false)) false steps v :=
    makes_newPipeline fun step member => (enlarges.grows.soundStep (sound step member)).1.isStep
  obtain ⟨listed, later, further, inside, held, ends⟩ := makes
  exact ⟨_, _, ends, listed, later, enlarges.trans further, inside, held, rfl, rfl⟩

theorem SoundStep.from?_stepsOf (sound : store.SoundStep Item.Plain multi step) :
    (Run.stepsOf step).from? store = (.ok [step], store) := by
  rw [Run.stepsOf, Run.from?_bind_ok sound.part?]
  rfl

/-- A pipeline that is bound to a source is joined with one step more. -/
theorem Attached.from?_join (attached : first.Attached v steps p store)
    (sound : ∀ other ∈ steps, first.SoundStep Item.Plain multi other) (sound' : first.SoundStep Item.Plain multi step) :
    ∃ q after, (Run.join (.ofSequence p) step).from? store = (.ok q, after) ∧
      first.Attached v (steps ++ [step]) q after := by
  have enlarges := attached.enlarges
  obtain ⟨listed, later, -, inside, held, rfl, rfl⟩ := attached
  let state : SequenceState := { body := .pipeline listed v .null }
  have part : (Run.part? (.ofSequence ⟨later.sequences.size⟩)).from? (later.joined state) =
      (.ok (some (.pipeline listed v false)), later.joined state) := by
    rw [Value.ofSequence, Run.part?, Run.from?_bind_ok (Run.from?_sequence ..), sequence_joined_new]
    rfl
  have held' : (later.joined state).list listed = steps := held
  have both : ∀ other ∈ steps ++ [step], first.SoundStep Item.Plain multi other := by
    intro other member
    rcases List.mem_append.mp member with old | new
    · exact sound other old
    · rwa [List.mem_singleton.mp new]
  rw [Run.join, Run.from?_bind_ok part]
  simp only [Run.joinAfter]
  rw [Run.from?_bind_ok (enlarges.grows.soundStep sound').1.from?_stepsOf, Run.from?_bind_ok (Run.from?_list ..), held']
  exact attached_newPipeline enlarges both

/-- A pipeline that is bound to a source is joined with more steps in turn. -/
theorem Attached.from?_joinAll {rest : List Value} (attached : first.Attached v steps p store)
    (sound : ∀ step ∈ steps, first.SoundStep Item.Plain multi step)
    (sound' : ∀ step ∈ rest, first.SoundStep Item.Plain multi step) :
    ∃ q after, (Run.joinAll (.ofSequence p) rest).from? store = (.ok (.ofSequence q), after) ∧
      first.Attached v (steps ++ rest) q after := by
  induction rest generalizing steps p store with
  | nil => exact ⟨p, store, rfl, by rwa [List.append_nil]⟩
  | cons step rest ih =>
    rw [List.forall_mem_cons] at sound'
    obtain ⟨q, between, joins, attached'⟩ := attached.from?_join sound sound'.1
    have both : ∀ other ∈ steps ++ [step], first.SoundStep Item.Plain multi other := fun other member =>
      (List.mem_append.mp member).elim (sound other) fun new => List.mem_singleton.mp new ▸ sound'.1
    obtain ⟨r, after, joins', attached''⟩ := ih attached' both sound'.2
    exact ⟨r, after, by rw [Run.joinAll, Run.from?_bind_ok joins]; exact joins', by rwa [List.append_cons]⟩

/-- A source that is no part of a chain itself is joined with steps one after the other. -/
theorem attached_joinAll (apart : (Run.part? v).from? store = (.ok none, store)) (enlarges : first.Enlarges store)
    (sound : ∀ step ∈ steps, first.SoundStep Item.Plain multi step) (some : steps ≠ []) :
    ∃ p after, (Run.joinAll v steps).from? store = (.ok (.ofSequence p), after) ∧ first.Attached v steps p after := by
  cases steps with
  | nil => exact absurd rfl some
  | cons step rest =>
    rw [List.forall_mem_cons] at sound
    have alone := List.forall_mem_singleton.mpr sound.1
    obtain ⟨p, between, makes, attached⟩ := attached_newPipeline (v := v) enlarges alone
    obtain ⟨q, after, joins, attached'⟩ := attached.from?_joinAll alone sound.2
    have joins' : (Run.join v step).from? store = (.ok p, between) := by
      rw [Run.join, Run.from?_bind_ok apart]
      simp only
      rw [Run.from?_bind_ok (enlarges.grows.soundStep sound.1).1.part?]
      exact makes
    exact ⟨q, after, by rw [Run.joinAll, Run.from?_bind_ok joins']; exact joins, attached'⟩

end Joining

/-! ## Collecting -/

section Collecting

variable {store made : Store} {d : Value} {steps : List Value} {p : SequenceId} {multi : Bool} {items : List Item}

/-- The tower of a pipeline with these steps that is bound to raw data, or to a new sequence over them. -/
def pipedTower (store : Store) (multi : Bool) (steps : List Value) (d : Value) : Tower :=
  .passage {} (store.stagesOn multi steps d)

/-- The stages of some steps, at their beginning. -/
def newStages (store : Store) (multi : Bool) (steps : List Value) : List Stage :=
  steps.map fun step => ⟨store.ruleOfStep multi step, .empty⟩

/-- The tower of a pipeline gives what its stages let through of all elements. -/
theorem force_pipedTower (gives : store.Gives d items) (smooth : Stage.Smooth (store.newStages multi steps) items) :
    ∃ enough left, ∀ n, enough ≤ n → (store.pipedTower multi steps d).force n =
      some (.ok (Stage.outputs (store.newStages multi steps) items), left) := by
  obtain ⟨tape, last, source, reaches, ended⟩ := gives
  have fresh : (store.pipedTower multi steps d).Fresh := ⟨rfl, fresh_stagesOn ..⟩
  have stages : (store.pipedTower multi steps d).stages = store.newStages multi steps := by
    simp [pipedTower, stagesOn, newStages, Tower.stages, Function.comp_def]
  have source' : (store.pipedTower multi steps d).source = some tape := by
    simpa [pipedTower, stagesOn, Tower.source] using source
  rw [← stages] at smooth ⊢
  exact Tower.force_outputs (by rw [Tower.restart, fresh.pass]; rfl) fresh.calm source' reaches ended smooth

/-- A list of sound steps filters by the rules of the steps, as they were before the list was made. -/
theorem Enlarges.lists {later : Store} {listed : ListId} (enlarges : store.Enlarges later)
    (inside : listed.index < later.lists.size) (held : later.list listed = steps)
    (sound : ∀ step ∈ steps, store.SoundStep Item.Plain multi step) :
    later.Lists Item.Plain multi listed (steps.map (store.ruleOfStep multi)) := by
  refine ⟨inside, fun step member => ?_, ?_⟩
  · exact (enlarges.grows.soundStep (sound step (held ▸ member))).1
  · rw [held]
    exact List.map_congr_left fun step member => (enlarges.grows.soundStep (sound step member)).2.symm

/-- A pipeline that is bound to raw data rests before its tower. -/
theorem Attached.holds (attached : store.Attached d steps p made) (raw : store.Raw d)
    (sound : ∀ step ∈ steps, store.SoundStep Item.Plain false step) :
    made.Holds Item.Plain (store.aside d) false p (store.pipedTower false steps d) := by
  obtain ⟨listed, later, enlarges, inside, held, rfl, rfl⟩ := attached
  have lists := enlarges.lists inside held sound
  exact .inr ⟨_, raw.rests_joined (enlarges.spares (by simp)) lists, rfl⟩

/-- A pipeline that is bound to a new sequence over raw data can be asked for all elements of its tower. -/
theorem Attached.force_sequence {s : SequenceId} {supplied : Store}
    (attached : supplied.Attached (.ofSequence s) steps p made)
    {aside : Option CursorId} {origin : Origin} (stands : supplied.Stands Item.Plain aside multi s [s] (.ground {} origin))
    (free : origin.held = none) (sound : ∀ step ∈ steps, supplied.SoundStep Item.Plain multi step) {n : Nat}
    (deep : 4 * (steps.length + 2) + 1 ≤ n) {told : List Item} {left : Tower}
    (forces : (Tower.passage {} (.filters (steps.map (supplied.ruleOfStep multi)) (.ground {} origin))).force n =
      some (.ok told, left)) :
    ∃ values after, ((calls n).force p).from? made = (.ok values, after) ∧ after.ShowsAll Item.Plain values told := by
  have enlarges := attached.enlarges
  obtain ⟨listed, later, further, inside, held, rfl, rfl⟩ := attached
  let state : SequenceState := { body := .pipeline listed (.ofSequence s) .null }
  have there := sequence_joined_new later state
  have apart : (⟨later.sequences.size⟩ : SequenceId) ∉ [s] := by
    rintro member
    have known := stands.inside _ List.mem_cons_self
    rw [← List.mem_singleton.mp member] at known
    exact absurd further.size (Nat.not_le.mpr known)
  have buds : (later.joined state).Buds Item.Plain multi s listed (steps.map (supplied.ruleOfStep multi))
      ⟨later.sequences.size⟩ {} :=
    ⟨passes_joined rfl rfl rfl, by rw [there], enlarges.lists inside held sound⟩
  have standing := stands.spared (enlarges.spares stands.inside)
  have forced := (@tracks_branch Item.Plain aside multi (later.joined state) s _ [s] listed
    (steps.map (supplied.ruleOfStep multi)) _ (.ground {} origin) apart rfl ⟨rfl, free⟩).force
    (.inr ⟨rfl, buds, standing, .refl _ _⟩) (n := n) (by simp [Tower.height]; omega)
  rw [forces] at forced
  rcases result : ((calls n).force ⟨later.sequences.size⟩).from? (later.joined state) with ⟨halt | values, after⟩ <;>
    rw [result] at forced
  · exact forced.1.elim
  · exact ⟨values, after, rfl, forced.1⟩

/-- A new sequence over raw data is no part of a chain itself. -/
theorem from?_part?_joined (raw : store.Raw d) (multi : Bool) :
    let made := store.joined { body := store.groundBody d, multiValue := multi }
    (Run.part? (.ofSequence ⟨store.sequences.size⟩)).from? made = (.ok none, made) := by
  intro made
  rw [Value.ofSequence, Run.part?, Run.from?_bind_ok (Run.from?_sequence ..), sequence_joined_new]
  have ground := (backs_of_raw raw (D := Item.Plain) raw.within).ground
  cases form : store.groundBody d <;> simp [form, Body.isGround] at ground ⊢

section Outputs

variable {n : Nat} {told : List Item} {left : Tower} (raw : store.Raw d) (nonempty : steps ≠ [])
  (deep : 4 * (steps.length + 2) + 1 ≤ n)
include raw nonempty deep

/-- Steps that were joined with raw data give what the tower of the pipeline does. -/
theorem collectJoined_data (sound : ∀ step ∈ steps, store.SoundStep Item.Plain false step)
    (forces : (store.pipedTower false steps d).force n = some (.ok told, left)) :
    ∃ values after, ((calls n).collectJoined d .data steps).from? store = (.ok values, after) ∧
      after.ShowsAll Item.Plain values told := by
  obtain ⟨p, made, joins, attached⟩ := attached_joinAll raw.part? (.refl store) sound nonempty
  obtain ⟨values, after, ends, shows', -⟩ := (attached.holds raw sound).forces
    (by simpa [pipedTower, stagesOn, Tower.height] using deep) forces
  refine ⟨values, after, ?_, shows'⟩
  have makes : (Inlet.make d .data).from? store = (.ok d, store) := rfl
  rw [Calls.collectJoined, Run.from?_bind_ok makes, Run.from?_bind_ok joins]
  exact ends

/-- Steps that were joined with a new sequence over raw data give what the tower of the pipeline does. -/
theorem collectJoined_sequence (sound : ∀ step ∈ steps, store.SoundStep Item.Plain multi step)
    (forces : (store.pipedTower multi steps d).force n = some (.ok told, left)) :
    ∃ values after, ((calls n).collectJoined d (.sequence multi) steps).from? store = (.ok values, after) ∧
      after.ShowsAll Item.Plain values told := by
  let state : SequenceState := { body := store.groundBody d, multiValue := multi }
  let s : SequenceId := ⟨store.sequences.size⟩
  have enlarges := enlarges_joined store state
  have stands : (store.joined state).Stands Item.Plain (store.aside d) multi s [s] (.ground {} (store.originOf d)) :=
    stands_ground_joined (backs_of_raw raw raw.within)
  have makes : (Inlet.make d (.sequence multi)).from? store = (.ok (.ofSequence s), store.joined state) := by
    rw [Inlet.make, Run.from?_bind_ok (from?_toSequence raw multi (.refl store))]
    rfl
  have sound' : ∀ step ∈ steps, (store.joined state).SoundStep Item.Plain multi step := fun step member =>
    (enlarges.grows.soundStep (sound step member)).1
  have rules : steps.map ((store.joined state).ruleOfStep multi) = steps.map (store.ruleOfStep multi) :=
    List.map_congr_left fun step member => (enlarges.grows.soundStep (sound step member)).2
  obtain ⟨p, made, joins, attached⟩ := attached_joinAll (from?_part?_joined raw multi) (.refl _) sound' nonempty
  obtain ⟨values, after, ends, shows'⟩ :=
    attached.force_sequence stands rfl sound' deep (by rw [rules]; exact forces)
  refine ⟨values, after, ?_, shows'⟩
  rw [Calls.collectJoined, Run.from?_bind_ok makes, Run.from?_bind_ok joins]
  exact ends

end Outputs

/-- What is collected of steps that were joined with a source is what their stages let through of all its elements. -/
theorem joinedGives_outputs {inlet : Inlet} (raw : store.Raw d) (gives : store.Gives d items)
    (sound : ∀ step ∈ steps, store.SoundStep Item.Plain inlet.multi step) (some : steps ≠ [])
    (smooth : Stage.Smooth (store.newStages inlet.multi steps) items) :
    store.JoinedGives d inlet steps (Stage.outputs (store.newStages inlet.multi steps) items) := by
  obtain ⟨enough, left, forces⟩ := force_pipedTower gives smooth
  refine ⟨max enough (4 * (steps.length + 2) + 1), fun n le => ?_⟩
  have deep : 4 * (steps.length + 2) + 1 ≤ n := Nat.le_trans (Nat.le_max_right ..) le
  have told := forces n (Nat.le_trans (Nat.le_max_left ..) le)
  cases inlet with
  | data => exact collectJoined_data raw some deep sound told
  | sequence multi => exact collectJoined_sequence raw some deep sound told

end Collecting

/-! ## The theorem -/

theorem raising_ruleOfStep {store : Store} {multi : Bool} (step : Value) (calm : store.raising = false) :
    (store.ruleOfStep multi step).raising = false := by
  unfold ruleOfStep
  split
  · split
    · exact calm
    · rfl
  · rfl

/-- If the keys of elements collide by one step only if they collide by another, then joining a source with both steps
gives the elements that joining it with the other step alone gives: those whose keys by that step collide with no earlier
one. In particular, the other step may be joined twice. -/
theorem absorption {store : Store} {d first second : Value} {inlet : Inlet} {m : Nat} {item : Nat → Item}
    {key key' : Nat → Value} (raw : store.Raw d) (gives : store.Gives d ((List.range m).map item))
    (sound : store.SoundStep Item.Plain inlet.multi first) (sound' : store.SoundStep Item.Plain inlet.multi second)
    (keys : ∀ i < m, (store.ruleOfStep inlet.multi first).keyOf (item i) = .ok (key i))
    (keys' : ∀ i < m, (store.ruleOfStep inlet.multi second).keyOf (item i) = .ok (key' i))
    (regular : ∀ i < m, (key i).Regular) (regular' : ∀ i < m, (key' i).Regular)
    (noProbe : (store.ruleOfStep inlet.multi first).limit.isProbe = false)
    (noProbe' : (store.ruleOfStep inlet.multi second).limit.isProbe = false) (calm : store.raising = false)
    (coarser : ∀ i < m, ∀ j < i, (key j).Collides (key i) → (key' j).Collides (key' i)) :
    (∀ i, i ∈ firsts m key' ↔ i < m ∧ ∀ j < i, ¬ (key' j).Collides (key' i)) ∧
      store.JoinedGives d inlet [first, second] ((firsts m key').map item) ∧
      store.JoinedGives d inlet [second] ((firsts m key').map item) ∧
      store.JoinedGives d inlet [second, second] ((firsts m key').map item) := by
  have calm' : ∀ step, (store.ruleOfStep inlet.multi step).raising = false := fun step => raising_ruleOfStep step calm
  -- A chain of sound steps gives these elements if its stages let them through.
  have given : ∀ steps, (∀ step ∈ steps, store.SoundStep Item.Plain inlet.multi step) → steps ≠ [] →
      Stage.Smooth (store.newStages inlet.multi steps) ((List.range m).map item) ∧
        Stage.outputs (store.newStages inlet.multi steps) ((List.range m).map item) = (firsts m key').map item →
      store.JoinedGives d inlet steps ((firsts m key').map item) := by
    rintro steps sound some ⟨smooth, out⟩
    rw [← out]
    exact joinedGives_outputs raw gives sound some smooth
  obtain ⟨smooth, -, out⟩ := sieve_firsts keys' regular' noProbe' (calm' second)
  refine ⟨fun i => mem_firsts regular', ?_, ?_, ?_⟩
  · exact given _ (List.forall_mem_cons.mpr ⟨sound, List.forall_mem_singleton.mpr sound'⟩) (by simp)
      (outputs_absorbed keys keys' regular regular' noProbe noProbe' (calm' first) (calm' second) coarser)
  · exact given _ (List.forall_mem_singleton.mpr sound') (by simp) ⟨smooth, out⟩
  · exact given _ (List.forall_mem_cons.mpr ⟨sound', List.forall_mem_singleton.mpr sound'⟩) (by simp)
      (outputs_absorbed keys' keys' regular' regular' noProbe' noProbe' (calm' second) (calm' second)
        fun _ _ _ _ collides => collides)

/-- Whole elements before their last digits: what is equal has the same last digit. -/
theorem absorption_digits :
    digits.JoinedGives (.object (.list ⟨0⟩)) (.sequence false) [.object (.step ⟨1⟩), .object (.step ⟨0⟩)]
      [⟨.int 1, false, some (.int 1)⟩, ⟨.int 2, false, some (.int 2)⟩] := by
  let elements : List Int := [1, 11, 2, 1]
  let whole (i : Nat) : Value := .int (elements.getD i 0)
  let last (i : Nat) : Value := .int (elements.getD i 0 % 10)
  let item (i : Nat) : Item := ⟨whole i, false, some (whole i)⟩
  have whole' : .object (.step ⟨1⟩) ∈ digitTree.leaves := by simp [digitTree, StepTree.leaves, StepTree.leavesOf]
  have last' : .object (.step ⟨0⟩) ∈ digitTree.leaves := by simp [digitTree, StepTree.leaves, StepTree.leavesOf]
  have gives : digits.Gives (.object (.list ⟨0⟩)) ((List.range 4).map item) := ⟨_, _, rfl, ⟨rfl, rfl, rfl, rfl, rfl⟩, rfl⟩
  have coarser : ∀ i < 4, ∀ j < i, (whole j).Collides (whole i) → (last j).Collides (last i) := by
    rintro i less j less' ⟨alike, -⟩
    have same : elements.getD j 0 = elements.getD i 0 := by
      simpa [whole, Value.Alike, Value.essence?] using alike
    refine ⟨?_, .inl rfl⟩
    rw [show last j = last i from congrArg (fun n : Int => Value.int (n % 10)) same]
    exact Value.alike_refl _
  obtain ⟨-, both, -⟩ := @absorption digits _ _ _ (.sequence false) _ _ whole last raw_digits gives
    (sound_digits _ whole') (sound_digits _ last')
    (fun _ _ => rfl) (fun _ _ => rfl) (fun _ _ => trivial) (fun _ _ => trivial) rfl rfl rfl coarser
  have places : firsts 4 last = [0, 2] := by decide
  rw [places] at both
  exact both

end Store

end FirstSeen
