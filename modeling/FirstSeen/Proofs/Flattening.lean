import FirstSeen.Proofs.History.Yielding

/-!
# Flattening

However steps are put together to a pipeline, by joining, by chaining or as the steps of further pipelines, what counts
is the steps that remove duplicates, from left to right. All ways to run the pipeline on raw data end as collecting one
pipeline does that has those steps in its list and is bound to the data: with the same elements, or with the same fault.

Joining merges the lists of two pipelines, while a pipeline in a list of steps stays there and applies its own steps when
a chain is built. So what is put together *spells* its leaves, and the chain that is built from it is the one of the
leaves in turn.
-/

set_option autoImplicit false

namespace FirstSeen

/-! ## Trees of steps -/

/-- How steps are put together: joined in either notation, or as the steps of a pipeline without an input. -/
inductive StepTree where
  | leaf (step : Value)
  | join (first second : StepTree)
  | chain (first second : StepTree)
  | group (children : List StepTree)

namespace StepTree

mutual

/-- The leaves of a tree from left to right. -/
def leaves : StepTree → List Value
  | leaf step => [step]
  | join first second | chain first second => first.leaves ++ second.leaves
  | group children => leavesOf children

/-- The leaves of trees in turn. -/
def leavesOf : List StepTree → List Value
  | [] => []
  | tree :: rest => tree.leaves ++ leavesOf rest

end

mutual

/-- Puts steps together, from left to right and from the inside out. -/
def make : StepTree → Run Value
  | leaf step => pure step
  | join first second => do
    let left ← first.make
    return .ofSequence (← Run.join left (← second.make))
  | chain first second => do
    let left ← first.make
    return .ofSequence (← Run.joinThen left (← second.make))
  | group children => do
    return .ofSequence (← Run.newPipeline (.list (← makeAll children)) .null (.bool false))

/-- Puts the steps of a list together. -/
def makeAll : List StepTree → Run (List Value)
  | [] => pure []
  | tree :: rest => do
    let made ← tree.make
    return made :: (← makeAll rest)

end

/-- Whether the root of a tree is a pipeline. -/
def isPipeline : StepTree → Bool
  | leaf _ => false
  | join .. | chain .. | group _ => true

end StepTree

/-! ## Ways to run a tree on data -/

/-- Joins data with steps one after the other. -/
def Run.joinAll (left : Value) : List Value → Run Value
  | [] => pure left
  | step :: rest => do joinAll (.ofSequence (← join left step)) rest

/-- How a tree of steps is run on data. -/
inductive Route where
  /-- The data are joined with the tree, and the pipeline is collected. -/
  | joined
  /-- The tree is bound to the data, and the pipeline is collected. -/
  | bound
  /-- The tree is collected on the data. -/
  | collected
  /-- All items of a stream of the tree on the data. -/
  | streamed
  /-- The data are joined with the leaves one after the other, and the last pipeline is collected. -/
  | piped

namespace Route

/-- Whether a tree can be run in this way: only pipelines are collected and streamed on data, and data are no pipeline
before they were joined with a step. -/
def Fits (tree : StepTree) : Route → Prop
  | joined | bound => True
  | collected | streamed => tree.isPipeline = true
  | piped => tree.leaves ≠ []

/-- Runs a tree on data. -/
def run (tree : StepTree) (d : Value) (c : Calls) : Route → Run (List Value)
  | joined => do c.collect (← Run.join d (← tree.make)) .null
  | bound => do c.collect (← Run.withInput (← tree.make) d none) .null
  | collected => do c.collect (← Run.sequenceFor "collect" (← tree.make)) d
  | streamed => do
    let pipeline ← Run.sequenceFor "stream" (← tree.make)
    c.listOf (.ofCursor (← Run.newStream pipeline d))
  | piped => do c.collect (← Run.sequenceFor "collect" (← Run.joinAll d tree.leaves)) .null

end Route

/-- All elements of a new pipeline with these steps that is bound to data. -/
def Run.collectNew (steps : List Value) (d : Value) (c : Calls) : Run (List Value) := do
  c.collect (← newPipeline (.list steps) d (.bool false)) .null

namespace Store

variable {store : Store} {values leaves : List Value} {d v : Value}

/-! ## Putting steps together -/

/-- What covers leaves is made of steps. -/
theorem Covers.isStep {D : Item → Prop} {multi : Bool} (covers : store.Covers D multi values leaves) :
    ∀ step ∈ values, store.isStep step = true := by
  induction covers with
  | nil => simp
  | step sound _ ih => exact List.forall_mem_cons.mpr ⟨sound.isStep, ih⟩
  | pipeline _ form _ _ _ _ ih =>
    refine List.forall_mem_cons.mpr ⟨?_, ih⟩
    rw [Value.ofSequence, Store.isStep, form]
    rfl

/-- The store with a new pipeline, which has a new list of steps. -/
def piped (store : Store) (steps : List Value) (input : Value) : Store :=
  (store.listed steps).joined { body := .pipeline ⟨store.lists.size⟩ input .null }

theorem enlarges_piped (store : Store) (steps : List Value) (input : Value) : store.Enlarges (store.piped steps input) :=
  (enlarges_listed store steps).trans (enlarges_joined ..)

theorem sequence_piped (store : Store) (steps : List Value) (input : Value) :
    (store.piped steps input).sequence ⟨store.sequences.size⟩ = { body := .pipeline ⟨store.lists.size⟩ input .null } :=
  sequence_joined_new (store.listed steps) _

theorem list_piped (store : Store) (steps : List Value) (input : Value) :
    (store.piped steps input).list ⟨store.lists.size⟩ = steps :=
  list_listed store steps

/-- A list that spells leaves is made a pipeline. -/
theorem Spells.from?_newPipeline {D : Item → Prop} {multi : Bool} (spells : store.Spells D multi values leaves)
    (input : Value) :
    (Run.newPipeline (.list values) input (.bool false)).from? store =
      (.ok ⟨store.sequences.size⟩, store.piped values input) := by
  rw [from?_newPipeline_list]
  refine Store.from?_newPipeline fun step member => ?_
  rw [list_listed] at member
  exact (spells.later (enlarges_listed store values).retains).covers.isStep step member

section Joining

variable {D : Item → Prop} {first second : List Value} {w : Value}

/-- What a pipeline without an input in a list spells is what its own list spells. -/
theorem Spells.of_piped (spells : store.Spells D false values leaves) :
    (store.piped values .null).Spells D false [.ofSequence ⟨store.sequences.size⟩] leaves := by
  have there := sequence_piped store values .null
  have inner := spells.later (enlarges_piped store values .null).retains
  rw [← List.append_nil leaves]
  exact .pipeline (by simp [piped, joined, listed]) (by rw [there]) (by rw [there]) (by simp [piped, joined, listed])
    (by rwa [list_piped]) .nil

/-- A pipeline that spells leaves has no input, and its list spells them. -/
theorem Spells.of_pipeline {p : SequenceId} (spells : store.Spells D false [.ofSequence p] leaves) :
    ∃ steps kept, (store.sequence p).body = .pipeline steps .null kept ∧ (store.sequence p).multiValue = false ∧
      steps.index < store.lists.size ∧ store.Spells D false (store.list steps) leaves := by
  cases spells with
  | step sound _ => exact sound.elim
  | @pipeline _ steps kept _ first _ _ form flag listed inner others =>
    cases others
    exact ⟨steps, kept, form, flag, listed, by rwa [List.append_nil]⟩

/-- A part of a chain that spells leaves: one of them, or a pipeline without an input. -/
theorem Spells.part (spells : store.Spells D false [v] leaves) :
    (Run.part? v).from? store = (.ok (some .step), store) ∨
      ∃ steps, (Run.part? v).from? store = (.ok (some (.pipeline steps .null false)), store) ∧
        store.Spells D false (store.list steps) leaves := by
  cases spells with
  | step sound others =>
    cases others
    obtain ⟨s, key, limit, rfl, found, -⟩ := sound.form
    left
    rw [Run.part?, Run.from?_bind_ok (Run.from?_view ..), found]
    rfl
  | @pipeline p steps kept _ first _ inside form flag listed inner others =>
    cases others
    refine .inr ⟨steps, ?_, by rwa [List.append_nil]⟩
    rw [Value.ofSequence, Run.part?, Run.from?_bind_ok (Run.from?_sequence ..), form, flag]
    rfl

/-- The steps that a part of a chain adds at its end spell what the part spells. -/
theorem Spells.from?_stepsOf (spells : store.Spells D false [v] leaves) :
    ∃ values, (Run.stepsOf v).from? store = (.ok values, store) ∧ store.Spells D false values leaves := by
  rcases spells.part with part | ⟨steps, part, inner⟩
  · exact ⟨[v], by rw [Run.stepsOf, Run.from?_bind_ok part]; rfl, spells⟩
  · exact ⟨store.list steps, by rw [Run.stepsOf, Run.from?_bind_ok part]; rfl, inner⟩

/-- Parts of a chain are joined to a pipeline that spells the leaves of both. -/
theorem Spells.from?_join (spells : store.Spells D false [v] first) (spells' : store.Spells D false [w] second) :
    ∃ p after, (Run.join v w).from? store = (.ok p, after) ∧ (Run.joinThen v w).from? store = (.ok p, after) ∧
      store.Enlarges after ∧ after.Spells D false [.ofSequence p] (first ++ second) := by
  obtain ⟨added, adds, after⟩ := spells'.from?_stepsOf
  obtain ⟨part, values, found, joins, before⟩ : ∃ part values, (Run.part? v).from? store = (.ok (some part), store) ∧
      (Run.joinAfter v part w).from? store =
        (Run.newPipeline (.list (values ++ added)) .null (.bool false)).from? store ∧
      store.Spells D false values first := by
    rcases spells.part with part | ⟨steps, part, inner⟩
    · exact ⟨_, [v], part, by rw [Run.joinAfter, Run.from?_bind_ok adds]; rfl, spells⟩
    · exact ⟨_, store.list steps, part, by rw [Run.joinAfter, Run.from?_bind_ok adds]; rfl, inner⟩
  have both := before.append after
  refine ⟨_, _, ?_, ?_, enlarges_piped store _ .null, both.of_piped⟩
  · rw [Run.join, Run.from?_bind_ok found]
    exact joins.trans (both.from?_newPipeline .null)
  · rw [Run.joinThen, Run.from?_bind_ok found]
    exact joins.trans (both.from?_newPipeline .null)

end Joining

end Store

/-! ## Trees of steps in a store -/

namespace StepTree

variable {D : Item → Prop}

mutual

/-- What is made of a tree spells its leaves, and nothing but lists and sequences is added to the store. -/
theorem make_spells {store : Store} : ∀ tree : StepTree, (∀ leaf ∈ tree.leaves, store.SoundStep D false leaf) →
    ∃ v after, tree.make.from? store = (.ok v, after) ∧ store.Enlarges after ∧ after.Spells D false [v] tree.leaves ∧
      (tree.isPipeline = true → ∃ p, v = .ofSequence p)
  | leaf step, sound => by
    refine ⟨step, store, by rw [make]; rfl, .refl store, ?_, fun given => by cases given⟩
    rw [leaves] at sound ⊢
    exact .leaves_self sound
  | join first second, sound => by
    rw [leaves] at sound ⊢
    obtain ⟨v, between, makes, enlarges, spells, -⟩ :=
      make_spells first fun leaf member => sound leaf (List.mem_append_left _ member)
    obtain ⟨w, after, makes', enlarges', spells', -⟩ := make_spells second fun leaf member =>
      (enlarges.grows.soundStep (sound leaf (List.mem_append_right _ member))).1
    obtain ⟨p, last, joins, -, further, both⟩ := (spells.later enlarges'.retains).from?_join spells'
    refine ⟨_, last, ?_, (enlarges.trans enlarges').trans further, both, fun _ => ⟨p, rfl⟩⟩
    rw [make, Run.from?_bind_ok makes, Run.from?_bind_ok makes', Run.from?_bind_ok joins]
    rfl
  | chain first second, sound => by
    rw [leaves] at sound ⊢
    obtain ⟨v, between, makes, enlarges, spells, -⟩ :=
      make_spells first fun leaf member => sound leaf (List.mem_append_left _ member)
    obtain ⟨w, after, makes', enlarges', spells', -⟩ := make_spells second fun leaf member =>
      (enlarges.grows.soundStep (sound leaf (List.mem_append_right _ member))).1
    obtain ⟨p, last, -, joins, further, both⟩ := (spells.later enlarges'.retains).from?_join spells'
    refine ⟨_, last, ?_, (enlarges.trans enlarges').trans further, both, fun _ => ⟨p, rfl⟩⟩
    rw [make, Run.from?_bind_ok makes, Run.from?_bind_ok makes', Run.from?_bind_ok joins]
    rfl
  | group children, sound => by
    rw [leaves] at sound ⊢
    obtain ⟨values, after, makes, enlarges, spells⟩ := makeAll_spells children sound
    refine ⟨_, after.piped values .null, ?_, enlarges.trans (Store.enlarges_piped after values .null),
      spells.of_piped, fun _ => ⟨_, rfl⟩⟩
    rw [make, Run.from?_bind_ok makes, Run.from?_bind_ok (spells.from?_newPipeline .null)]
    rfl

/-- What is made of trees in turn spells their leaves in turn. -/
theorem makeAll_spells {store : Store} : ∀ trees : List StepTree,
    (∀ leaf ∈ leavesOf trees, store.SoundStep D false leaf) →
    ∃ values after, (makeAll trees).from? store = (.ok values, after) ∧ store.Enlarges after ∧
      after.Spells D false values (leavesOf trees)
  | [], _ => ⟨[], store, by rw [makeAll]; rfl, .refl store, by rw [leavesOf]; exact .nil⟩
  | tree :: rest, sound => by
    rw [leavesOf] at sound ⊢
    obtain ⟨v, between, makes, enlarges, spells, -⟩ :=
      make_spells tree fun leaf member => sound leaf (List.mem_append_left _ member)
    obtain ⟨values, after, makes', enlarges', spells'⟩ := makeAll_spells rest fun leaf member =>
      (enlarges.grows.soundStep (sound leaf (List.mem_append_right _ member))).1
    refine ⟨v :: values, after, ?_, enlarges.trans enlarges', (spells.later enlarges'.retains).append spells'⟩
    rw [makeAll, Run.from?_bind_ok makes, Run.from?_bind_ok makes']
    rfl

end

end StepTree

/-! ## Bound to data -/

namespace Store

variable {first store : Store} {leaves : List Value} {d v : Value} {p : SequenceId}
  {result : Except Fault (List Value)}

/-- Whether a pipeline was just bound to data, with a list that spelled leaves before, and nothing but lists and
sequences was added to a store so far. -/
structure Bound (first store : Store) (p : SequenceId) (d : Value) (leaves : List Value) : Prop where
  begun : first.Enlarges store
  inside : p.index < store.sequences.size
  state : ∃ steps base, store.sequence p = { body := .pipeline steps d .null } ∧ first.Enlarges base ∧
    base.Retains store ∧ base.sequences.size ≤ p.index ∧ base.Spells Item.Plain false (store.list steps) leaves

/-- A pipeline that was just bound to raw data yields what the tower of its leaves gathers. -/
theorem Bound.yields (bound : first.Bound store p d leaves) (raw : first.Raw d)
    (sound : ∀ leaf ∈ leaves, first.SoundStep Item.Plain false leaf) :
    store.Yields (fun c => c.collect p .null) result ↔ (first.stagesOn false leaves d).Gathers result := by
  obtain ⟨enlarges, inside, steps, base, state, before, retains, new, spells⟩ := bound
  obtain ⟨depth, high, builds⟩ := spells.covers.builds_begun raw sound before.grows new
  have passes : store.Passes Item.Plain p {} := ⟨inside, by rw [state], by rw [state], by rw [state]; trivial⟩
  have spares : first.Spares [] store := enlarges.spares (by simp)
  exact yields_collect_bound passes (by rw [state]) (by rw [state]) raw.bound (fresh_stagesOn ..).pass high
    (fun n deep => (builds store steps n spares retains rfl deep).1)
    fun n deep => (builds store steps n spares retains rfl deep).2

/-- A list that spells leaves is made a pipeline that is bound to data. -/
theorem Spells.bound_piped {values : List Value} (enlarges : first.Enlarges store)
    (spells : store.Spells Item.Plain false values leaves) :
    first.Bound (store.piped values d) ⟨store.sequences.size⟩ d leaves := by
  have further := enlarges_piped store values d
  exact ⟨enlarges.trans further, by simp [piped, joined, listed], _, store, sequence_piped store values d, enlarges,
    further.retains, Nat.le_refl _, by rwa [list_piped]⟩

/-- Raw data cannot stand in a chain. -/
theorem Raw.part? (raw : first.Raw d) : (Run.part? d).from? store = (.ok none, store) := by
  cases d with
  | object ref =>
    cases ref with
    | step id => rcases raw.usable with usable | usable <;> cases usable
    | sequence id => exact (raw.offers rfl (.sequence id) (by simp [Value.refs])).elim
    | _ => rfl
  | _ => rfl

/-- A part of a chain that spells leaves is bound to raw data in either notation. -/
theorem Spells.from?_bind (raw : first.Raw d) (enlarges : first.Enlarges store)
    (spells : store.Spells Item.Plain false [v] leaves) :
    ∃ p after, (Run.join d v).from? store = (.ok p, after) ∧ (Run.withInput v d none).from? store = (.ok p, after) ∧
      first.Bound after p d leaves := by
  obtain ⟨part, p, after, found, binds, bound⟩ : ∃ part p after, (Run.part? v).from? store = (.ok (some part), store) ∧
      (Run.bindInput v part d none).from? store = (.ok p, after) ∧ first.Bound after p d leaves := by
    rcases spells.part with part | ⟨steps, part, inner⟩
    · exact ⟨_, _, _, part, spells.from?_newPipeline d, spells.bound_piped enlarges⟩
    · have there := sequence_joined_new store { body := .pipeline steps d .null }
      have further := enlarges_joined store { body := .pipeline steps d .null }
      refine ⟨_, _, _, part, Store.from?_newPipeline inner.covers.isStep, enlarges.trans further, by simp [joined], steps,
        store, there, enlarges, further.retains, Nat.le_refl _, inner⟩
  refine ⟨p, after, ?_, ?_, bound⟩
  · rw [Run.join, Run.from?_bind_ok raw.part?]
    simp only
    rw [Run.from?_bind_ok found]
    exact binds
  · rw [Run.withInput, Run.from?_bind_ok found]
    exact binds

/-- A pipeline that was bound to data is joined with one leaf more. -/
theorem Bound.from?_join {leaf : Value} (bound : first.Bound store p d leaves)
    (sound : first.SoundStep Item.Plain false leaf) :
    ∃ q after, (Run.join (.ofSequence p) leaf).from? store = (.ok q, after) ∧
      first.Bound after q d (leaves ++ [leaf]) := by
  obtain ⟨enlarges, inside, steps, base, state, before, retains, new, spells⟩ := bound
  have self : store.Spells Item.Plain false [leaf] [leaf] := .step (enlarges.grows.soundStep sound).1 .nil
  have all := (spells.later retains).append self
  have part : (Run.part? (.ofSequence p)).from? store = (.ok (some (.pipeline steps d false)), store) := by
    rw [Value.ofSequence, Run.part?, Run.from?_bind_ok (Run.from?_sequence ..), state]
    rfl
  obtain ⟨s, key, limit, rfl, found, -⟩ := (enlarges.grows.soundStep sound).1.form
  have adds : (Run.stepsOf (.object (.step s))).from? store = (.ok [.object (.step s)], store) := by
    have leafPart : (Run.part? (.object (.step s))).from? store = (.ok (some .step), store) := by
      rw [Run.part?, Run.from?_bind_ok (Run.from?_view ..), found]
      rfl
    rw [Run.stepsOf, Run.from?_bind_ok leafPart]
    rfl
  refine ⟨_, _, ?_, all.bound_piped enlarges⟩
  rw [Run.join, Run.from?_bind_ok part]
  simp only [Run.joinAfter]
  rw [Run.from?_bind_ok adds, Run.from?_bind_ok (Run.from?_list ..)]
  exact all.from?_newPipeline d

/-- A pipeline that was bound to data is joined with more leaves in turn. -/
theorem Bound.from?_joinAll {rest : List Value} (bound : first.Bound store p d leaves)
    (sound : ∀ leaf ∈ rest, first.SoundStep Item.Plain false leaf) :
    ∃ q after, (Run.joinAll (.ofSequence p) rest).from? store = (.ok (.ofSequence q), after) ∧
      first.Bound after q d (leaves ++ rest) := by
  induction rest generalizing store p leaves with
  | nil => exact ⟨p, store, rfl, by rwa [List.append_nil]⟩
  | cons leaf rest ih =>
    obtain ⟨q, between, joins, bound'⟩ := bound.from?_join (sound leaf List.mem_cons_self)
    obtain ⟨r, after, joins', bound''⟩ := ih bound' fun other member => sound other (List.mem_cons_of_mem _ member)
    exact ⟨r, after, by rw [Run.joinAll, Run.from?_bind_ok joins]; exact joins', by rwa [List.append_cons]⟩

/-! ## The theorem -/

/-- Each way to run a tree of steps on raw data yields what the tower of its leaves gathers. -/
theorem yields_route {tree : StepTree} {route : Route} (raw : store.Raw d)
    (sound : ∀ leaf ∈ tree.leaves, store.SoundStep Item.Plain false leaf) (fits : route.Fits tree) :
    store.Yields (fun c => route.run tree d c) result ↔ (store.stagesOn false tree.leaves d).Gathers result := by
  obtain ⟨v, made, makes, enlarges, spells, root⟩ := tree.make_spells sound
  -- A pipeline that was put together builds the chain of its leaves on data that it is given.
  have given : tree.isPipeline = true → ∃ p steps kept depth, v = .ofSequence p ∧
      (made.sequence p).body = .pipeline steps .null kept ∧ (made.sequence p).multiValue = false ∧
      (store.stagesOn false tree.leaves d).height ≤ depth ∧ ∀ later n, made.Spares [] later → made.Retains later →
        depth ≤ n → later.Builds Item.Plain (store.aside d) false n steps d (store.stagesOn false tree.leaves d) := by
    intro pipeline
    obtain ⟨p, rfl⟩ := root pipeline
    obtain ⟨steps, kept, form, flag, listed, inner⟩ := spells.of_pipeline
    obtain ⟨depth, high, builds⟩ := inner.covers.builds raw sound enlarges.grows
    exact ⟨p, steps, kept, depth, rfl, form, flag, high, fun later n spares retains deep =>
      builds later steps n ((enlarges.spares (by simp)).trans spares) retains (retains.grows.list listed) deep⟩
  have fresh := (fresh_stagesOn store false tree.leaves d).pass
  cases route with
  | joined =>
    obtain ⟨p, after, joins, -, bound⟩ := spells.from?_bind raw enlarges
    exact (yields_bind makes).trans ((yields_bind joins).trans (bound.yields raw sound))
  | bound =>
    obtain ⟨p, after, -, binds, bound⟩ := spells.from?_bind raw enlarges
    exact (yields_bind makes).trans ((yields_bind binds).trans (bound.yields raw sound))
  | collected =>
    obtain ⟨p, steps, kept, depth, rfl, form, flag, high, builds⟩ := given fits
    refine (yields_bind makes).trans ((yields_bind (Run.from?_pure p made)).trans ?_)
    exact yields_collect_given form flag raw.bound fresh high fun n =>
      builds made n (.refl [] made) (Enlarges.refl made).retains
  | streamed =>
    obtain ⟨p, steps, kept, depth, rfl, form, flag, high, builds⟩ := given fits
    refine (yields_bind makes).trans ((yields_bind (Run.from?_pure p made)).trans ?_)
    exact yields_stream_given form flag raw.bound fresh builds
  | piped =>
    cases all : tree.leaves with
    | nil => exact absurd all fits
    | cons leaf rest =>
      rw [all] at sound
      have self : store.Spells Item.Plain false [leaf] [leaf] := .step (sound leaf List.mem_cons_self) .nil
      obtain ⟨p, between, joins, -, bound⟩ := self.from?_bind raw (.refl store)
      obtain ⟨q, after, joins', bound'⟩ := bound.from?_joinAll fun other member =>
        sound other (List.mem_cons_of_mem _ member)
      have piped : (Run.joinAll d tree.leaves).from? store = (.ok (.ofSequence q), after) := by
        rw [all, Run.joinAll, Run.from?_bind_ok joins]
        exact joins'
      refine (yields_bind piped).trans ((yields_bind (Run.from?_pure q after)).trans ?_)
      exact bound'.yields raw sound

/-- However steps are put together, and whichever way this is run on raw data, it yields what collecting one pipeline
does that has the leaves in its list and is bound to the data. -/
theorem flattening {tree : StepTree} {route : Route} (raw : store.Raw d)
    (sound : ∀ leaf ∈ tree.leaves, store.SoundStep Item.Plain false leaf) (fits : route.Fits tree) :
    store.Yields (fun c => route.run tree d c) result ↔ store.Yields (Run.collectNew tree.leaves d) result := by
  have bound : store.Bound (store.piped tree.leaves d) ⟨store.sequences.size⟩ d tree.leaves :=
    (Spells.leaves_self sound).bound_piped (.refl store)
  rw [yields_route raw sound fits]
  exact ((yields_bind ((Spells.leaves_self sound).from?_newPipeline d)).trans (bound.yields raw sound)).symm

/-- A store with the list `[1, 11, 2, 1]`, a step that looks at last digits and one that looks at whole elements. -/
def digits : Store where
  lists := #[[.int 1, .int 11, .int 2, .int 1]]
  keys := #[{ respond := fun _ _ arguments => .ok <|
    match arguments with
    | [.int n] => .int (n % 10)
    | _ => .null }]
  steps := #[.distinct (.object (.key ⟨0⟩)) (.int 10000), .distinct .null (.int 10000)]

/-- A pipeline in a list of steps, a step that is chained to another one, and a pipeline without steps. -/
def digitTree : StepTree :=
  .group [.join (.leaf (.object (.step ⟨1⟩))) (.group [.leaf (.object (.step ⟨0⟩)), .group []]),
    .chain (.leaf (.object (.step ⟨0⟩))) (.leaf (.object (.step ⟨1⟩)))]

theorem raw_digits : digits.Raw (.object (.list ⟨0⟩)) := by
  refine ⟨.inl rfl, fun _ => ?_, fun given => (by cases given), fun _ found => (by cases found)⟩
  intro ref held
  obtain rfl := List.mem_singleton.mp (show ref ∈ [Ref.list ⟨0⟩] from held)
  refine ⟨Nat.one_pos, fun item member => dataTo_of_refs_nil ?_⟩
  have among : item ∈ [Value.int 1, .int 11, .int 2, .int 1] := member
  simp only [List.mem_cons, List.not_mem_nil, or_false] at among
  rcases among with rfl | rfl | rfl | rfl <;> rfl

theorem sound_digits : ∀ leaf ∈ digitTree.leaves, digits.SoundStep Item.Plain false leaf := by
  intro leaf member
  have among : leaf ∈ [Value.object (.step ⟨1⟩), .object (.step ⟨0⟩), .object (.step ⟨0⟩), .object (.step ⟨1⟩)] := member
  have pure' : digits.SoundKey Item.Plain false (.object (.key ⟨0⟩)) := by
    refine .inr ⟨⟨0⟩, rfl, fun item plain arguments given => ⟨fun _ _ _ => rfl, fun key answered => ?_⟩⟩
    cases given
    obtain rfl := Except.ok.inj answered
    split <;> rfl
  have limit : digits.IsData (.int 10000) := isData_of_refs_nil rfl
  simp only [List.mem_cons, List.not_mem_nil, or_false] at among
  rcases among with rfl | rfl | rfl | rfl
  · exact ⟨.inl rfl, limit⟩
  · exact ⟨pure', limit⟩
  · exact ⟨pure', limit⟩
  · exact ⟨.inl rfl, limit⟩

/-- Four leaves, nested in two lists of steps and two joins, streamed: they give what one list of them gives. -/
theorem flattening_digits :
    digits.Yields (fun c => Route.streamed.run digitTree (.object (.list ⟨0⟩)) c) (.ok [.int 1, .int 2]) ∧
      digits.Yields (Run.collectNew [.object (.step ⟨1⟩), .object (.step ⟨0⟩), .object (.step ⟨0⟩), .object (.step ⟨1⟩)]
        (.object (.list ⟨0⟩))) (.ok [.int 1, .int 2]) := by
  have gathers : (digits.stagesOn false digitTree.leaves (.object (.list ⟨0⟩))).Gathers (.ok [.int 1, .int 2]) :=
    ⟨20, .ok [⟨.int 1, false, some (.int 1)⟩, ⟨.int 2, false, some (.int 2)⟩], _, rfl, rfl⟩
  have fits : Route.streamed.Fits digitTree := rfl
  have streamed : digits.Yields (fun c => Route.streamed.run digitTree (.object (.list ⟨0⟩)) c)
      (.ok [.int 1, .int 2]) := (yields_route raw_digits sound_digits fits).mpr gathers
  exact ⟨streamed, (flattening raw_digits sound_digits fits).mp streamed⟩

end Store

end FirstSeen
