import FirstSeen.Chaining
import FirstSeen.Proofs.History.Following
import FirstSeen.Proofs.Tower.Raw

/-!
# New pipelines

A pipeline of distinct stages over raw data to which nothing has happened yet follows a scene that is
computed from the store: its steps become filters on the origin of the data, below one passage, and all of
them are at their beginning. Making a pipeline from a list of steps and data, and binding a pipeline to
data, both give such a pipeline.
-/

set_option autoImplicit false

namespace FirstSeen

namespace Store

/-- Whether a sequence is a pipeline of distinct stages over raw data, with sound keys, to which nothing has
happened yet. -/
structure NewPipeline (store : Store) (p : SequenceId) (steps : ListId) (d : Value) (multi : Bool) :
    Prop where
  inside : p.index < store.sequences.size
  state : store.sequence p = { body := .pipeline steps d .null, multiValue := multi }
  listed : steps.index < store.lists.size
  sound : ∀ step ∈ store.list steps, store.SoundStep Item.Plain multi step
  raw : store.Raw d

/-- The tower that a new pipeline is going to stand as. -/
def towerOf (store : Store) (steps : ListId) (d : Value) (multi : Bool) : Tower :=
  .passage {} (.filters ((store.list steps).map (store.ruleOfStep multi)) (.ground {} (store.originOf d)))

@[simp] theorem height_towerOf (store : Store) (steps : ListId) (d : Value) (multi : Bool) :
    (store.towerOf steps d multi).height = (store.list steps).length + 2 := by
  simp [towerOf, Tower.height]

theorem fresh_towerOf (store : Store) (steps : ListId) (d : Value) (multi : Bool) :
    (store.towerOf steps d multi).Fresh :=
  ⟨rfl, Tower.fresh_filters ⟨rfl, rfl⟩⟩

/-- Raw data are some data. -/
theorem Raw.bound {store : Store} {d : Value} (raw : store.Raw d) : d.isNull = false := by
  cases d with
  | null => rcases raw.usable with usable | usable <;> cases usable
  | _ => rfl

/-- A new pipeline rests before the tower of its steps and data. -/
theorem NewPipeline.rests {store : Store} {p : SequenceId} {steps : ListId} {d : Value} {multi : Bool}
    (new : store.NewPipeline p steps d multi) :
    store.Rests Item.Plain (store.aside d) multi p [p] (store.towerOf steps d multi) := by
  obtain ⟨inside, state, listed, sound, raw⟩ := new
  refine .raw ⟨inside, by rw [state], by rw [state], by rw [state]; trivial⟩ (by rw [state]) (by rw [state])
    raw.bound ⟨listed, sound, rfl⟩ (fun later grows => from?_toSequence raw multi grows)
    (backs_of_raw raw raw.within) rfl

/-- A pipeline that was not begun and has no streams is where the tower that it rests before is. -/
theorem Rests.follows {D : Item → Prop} {aside : Option CursorId} {multi : Bool} {store : Store} {p : SequenceId}
    {ids : List SequenceId} {tower : Tower} (rests : store.Rests D aside multi p ids tower)
    (begun : tower.pass = {}) : (Session.mk store []).Follows D aside multi p ⟨tower, []⟩ :=
  Store.follows_nil (.inr ⟨ids, rests, begun⟩)

/-- A new pipeline without streams is where its tower is. -/
theorem NewPipeline.follows {store : Store} {p : SequenceId} {steps : ListId} {d : Value} {multi : Bool}
    (new : store.NewPipeline p steps d multi) :
    (Session.mk store []).Follows Item.Plain (store.aside d) multi p ⟨store.towerOf steps d multi, []⟩ :=
  new.rests.follows rfl

/-! ## Making pipelines -/

/-- Steps that are sound are steps. -/
theorem SoundStep.isStep {D : Item → Prop} {store : Store} {multi : Bool} {step : Value}
    (sound : store.SoundStep D multi step) : store.isStep step = true := by
  obtain ⟨s, key, limit, rfl, found, -⟩ := sound.form
  simp only [Store.isStep, found]

theorem from?_checkSteps {store : Store} {steps : List Value} (are : ∀ step ∈ steps, store.isStep step = true) :
    (Run.checkSteps steps).from? store = (.ok (), store) := by
  induction steps with
  | nil => rfl
  | cons step rest ih =>
    rw [Run.checkSteps, Run.from?_bind_ok (Run.from?_view ..), are step List.mem_cons_self]
    exact ih fun other member => are other (List.mem_cons_of_mem _ member)

/-- A list of steps is made a pipeline. -/
theorem from?_newPipeline {store : Store} {flag : Bool} {steps : ListId} {input : Value}
    (are : ∀ step ∈ store.list steps, store.isStep step = true) :
    (Run.newPipeline (.object (.list steps)) input (.bool flag)).from? store =
      (.ok ⟨store.sequences.size⟩,
        store.joined { body := .pipeline steps input .null, multiValue := flag }) := by
  rw [Run.newPipeline, Run.from?_bind_ok (show (Run.shared (.object (.list steps))).from? store =
    (.ok (.object (.list steps)), store) from rfl)]
  simp only
  rw [Run.from?_bind_ok (Run.from?_list ..), Run.from?_bind_ok (from?_checkSteps are)]
  rfl

/-! ## A small store -/

/-- A store with a new pipeline of one distinct stage over the given data, next to the list `[1, 2, 1]` and an
iterator over the same numbers. -/
def sample (d : Value) : Store where
  sequences := #[{ body := .pipeline ⟨0⟩ d .null }]
  cursors := #[.walking "iterator" (.ofValues [.int 1, .int 2, .int 1]) 0 none .silent]
  lists := #[[.object (.step ⟨0⟩)], [.int 1, .int 2, .int 1]]
  steps := #[.distinct .null (.int 10000)]

theorem newPipeline_sample {d : Value} (raw : (sample d).Raw d) : (sample d).NewPipeline ⟨0⟩ ⟨0⟩ d false := by
  refine ⟨Nat.one_pos, rfl, Nat.two_pos, fun step member => ?_, raw⟩
  obtain rfl := List.mem_singleton.mp (show step ∈ [Value.object (.step ⟨0⟩)] from member)
  exact ⟨.inl rfl, isData_of_refs_nil rfl⟩

theorem raw_sample_list {d : Value} : (sample d).Raw (.object (.list ⟨1⟩)) := by
  refine ⟨.inl rfl, fun _ => ?_, fun given => (by cases given), fun _ found => (by cases found)⟩
  intro ref held
  obtain rfl := List.mem_singleton.mp (show ref ∈ [Ref.list ⟨1⟩] from held)
  refine ⟨Nat.lt_add_one 1, fun item member => dataTo_of_refs_nil ?_⟩
  have among : item ∈ [Value.int 1, .int 2, .int 1] := member
  simp only [List.mem_cons, List.not_mem_nil, or_false] at among
  rcases among with rfl | rfl | rfl <;> rfl

theorem raw_sample_iterator {d : Value} : (sample d).Raw (.object (.cursor ⟨0⟩)) := by
  refine ⟨.inl rfl, fun _ => trivial, fun given => (by cases given), fun id found => ?_⟩
  obtain rfl : (⟨0⟩ : CursorId) = id := Option.some.inj found
  refine ⟨Nat.one_pos, rfl, fun _ _ _ form => (by cases form), fun i event there => ?_⟩
  obtain ⟨v, found, rfl⟩ := Option.map_eq_some_iff.mp
    (show ([Value.int 1, .int 2, .int 1][i]?).map Event.value = some event from there)
  have among := List.mem_of_getElem? found
  simp only [List.mem_cons, List.not_mem_nil, or_false] at among
  rcases among with rfl | rfl | rfl <;> exact isData_of_refs_nil rfl

end Store

end FirstSeen
