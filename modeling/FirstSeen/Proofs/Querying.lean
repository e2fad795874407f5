import FirstSeen.Proofs.History.Bearing
import FirstSeen.Proofs.Rewinding
import FirstSeen.Proofs.Tower.Tracing

/-!
# Questions to pipelines on one sequence

The size of a pipeline and its flag for elements that are taken apart are questions: they should tell something and change
nothing. They do build the pipeline, though, if it was not built yet, and building takes the sequence that the pipeline is
bound to back to its beginning if that was started.

So a question to a pipeline that was built changes nothing. Neither does one to a pipeline that was not, as long as the
sequence was not started when the question is asked, nor when the pipeline is asked for anything else that would have
built it. If the sequence was started in between, then the question is seen: either it took the sequence back, or the
pipeline does not take it back any more once it is asked for elements.
-/

set_option autoImplicit false

namespace FirstSeen

namespace Store

/-- Whether a sequence can be taken back to its beginning at any time, and is there unless it was started. It stands with
the sequences below it. -/
def Rewindable (store : Store) (multi : Bool) (s : SequenceId) (ids : List SequenceId) : Prop :=
  ∃ aside start tower, store.Stands Item.Plain aside multi s ids tower ∧ start.Fresh ∧ Tower.Returns start tower ∧
    Tower.CameFrom start tower

/-- Whether a sequence is a pipeline of distinct stages that is bound to another one, with sound keys, and nothing has
happened to it yet. -/
structure NewBranch (store : Store) (p : SequenceId) (steps : ListId) (s : SequenceId) (multi : Bool) : Prop where
  inside : p.index < store.sequences.size
  state : ∃ flag, store.sequence p = { body := .pipeline steps (.ofSequence s) .null, multiValue := flag }
  listed : steps.index < store.lists.size
  sound : ∀ step ∈ store.list steps, store.SoundStep Item.Plain multi step

/-- Whether a sequence is a pipeline whose output was built. -/
def isBuilt (store : Store) (p : SequenceId) : Bool :=
  match (store.sequence p).body with
  | .pipeline _ _ output => !output.isNull
  | _ => false

variable {store : Store} {multi : Bool} {s p : SequenceId} {ids : List SequenceId}

/-- A new sequence over data that can be restarted and closed can be taken back. -/
theorem Raw.rewindable {d : Value} (raw : store.Raw d) (again : store.Restartable d) (silent : (store.originOf d).Silent)
    (inside : s.index < store.sequences.size)
    (state : store.sequence s = { body := store.groundBody d, multiValue := multi }) : store.Rewindable multi s [s] := by
  have fresh : (Tower.ground {} (store.originOf d)).Fresh := ⟨rfl, rfl⟩
  have repeats : (Tower.ground {} (store.originOf d)).Repeats := raw.repeats again
  refine ⟨store.aside d, _, _, .ground ⟨inside, by rw [state], by rw [state], by rw [state]; trivial⟩ (by rw [state]) ?_,
    fresh, ⟨repeats, silent, fresh.blank⟩, ⟨repeats, fresh.blank, fun _ => rfl⟩⟩
  rw [state]
  exact backs_of_raw raw raw.within

/-- A new pipeline on a sequence buds. -/
theorem NewBranch.buds {steps : ListId} (new : store.NewBranch p steps s multi) :
    store.Buds Item.Plain multi s steps ((store.list steps).map (store.ruleOfStep multi)) p {} := by
  obtain ⟨inside, ⟨flag, state⟩, listed, sound⟩ := new
  exact ⟨⟨inside, by rw [state], by rw [state], by rw [state]; trivial⟩, by rw [state], ⟨listed, sound, rfl⟩⟩

/-- A pipeline that buds was not built. -/
theorem Buds.not_isBuilt {steps : ListId} {rules : List Rule} {pass : Pass}
    (buds : store.Buds Item.Plain multi s steps rules p pass) : store.isBuilt p = false := by
  rw [isBuilt, buds.form]
  rfl

/-- A sequence that can be taken back and new pipelines on it are a grove, in which no pipeline was woken. -/
theorem Rewindable.bears {family : SequenceId → Prop} {steps : SequenceId → ListId}
    (rewindable : store.Rewindable multi s ids)
    (branches : ∀ p, family p → store.NewBranch p (steps p) s multi ∧ p ∉ ids) :
    ∃ aside rest, ∃ plot : Plot, plot.root = s ∧ plot.start.height = ids.length ∧ plot.start.Fresh ∧
      (∀ p, plot.layers p = (store.list (steps p)).length + 1) ∧
      ∃ grove, store.Bears Item.Plain aside multi plot rest family grove ∧ ∀ p, family p → p ≠ s := by
  obtain ⟨aside, start, tower, stands, fresh, returns, came⟩ := rewindable
  obtain ⟨rest, rfl⟩ : ∃ rest, ids = s :: rest := by cases stands <;> exact ⟨_, rfl⟩
  refine ⟨aside, rest, ⟨s, fun p => (store.list (steps p)).map (store.ruleOfStep multi), start⟩, rfl,
    by rw [← returns.height, stands.length], fresh, fun p => by simp [Plot.layers], ⟨tower, fun _ => none⟩,
    ⟨fun _ => [], ?_⟩, fun p related same => (branches p related).2 (same ▸ List.mem_cons_self)⟩
  refine ⟨stands, returns, came, fun p tower found => (by cases found), fun p related =>
    ⟨rfl, steps p, (branches p related).1.buds⟩, fun p related layer member => ?_, fun p related layer member => ?_⟩ <;>
    obtain rfl := List.mem_singleton.mp member
  · exact (branches layer related).1.inside
  · exact ⟨(branches layer related).2, fun q _ different same => different (List.mem_singleton.mp same).symm⟩

variable {D : Item → Prop} {aside : Option CursorId} {plot : Plot} {rest : List SequenceId} {family : SequenceId → Prop}
  {grove : Grove}

/-- A pipeline without a tower was not built. -/
theorem Bears.not_isBuilt (bears : store.Bears Item.Plain aside multi plot rest family grove) (related : family p)
    (asleep : grove.branch p = none) : store.isBuilt p = false := by
  obtain ⟨layers, bears⟩ := bears
  have sprouts := bears.branch p related
  rw [asleep] at sprouts
  obtain ⟨-, steps, buds⟩ := sprouts
  exact buds.not_isBuilt

/-- The root is at its beginning unless it was started. -/
theorem Bears.begun (bears : store.Bears Item.Plain aside multi plot rest family grove) (related : family p)
    (quiet : store.isBuilt p = true ∨ (store.sequence plot.root).started = false) (asleep : grove.branch p = none) :
    grove.base = plot.start := by
  have idle := quiet.resolve_left (by simp [bears.not_isBuilt related asleep])
  obtain ⟨layers, bears⟩ := bears
  exact bears.came.idle (by rw [← bears.base.passes.started, idle])

/-- A sequence that can be taken back, and new pipelines of distinct stages that are bound to it, are asked in any order.
A question to one of the pipelines in between changes nothing of what is seen afterwards if the pipeline was built
already. Nor does it if the sequence is not started at this point, provided that in the run without the question the
pipeline is not asked for the first time while the sequence is started. -/
theorem query_inert {steps : SequenceId → ListId} {moved final : Store} {n : Nat} {before after : List Visit}
    {seen seen' : List (List Outcome)} {query : Op} (rewindable : store.Rewindable multi s ids)
    (branches : ∀ p, family p → store.NewBranch p (steps p) s multi ∧ p ∉ ids) (related : family p)
    (deep : ∀ p, family p → 4 * ((store.list (steps p)).length + 1 + ids.length) + 2 ≤ n)
    (among : ∀ visit ∈ before ++ after, visit.id = s ∨ family visit.id)
    (toured : store.tour n before = some (seen, moved)) (toured' : moved.tour n after = some (seen', final))
    (asks : query = .size ∨ query = .multiValue)
    (quiet : moved.isBuilt p = true ∨ (moved.sequence s).started = false ∧
      ∀ earlier visit later, after = earlier ++ visit :: later → visit.id = p → ∀ told between,
        moved.tour n earlier = some (told, between) → between.isBuilt p = true ∨ (between.sequence s).started = false) :
    ∃ reply last, moved.tour n (⟨p, [query]⟩ :: after) = some ([reply] :: seen', last) := by
  obtain ⟨aside, rest, plot, rfl, height, fresh, layers, grove, bears, apart⟩ := rewindable.bears branches
  have deep' : 4 * plot.start.height + 2 ≤ n := by
    have := deep p related
    omega
  have deeper : ∀ p, family p → 4 * (plot.layers p + plot.start.height) + 2 ≤ n := fun p related => by
    rw [layers, height]
    exact deep p related
  -- What was asked before the question.
  have early := bears.tour fresh (fun visit member => among visit (List.mem_append_left _ member)) deep' deeper
  rw [toured] at early
  rcases told : plot.tour multi n before grove with _ | ⟨seen, grown⟩ <;> rw [told] at early
  · cases early
  obtain ⟨_, same, bears'⟩ := early
  cases same
  have late : ∀ visits : List Visit, (∀ visit ∈ visits, visit.id = plot.root ∨ family visit.id) →
      BearsOut (fun after left => after.Bears Item.Plain aside multi plot rest family left) (moved.tour n visits)
        (plot.tour multi n visits grown) := fun _ among => bears'.tour fresh among deep' deeper
  have among' : ∀ visit ∈ after, visit.id = plot.root ∨ family visit.id := fun visit member =>
    among visit (List.mem_append_right _ member)
  -- What was asked after it, in the grove.
  have plain := late _ among'
  rw [toured'] at plain
  rcases told' : plot.tour multi n after grown with _ | ⟨seen', left⟩ <;> rw [told'] at plain
  · cases plain
  obtain ⟨_, same, -⟩ := plain
  cases same
  obtain ⟨reply, left', asked⟩ := Plot.tour_query fresh bears'.choose_spec.level (apart p related) asks told'
    fun asleep => by
      obtain ⟨idle, quiet⟩ := quiet.resolve_left (by simp [bears'.not_isBuilt related asleep])
      refine ⟨bears'.begun related (.inr idle) asleep, fun earlier visit later split here told between reached => ?_⟩
      have reaches := late earlier fun visit member => among' visit (by rw [split]; simp [member])
      rw [reached] at reaches
      obtain ⟨store', ends, bears''⟩ := reaches
      exact bears''.begun related (quiet earlier visit later split here _ _ ends)
  have queried := late (⟨p, [query]⟩ :: after) fun visit member => by
    rcases List.mem_cons.mp member with rfl | member
    · exact .inr related
    · exact among' visit member
  rw [asked] at queried
  obtain ⟨last, ends, -⟩ := queried
  exact ⟨reply, last, ends⟩

/-- A store with a sequence over `[1, 2, 3]` and two new pipelines of one distinct stage that are bound to it. -/
def fork : Store where
  sequences := #[{ body := .iterable (.tuple [.int 1, .int 2, .int 3]) none },
    { body := .pipeline ⟨0⟩ (.ofSequence ⟨0⟩) .null }, { body := .pipeline ⟨0⟩ (.ofSequence ⟨0⟩) .null }]
  lists := #[[.object (.step ⟨0⟩)]]
  steps := #[.distinct .null (.int 10000)]

/-- The sequence is asked before the question, and afterwards as well: by itself and by either pipeline. -/
theorem query_inert_fork :
    ∃ moved seen, (fork.tour 14 [⟨⟨0⟩, [.next]⟩, ⟨⟨1⟩, [.next]⟩]).map Prod.snd = some moved ∧
      (moved.tour 14 [⟨⟨0⟩, [.next]⟩, ⟨⟨2⟩, [.collect]⟩, ⟨⟨1⟩, [.next]⟩]).map Prod.fst = some seen ∧
      ∃ reply, (moved.tour 14 [⟨⟨1⟩, [.size]⟩, ⟨⟨0⟩, [.next]⟩, ⟨⟨2⟩, [.collect]⟩, ⟨⟨1⟩, [.next]⟩]).map Prod.fst =
        some ([reply] :: seen) := by
  have raw : fork.Raw (.tuple [.int 1, .int 2, .int 3]) :=
    ⟨.inl rfl, fun _ => isData_of_refs_nil rfl, fun given => (by cases given), fun _ found => (by cases found)⟩
  have rewindable : fork.Rewindable false ⟨0⟩ [⟨0⟩] := raw.rewindable (fun _ => ⟨rfl, by rintro ⟨⟩⟩)
    ⟨fun _ _ found => by cases found; rfl, fun _ found => by cases found⟩ (by decide) rfl
  have branches : ∀ p : SequenceId, p = ⟨1⟩ ∨ p = ⟨2⟩ → fork.NewBranch p ⟨0⟩ ⟨0⟩ false ∧ p ∉ [(⟨0⟩ : SequenceId)] := by
    have sound : ∀ step ∈ fork.list ⟨0⟩, fork.SoundStep Item.Plain false step := fun step member => by
      obtain rfl := List.mem_singleton.mp (show step ∈ [Value.object (.step ⟨0⟩)] from member)
      exact ⟨.inl rfl, isData_of_refs_nil rfl⟩
    rintro p (rfl | rfl)
    · exact ⟨⟨by decide, ⟨false, rfl⟩, by decide, sound⟩, by decide⟩
    · exact ⟨⟨by decide, ⟨false, rfl⟩, by decide, sound⟩, by decide⟩
  -- What is asked comes to an end, and the pipeline was built before the question.
  have evaluated : (fork.tour 14 [⟨⟨0⟩, [.next]⟩, ⟨⟨1⟩, [.next]⟩]).bind (fun moved =>
      (moved.2.tour 14 [⟨⟨0⟩, [.next]⟩, ⟨⟨2⟩, [.collect]⟩, ⟨⟨1⟩, [.next]⟩]).map fun _ => moved.2.isBuilt ⟨1⟩) =
      some true := by decide +kernel
  obtain ⟨⟨seen, moved⟩, toured, evaluated⟩ := Option.bind_eq_some_iff.mp evaluated
  obtain ⟨⟨seen', final⟩, toured', built⟩ := Option.map_eq_some_iff.mp evaluated
  obtain ⟨reply, last, ends⟩ := @query_inert fork false ⟨0⟩ ⟨1⟩ [⟨0⟩] (fun p => p = ⟨1⟩ ∨ p = ⟨2⟩) (fun _ => ⟨0⟩) moved final
    14 _ _ seen seen' .size rewindable branches (.inl rfl) (fun _ _ => by decide) (by simp) toured toured' (.inl rfl)
    (.inl built)
  exact ⟨moved, seen', by rw [toured]; rfl, by rw [toured']; rfl, reply, by rw [ends]; rfl⟩

/-- A question to a pipeline that was not built is seen once the sequence was started in between: with the question the
pipeline gives what is left, and everything without it. -/
theorem query_seen :
    ((do
      let _ ← (calls 14).size ⟨1⟩
      let _ ← (calls 14).next ⟨0⟩
      return (← (calls 14).collect ⟨1⟩ .null).filterMap Value.integer? : Run (List Int)).from? fork).1 = .ok [2, 3] ∧
    ((do
      let _ ← (calls 14).next ⟨0⟩
      return (← (calls 14).collect ⟨1⟩ .null).filterMap Value.integer? : Run (List Int)).from? fork).1 =
        .ok [1, 2, 3] := by
  constructor <;> decide +kernel

end Store

end FirstSeen
