import FirstSeen.Proofs.History.Beginning
import FirstSeen.Proofs.Tower.Layering
import FirstSeen.Proofs.Tower.Resetting
import FirstSeen.Proofs.Tower.Spelling

/-!
# Merging pipelines

Joining two pipelines and binding the result to data gives a pipeline that nobody can tell from the second one
bound to the first one bound to the data. The nested pipeline has one passage more, in the middle of its tower.
A passage in the middle is always where the sequence below it is: both are asked, meet the end and begin again
together, and a rewind that fails below leaves both as they are.
-/

set_option autoImplicit false

namespace FirstSeen

namespace Tower

/-! ## A passage in the middle -/

/-- Whether a tower is another one with a passage on top, which nobody peeked through. -/
def Topped (tower other : Tower) : Prop := other = passage tower.pass tower ∧ tower.pass.peeked = none

variable {tower other left : Tower} {told : Draw} {n : Nat}

/-- What an unpeeked tower told, a passage on top of it tells, and is where the tower is then. -/
theorem next_here (unpeeked : tower.pass.peeked = none)
    (ends : next n tower = some (told, left)) :
    next (n + 2) (passage tower.pass tower) = some (told, passage left.pass left) ∧ left.pass.peeked = none := by
  by_cases spent : tower.pass.exhausted
  · obtain ⟨n, rfl⟩ : ∃ k, n = k + 1 := by
      cases n with
      | zero => cases ends
      | succ k => exact ⟨k, rfl⟩
    rw [next, unpeeked, spent] at ends
    cases ends
    refine ⟨?_, unpeeked⟩
    rw [next, Tower.pass, unpeeked, spent]
    rfl
  · have going : tower.pass.exhausted = false := by simpa using spent
    have kept := pass_next ends unpeeked going
    have above : pull (n + 1) (passage tower.pass tower).begun =
        some (told, passage tower.begun.pass left) := by
      rw [begun, withPass, pull, ends, begun, pass_withPass]
      rfl
    rw [next, show (passage tower.pass tower).pass = tower.pass from rfl, unpeeked, going]
    simp only [Bool.false_eq_true, if_false, above, Option.map_some]
    rw [kept]
    cases told with
    | ok item =>
      refine ⟨rfl, ?_⟩
      rw [settle, begun, pass_withPass]
      exact unpeeked
    | error fault =>
      simp only [settle]
      split
      · have same : tower.begun.finish.pass = { tower.begun.pass with exhausted := true } := by
          cases tower <;> rfl
        rw [same]
        refine ⟨rfl, ?_⟩
        rw [begun, pass_withPass]
        exact unpeeked
      · exact ⟨rfl, by rw [begun, pass_withPass, unpeeked]⟩

/-- What a passage on top of an unpeeked tower told, the tower told, and the passage is where the tower is then. -/
theorem next_topped (unpeeked : tower.pass.peeked = none)
    (ends : next n (passage tower.pass tower) = some (told, left)) :
    ∃ below, next n tower = some (told, below) ∧ left = passage below.pass below ∧ below.pass.peeked = none := by
  -- Below the passage the tower was asked itself; what it told then decides what the passage told.
  have decided : ∀ k told' below, k ≤ n → next k tower = some (told', below) →
      ∃ below, next n tower = some (told, below) ∧ left = passage below.pass below ∧ below.pass.peeked = none := by
    intro k told' below le asked
    obtain ⟨above, idle⟩ := next_here unpeeked asked
    have deep := next_mono (Nat.le_add_right n 2) ends
    rw [next_mono (Nat.add_le_add_right le 2) above] at deep
    obtain ⟨rfl, rfl⟩ := Prod.mk.inj (Option.some.inj deep)
    exact ⟨below, next_mono le asked, rfl, idle⟩
  cases n with
  | zero => cases ends
  | succ j =>
    by_cases spent : tower.pass.exhausted
    · refine decided (j + 1) (.error .ended) tower (Nat.le_refl _) ?_
      rw [next, unpeeked, spent]
      rfl
    · rw [next, show (passage tower.pass tower).pass = tower.pass from rfl, unpeeked,
        show tower.pass.exhausted = false by simpa using spent] at ends
      cases j with
      | zero => simp [pull] at ends
      | succ i =>
        obtain ⟨⟨drawn, between⟩, pulled, -⟩ := Option.map_eq_some_iff.mp ends
        obtain ⟨⟨told', below⟩, asked, -⟩ := Option.map_eq_some_iff.mp
          (show (next i tower).map _ = _ from pulled)
        exact decided i told' below (by omega) asked

/-- A tower and the passage on top of it are taken back together, or stay where they are. -/
theorem Topped.rewind (topped : tower.Topped other) :
    other.rewind.1 = tower.rewind.1 ∧ tower.rewind.2.Topped other.rewind.2 := by
  obtain ⟨rfl, unpeeked⟩ := topped
  rw [Tower.rewind]
  rcases rewound : tower.rewind with ⟨fault | fault, below⟩
  · have begins : below.pass = {} := by simpa [rewound] using @pass_rewound tower (by rw [rewound])
    exact ⟨rfl, by rw [Topped, begins]; exact ⟨rfl, rfl⟩⟩
  · have stays : below.pass = tower.pass := by
      simpa [rewound] using @pass_rewind tower fault (by rw [rewound])
    exact ⟨rfl, by rw [Topped, stays]; exact ⟨rfl, unpeeked⟩⟩

/-- Under the same layers, nobody can tell whether there is a passage in the middle. -/
theorem simulates_topped : Simulates (Layered Topped true) 2 :=
  Layered.simulates
    (fun _ tower _ _ left topped ends => by
      obtain ⟨rfl, unpeeked⟩ := topped
      obtain ⟨above, idle⟩ := next_here unpeeked ends
      exact ⟨_, above, rfl, idle⟩)
    (fun _ _ topped => topped.rewind)
    (fun _ _ topped => by rw [topped.1]; rfl)

theorem simulates_untopped : Simulates (Layered (flip Topped) true) 0 :=
  Layered.simulates
    (fun _ _ tower _ left topped ends => by
      obtain ⟨rfl, unpeeked⟩ := topped
      obtain ⟨below, asked, here, idle⟩ := next_topped unpeeked ends
      exact ⟨below, asked, here, idle⟩)
    (fun _ _ topped => ⟨topped.rewind.1.symm, topped.rewind.2⟩)
    (fun _ _ topped => by rw [topped.1]; rfl)

/-- Filters at their beginning, in two groups and with a passage between them or not. -/
theorem layered_filters (first second : List Rule) {origin : Origin} (free : origin.held = none) :
    Layered Topped true (passage {} (filters (first ++ second) (ground {} origin)))
      (passage {} (filters second (passage {} (filters first (ground {} origin))))) := by
  have topped : Topped (filters first (ground {} origin)) (passage {} (filters first (ground {} origin))) := by
    have fresh : (filters first (ground {} origin)).Fresh := fresh_filters ⟨rfl, free⟩
    rw [Topped, fresh.pass]
    exact ⟨rfl, rfl⟩
  obtain ⟨covered, layered⟩ := Layered.filters second (.base topped)
  rw [filters, List.foldl_append]
  exact .passage layered

end Tower

namespace Store

/-- Whether a sequence is a pipeline of distinct stages without an input, whose keys are sound for elements that
are taken apart or not. -/
structure Unbound (store : Store) (p : SequenceId) (steps : ListId) (multi : Bool) : Prop where
  inside : p.index < store.sequences.size
  form : ∃ kept, (store.sequence p).body = .pipeline steps .null kept
  listed : steps.index < store.lists.size
  sound : ∀ step ∈ store.list steps, store.SoundStep Item.Plain multi step

variable {store : Store} {p q : SequenceId} {first second : ListId} {multi : Bool} {d : Value}

theorem Unbound.part? (unbound : store.Unbound p first multi) :
    (Run.part? (.ofSequence p)).from? store =
      (.ok (some (.pipeline first .null (store.sequence p).multiValue)), store) := by
  obtain ⟨kept, form⟩ := unbound.form
  rw [Value.ofSequence, Run.part?, Run.from?_bind_ok (Run.from?_sequence ..), form]
  rfl

/-- A pipeline without an input is bound to data, and shares its list of steps with the pipeline that this gives. -/
theorem Unbound.from?_withInput (unbound : store.Unbound p first multi) (input : Value) :
    (Run.withInput (.ofSequence p) input none).from? store = (.ok ⟨store.sequences.size⟩,
      store.joined { body := .pipeline first input .null, multiValue := (store.sequence p).multiValue }) := by
  rw [Run.withInput, Run.from?_bind_ok unbound.part?]
  exact from?_newPipeline fun step member => (unbound.sound step member).isStep

/-- The store with another list. -/
def listed (store : Store) (items : List Value) : Store := { store with lists := store.lists.push items }

theorem grows_listed (store : Store) (items : List Value) : store.Grows (store.listed items) :=
  ⟨⟨#[], by simp [listed]⟩, ⟨#[items], by simp [listed]⟩, rfl, rfl, fun _ => rfl, rfl, Nat.le_refl _⟩

theorem enlarges_listed (store : Store) (items : List Value) : store.Enlarges (store.listed items) :=
  ⟨#[items], #[], by simp [listed]⟩

theorem list_listed (store : Store) (items : List Value) :
    (store.listed items).list ⟨store.lists.size⟩ = items := by
  simp [listed, Store.list]

theorem Unbound.later {after : Store} (unbound : store.Unbound p first multi) (grows : store.Grows after)
    (size : store.sequences.size ≤ after.sequences.size) (same : after.sequence p = store.sequence p) :
    after.Unbound p first multi := by
  obtain ⟨inside, form, listed, sound⟩ := unbound
  obtain ⟨more, lists⟩ := grows.lists
  refine ⟨Nat.lt_of_lt_of_le inside size, same ▸ form, by rw [lists, Array.size_append]; omega, ?_⟩
  intro step member
  exact (grows.soundStep (sound step (grows.list listed ▸ member))).1

theorem Unbound.lists (unbound : store.Unbound p first multi) :
    store.Lists Item.Plain multi first ((store.list first).map (store.ruleOfStep multi)) :=
  ⟨unbound.listed, unbound.sound, rfl⟩

/-- A list that was just made is shared by a pipeline before it is looked at. -/
theorem from?_newPipeline_list (items : List Value) (input flag : Value) :
    (Run.newPipeline (.list items) input flag).from? store =
      (Run.newPipeline (.object (.list ⟨store.lists.size⟩)) input flag).from? (store.listed items) := by
  have kept : (Run.shared (.list items)).from? store =
      (.ok (.object (.list ⟨store.lists.size⟩)), store.listed items) := rfl
  have held : (Run.shared (.object (.list ⟨store.lists.size⟩))).from? (store.listed items) =
      (.ok (.object (.list ⟨store.lists.size⟩)), store.listed items) := rfl
  rw [Run.newPipeline, Run.newPipeline, Run.from?_bind_ok kept, Run.from?_bind_ok held]

/-- The steps of two pipelines without an input, one list after the other, are those of their join. -/
theorem Unbound.from?_join (unbound : store.Unbound p first multi) (other : store.Unbound q second multi) :
    (Run.join (.ofSequence p) (.ofSequence q)).from? store = (.ok ⟨store.sequences.size⟩,
      (store.listed (store.list first ++ store.list second)).joined
        { body := .pipeline ⟨store.lists.size⟩ .null .null, multiValue := (store.sequence p).multiValue }) := by
  have steps : (Run.stepsOf (.ofSequence q)).from? store = (.ok (store.list second), store) := by
    rw [Run.stepsOf, Run.from?_bind_ok other.part?]
    rfl
  have sound : ∀ step ∈ (store.listed (store.list first ++ store.list second)).list ⟨store.lists.size⟩,
      (store.listed (store.list first ++ store.list second)).SoundStep Item.Plain multi step := by
    intro step member
    rw [list_listed] at member
    have either : store.SoundStep Item.Plain multi step :=
      (List.mem_append.mp member).elim (unbound.sound step) (other.sound step)
    exact ((grows_listed store _).soundStep either).1
  rw [Run.join, Run.from?_bind_ok unbound.part?]
  simp only [Run.joinAfter]
  rw [Run.from?_bind_ok steps, Run.from?_bind_ok (Run.from?_list ..), from?_newPipeline_list]
  exact from?_newPipeline fun step member => (sound step member).isStep

/-! ## Bound to data -/

/-- A pipeline that was just bound to raw data rests before its filters on their origin. -/
theorem Raw.rests_joined {later : Store} {steps : ListId} {rules : List Rule} (raw : store.Raw d)
    (spares : store.Spares [] later) (lists : later.Lists Item.Plain multi steps rules) :
    (later.joined { body := .pipeline steps d .null, multiValue := multi }).Rests Item.Plain (store.aside d) multi
      ⟨later.sequences.size⟩ [⟨later.sequences.size⟩]
      (.passage {} (.filters rules (.ground {} (store.originOf d)))) := by
  have grows := spares.grows.trans (grows_joined later { body := .pipeline steps d .null, multiValue := multi })
  have backs := backs_of_raw raw raw.within
  refine .raw (passes_joined rfl rfl rfl) (by rw [sequence_joined_new]) (by rw [sequence_joined_new]) raw.bound
    (lists.later (grows_joined ..)) (fun final grows' => from?_toSequence raw multi (grows.trans grows')) ?_ rfl
  exact backs.later grows (fun id _ => spares.calls id) spares.cursors spares.still

end Store

/-- The steps of two pipelines in one pipeline, bound to data. -/
def Run.merged (p q : SequenceId) (d : Value) : Run SequenceId := do
  Run.withInput (.ofSequence (← Run.join (.ofSequence p) (.ofSequence q))) d none

/-- A pipeline bound to another one that is bound to data. -/
def Run.nested (p q : SequenceId) (d : Value) : Run SequenceId := do
  Run.withInput (.ofSequence q) (.ofSequence (← Run.withInput (.ofSequence p) d none)) none

namespace Store

/-- Merging two pipelines and binding the result gives a pipeline with the filters of both. -/
theorem merged_rests {store : Store} {p q : SequenceId} {first second : ListId} {multi : Bool} {d : Value}
    (flag : (store.sequence p).multiValue = multi) (unbound : store.Unbound p first multi)
    (other : store.Unbound q second multi) (raw : store.Raw d) :
    ∃ top merged, (Run.merged p q d).from? store = (.ok top, merged) ∧
      merged.Rests Item.Plain (store.aside d) multi top [top]
        (.passage {} (.filters ((store.list first).map (store.ruleOfStep multi) ++
          (store.list second).map (store.ruleOfStep multi)) (.ground {} (store.originOf d)))) := by
  let items := store.list first ++ store.list second
  let state : SequenceState := { body := .pipeline ⟨store.lists.size⟩ .null .null, multiValue := multi }
  have spares : store.Spares [] (store.listed items) :=
    ⟨grows_listed store items, Nat.le_refl _, fun _ _ => rfl, Nat.le_refl _, fun _ _ _ => rfl, fun _ => rfl⟩
  have sound : ∀ step ∈ items, store.SoundStep Item.Plain multi step := fun step member =>
    (List.mem_append.mp member).elim (unbound.sound step) (other.sound step)
  have lists : (store.listed items).Lists Item.Plain multi ⟨store.lists.size⟩
      ((store.list first).map (store.ruleOfStep multi) ++ (store.list second).map (store.ruleOfStep multi)) := by
    refine ⟨by simp [listed], fun step member => ?_, ?_⟩
    · exact ((grows_listed store items).soundStep (sound step (list_listed store items ▸ member))).1
    · rw [list_listed, ← List.map_append]
      exact List.map_congr_left fun step member => ((grows_listed store items).soundStep (sound step member)).2.symm
  have joins := unbound.from?_join other
  rw [flag] at joins
  have there := sequence_joined_new (store.listed items) state
  have bound : ((store.listed items).joined state).Unbound ⟨store.sequences.size⟩ ⟨store.lists.size⟩ multi := by
    refine ⟨by simp [joined, listed], ⟨.null, by rw [show (⟨store.sequences.size⟩ : SequenceId) =
      ⟨(store.listed items).sequences.size⟩ from rfl, there]⟩, ?_, ?_⟩
    · exact (lists.later (grows_joined _ state)).inside
    · exact (lists.later (grows_joined _ state)).sound
  have binds := bound.from?_withInput d
  rw [show (⟨store.sequences.size⟩ : SequenceId) = ⟨(store.listed items).sequences.size⟩ from rfl, there] at binds
  exact ⟨_, _, by rw [Run.merged, Run.from?_bind_ok joins]; exact binds,
    raw.rests_joined (spares.trans (spares_joined _ state (by simp))) (lists.later (grows_joined _ state))⟩

/-- Binding a pipeline to another one that is bound to data gives a pipeline with the filters of both and a passage
between them. -/
theorem nested_rests {store : Store} {p q : SequenceId} {first second : ListId} {multi : Bool} {d : Value}
    (flag : (store.sequence p).multiValue = multi) (unbound : store.Unbound p first multi)
    (other : store.Unbound q second multi) (raw : store.Raw d) :
    ∃ top ids nested, (Run.nested p q d).from? store = (.ok top, nested) ∧
      nested.Rests Item.Plain (store.aside d) multi top ids
        (.passage {} (.filters ((store.list second).map (store.ruleOfStep multi))
          (.passage {} (.filters ((store.list first).map (store.ruleOfStep multi))
            (.ground {} (store.originOf d)))))) := by
  let inner : SequenceState := { body := .pipeline first d .null, multiValue := multi }
  have binds := unbound.from?_withInput d
  rw [flag] at binds
  have rests := raw.rests_joined (Spares.refl [] store) unbound.lists
  have other' : (store.joined inner).Unbound q second multi :=
    other.later (grows_joined store inner) (by simp [joined]) (sequence_joined other.inside)
  have lists : (store.joined inner).Lists Item.Plain multi second ((store.list second).map (store.ruleOfStep multi)) :=
    other.lists.later (grows_joined store inner)
  refine ⟨_, [⟨(store.joined inner).sequences.size⟩, ⟨store.sequences.size⟩], _,
    by rw [Run.nested, Run.from?_bind_ok binds]; exact other'.from?_withInput _, ?_⟩
  have apart : (⟨(store.joined inner).sequences.size⟩ : SequenceId) ∉ [(⟨store.sequences.size⟩ : SequenceId)] := by
    simp [joined]
  have fresh : (Tower.passage {} (.filters ((store.list first).map (store.ruleOfStep multi))
      (.ground {} (store.originOf d)))).Fresh := ⟨rfl, Tower.fresh_filters ⟨rfl, rfl⟩⟩
  refine .upon (passes_joined rfl rfl rfl) (by rw [sequence_joined_new]) apart
    (lists.later (grows_joined ..)) fresh (rests.spared (spares_joined _ _ ?_))
  intro id member
  obtain rfl := List.mem_singleton.mp member
  simp [joined]

end Store

/-! ## Merging and nesting -/

/-- Nobody can tell two merged pipelines bound to data from the second one bound to the first one bound to the
data: whatever is asked has the same outcomes. The merged pipeline needs at most as much fuel. -/
theorem merged_like_nested {store : Store} {p q : SequenceId} {first second : ListId} {d : Value}
    (unbound : store.Unbound p first (store.sequence p).multiValue)
    (other : store.Unbound q second (store.sequence p).multiValue) (raw : store.Raw d) :
    ∃ m k merged nested, (Run.merged p q d).from? store = (.ok m, merged) ∧
      (Run.nested p q d).from? store = (.ok k, nested) ∧
      ∀ n ops outcomes, 4 * ((store.list first).length + (store.list second).length) + 14 ≤ n →
        (((Session.mk merged []).play n m ops).map Prod.fst = some outcomes →
          ((Session.mk nested []).play (n + 2) k ops).map Prod.fst = some outcomes) ∧
        (((Session.mk nested []).play n k ops).map Prod.fst = some outcomes →
          ((Session.mk merged []).play n m ops).map Prod.fst = some outcomes) := by
  obtain ⟨m, merged, merges, rests⟩ := Store.merged_rests rfl unbound other raw
  obtain ⟨k, ids, nested, nests, rests'⟩ := Store.nested_rests rfl unbound other raw
  refine ⟨m, k, merged, nested, merges, nests, fun n ops outcomes deep => ?_⟩
  have free : (store.originOf d).held = none := rfl
  have layered := Tower.layered_filters ((store.list first).map (store.ruleOfStep (store.sequence p).multiValue))
    ((store.list second).map (store.ruleOfStep (store.sequence p).multiValue)) free
  have asks : ∀ op ∈ ops, op.Asks fun _ => True := fun _ _ _ _ => trivial
  have seen := (Session.play_follows ops (rests.follows rfl) (n := n) (by simp [Tower.height]; omega)).seen
  have seen' : ∀ n', n ≤ n' → _ := fun n' le =>
    (Session.play_follows ops (rests'.follows rfl) (n := n') (by simp [Tower.height]; omega)).seen
  refine ⟨fun ends => ?_, fun ends => ?_⟩
  · rw [seen] at ends
    obtain ⟨⟨_, last⟩, played, rfl⟩ := Option.map_eq_some_iff.mp ends
    have agrees := Scene.matches_begun (fun _ => True) layered
    obtain ⟨last', played', -⟩ := Scene.matches_play Tower.simulates_topped asks agrees played
    rw [seen' (n + 2) (by omega), played']
    rfl
  · rw [seen' n (Nat.le_refl n)] at ends
    obtain ⟨⟨_, last⟩, played, rfl⟩ := Option.map_eq_some_iff.mp ends
    have agrees := Scene.matches_begun (fun _ => True) layered.symm
    obtain ⟨last', played', -⟩ := Scene.matches_play Tower.simulates_untopped asks agrees played
    rw [seen]
    exact congrArg (Option.map Prod.fst) played'

/-- A pipeline merged with itself, over an iterator that cannot be taken back. -/
theorem merged_like_nested_iterator :
    ∃ m k merged nested outcomes,
      (Run.merged ⟨0⟩ ⟨0⟩ (.object (.cursor ⟨0⟩))).from? (.sample .null) = (.ok m, merged) ∧
      (Run.nested ⟨0⟩ ⟨0⟩ (.object (.cursor ⟨0⟩))).from? (.sample .null) = (.ok k, nested) ∧
      ((Session.mk merged []).play 22 m [.next, .peek, .rewind, .stream, .drain 0, .next, .size]).map Prod.fst =
        some outcomes ∧
      ((Session.mk nested []).play 24 k [.next, .peek, .rewind, .stream, .drain 0, .next, .size]).map Prod.fst =
        some outcomes := by
  have unbound : (Store.sample .null).Unbound ⟨0⟩ ⟨0⟩ ((Store.sample .null).sequence ⟨0⟩).multiValue := by
    refine ⟨Nat.one_pos, ⟨.null, rfl⟩, Nat.two_pos, fun step member => ?_⟩
    obtain rfl := List.mem_singleton.mp (show step ∈ [Value.object (.step ⟨0⟩)] from member)
    exact ⟨.inl rfl, Store.isData_of_refs_nil rfl⟩
  obtain ⟨m, k, merged, nested, merges, nests, same⟩ := merged_like_nested unbound unbound Store.raw_sample_iterator
  have evaluated : ((Run.merged ⟨0⟩ ⟨0⟩ (.object (.cursor ⟨0⟩))).from? (.sample .null)).1.toOption.any (fun m =>
      ((Session.mk ((Run.merged ⟨0⟩ ⟨0⟩ (.object (.cursor ⟨0⟩))).from? (.sample .null)).2 []).play 22 m
        [.next, .peek, .rewind, .stream, .drain 0, .next, .size]).isSome) = true := by decide +kernel
  rw [merges] at evaluated
  obtain ⟨⟨outcomes, last⟩, played⟩ := Option.isSome_iff_exists.mp evaluated
  exact ⟨m, k, merged, nested, outcomes, merges, nests, by rw [played]; rfl,
    (same 22 _ outcomes (by decide)).1 (by rw [played]; rfl)⟩

end FirstSeen
