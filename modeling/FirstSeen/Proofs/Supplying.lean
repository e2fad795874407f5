import FirstSeen.Proofs.Atomicity
import FirstSeen.Proofs.Flattening

/-!
# Inputs that are given twice

Pipelines are put together from parts by joining and chaining, by binding a part to data, and by making a pipeline of a
list of steps, on data or not. If data are given at two places of such an expression, or at one place and to the run, then
building the expression or running it fails with the fault that says so. Data that are null do not count, and what a part
is bound to is data even if it is a pipeline.

There is one gap. A pipeline that is bound to data may stand in a list of steps, and its data are not looked at there. So
the lists of an expression must hold parts without data.
-/

set_option autoImplicit false

namespace FirstSeen

/-- How many inputs a value is as an input: none if it is null. -/
def Value.given (data : Value) : Nat := if data.isNull then 0 else 1

/-- How many inputs a part of a chain is bound to. -/
def Store.supplied (store : Store) : Value → Nat
  | .object (.sequence id) =>
    match (store.sequence id).body with
    | .pipeline _ input _ => input.given
    | _ => 0
  | _ => 0

/-- An expression for a pipeline. -/
inductive Expression where
  /-- A step or a pipeline that is there. -/
  | part (v : Value)
  | join (first second : Expression)
  | chain (first second : Expression)
  /-- A part that is bound to data. -/
  | bind (inner : Expression) (data : Value) (multi : Option Bool)
  /-- Data that are joined with a part. -/
  | feed (data : Value) (inner : Expression)
  /-- A pipeline of a list of steps, on data unless these are null. -/
  | group (children : List Expression) (data : Value) (multi : Bool)

namespace Expression

mutual

/-- Builds an expression, from left to right and from the inside out. -/
def make : Expression → Run Value
  | part v => pure v
  | join first second => do
    let left ← first.make
    return .ofSequence (← Run.join left (← second.make))
  | chain first second => do
    let left ← first.make
    return .ofSequence (← Run.joinThen left (← second.make))
  | bind inner data multi => do
    return .ofSequence (← Run.withInput (← inner.make) data (multi.map .bool))
  | feed data inner => do
    return .ofSequence (← Run.join data (← inner.make))
  | group children data multi => do
    return .ofSequence (← Run.newPipeline (.list (← makeAll children)) data (.bool multi))

/-- Builds the expressions of a list. -/
def makeAll : List Expression → Run (List Value)
  | [] => pure []
  | tree :: rest => do
    let made ← tree.make
    return made :: (← makeAll rest)

end

mutual

/-- At how many places of an expression data are given. -/
def places (store : Store) : Expression → Nat
  | part v => store.supplied v
  | join first second | chain first second => first.places store + second.places store
  | bind inner data _ | feed data inner => data.given + inner.places store
  | group children data _ => data.given + placesOf store children

/-- At how many places of several expressions data are given. -/
def placesOf (store : Store) : List Expression → Nat
  | [] => 0
  | tree :: rest => tree.places store + placesOf store rest

end

end Expression

namespace Store

variable {store after : Store} {v w : Value}

/-- Whether a value is a step whose own list, if it is a pipeline, is one of steps. -/
structure IsPart (store : Store) (v : Value) : Prop where
  step : store.isStep v = true
  listed : ∀ p steps input out, v = .ofSequence p → (store.sequence p).body = .pipeline steps input out →
    steps.index < store.lists.size ∧ ∀ step ∈ store.list steps, store.isStep step = true

/-- Whether something is no part of a chain, so that it is data where it is joined with one. -/
def IsNoPart (store : Store) : Value → Prop
  | .object (.step _) => False
  | .object (.sequence id) => id.index < store.sequences.size ∧ (store.sequence id).body.kind ≠ .pipeline
  | _ => True

end Store

mutual

/-- Whether an expression is made of parts, joins data that are no parts, and gives data to no child of a list. -/
def Expression.Fits (store : Store) : Expression → Prop
  | .part v => store.IsPart v
  | .join first second | .chain first second => first.Fits store ∧ second.Fits store
  | .bind inner _ _ => inner.Fits store
  | .feed data inner => store.IsNoPart data ∧ inner.Fits store
  | .group children _ _ => Expression.FitAll store children

/-- Whether the children of a list fit and none is given data. -/
def Expression.FitAll (store : Store) : List Expression → Prop
  | [] => True
  | tree :: rest => (tree.Fits store ∧ tree.places store = 0) ∧ Expression.FitAll store rest

end

namespace Store

variable {store after : Store} {v w : Value} {items : List Value}

/-! ## Parts of a chain -/

theorem supplied_le_one (store : Store) (v : Value) : store.supplied v ≤ 1 := by
  have given : ∀ data : Value, data.given ≤ 1 := fun data => by
    unfold Value.given
    split <;> omega
  unfold supplied
  split
  · split
    · exact given _
    · exact Nat.zero_le 1
  · exact Nat.zero_le 1

theorem isStep_inside {id : SequenceId} (step : store.isStep (.ofSequence id) = true) :
    id.index < store.sequences.size := by
  refine Decidable.byContradiction fun outside => ?_
  rw [isStep, sequence_outside outside] at step
  cases step

/-- A step remains a step, and as much bound, when lists and sequences are added. -/
theorem Enlarges.part_same (enlarges : store.Enlarges after) (step : store.isStep v = true) :
    after.isStep v = true ∧ after.supplied v = store.supplied v := by
  cases v with
  | object ref =>
    cases ref with
    | sequence id =>
      have same := enlarges.sequence (isStep_inside step)
      rw [isStep, supplied, same]
      exact ⟨step, rfl⟩
    | step id =>
      obtain ⟨lists, sequences, rfl⟩ := enlarges
      exact ⟨step, rfl⟩
    | _ => cases step
  | _ => cases step

theorem IsPart.later (part : store.IsPart v) (enlarges : store.Enlarges after) : after.IsPart v := by
  refine ⟨(enlarges.part_same part.step).1, fun p steps input out same body => ?_⟩
  subst same
  rw [enlarges.sequence (isStep_inside part.step)] at body
  obtain ⟨listed, are⟩ := part.listed p steps input out rfl body
  obtain ⟨more, lists⟩ := enlarges.grows.lists
  refine ⟨by rw [lists, Array.size_append]; exact Nat.lt_add_right _ listed, fun step member => ?_⟩
  rw [enlarges.grows.list listed] at member
  exact (enlarges.part_same (are step member)).1

/-- A part of a chain is a single step without an input, or a pipeline with a list of steps. -/
theorem IsPart.cases (part : store.IsPart v) :
    ((Run.part? v).from? store = (.ok (some .step), store) ∧ store.supplied v = 0) ∨
      ∃ steps input multi, (Run.part? v).from? store = (.ok (some (.pipeline steps input multi)), store) ∧
        store.supplied v = input.given ∧ steps.index < store.lists.size ∧
          ∀ step ∈ store.list steps, store.isStep step = true := by
  obtain ⟨step, listed⟩ := part
  cases v with
  | object ref =>
    cases ref with
    | step id =>
      refine .inl ⟨?_, rfl⟩
      rw [Run.part?, Run.from?_bind_ok (Run.from?_view ..)]
      rw [isStep] at step
      split <;> first | rfl | simp_all
    | sequence id =>
      rw [isStep] at step
      cases form : (store.sequence id).body with
      | pipeline steps input out =>
        refine .inr ⟨steps, input, (store.sequence id).multiValue, ?_, by rw [supplied, form],
          listed id steps input out rfl form⟩
        rw [Run.part?, Run.from?_bind_ok (Run.from?_sequence ..), form]
        rfl
      | _ =>
        rw [form] at step
        cases step
    | _ => cases step
  | _ => cases step

/-- The steps that a part adds at the end of a chain are steps, unless the part is bound. -/
theorem IsPart.stepsOf (part : store.IsPart v) :
    (store.supplied v = 1 ∧ (Run.stepsOf v).from? store = (.error (.fault .inputTwice), store)) ∨
      ∃ items, store.supplied v = 0 ∧ (Run.stepsOf v).from? store = (.ok items, store) ∧
        ∀ step ∈ items, store.isStep step = true := by
  rcases part.cases with ⟨found, none⟩ | ⟨steps, input, multi, found, given, -, are⟩
  · refine .inr ⟨[v], none, ?_, by simpa using part.step⟩
    rw [Run.stepsOf, Run.from?_bind_ok found]
    rfl
  · rw [given, Value.given]
    cases null : input.isNull with
    | true =>
      refine .inr ⟨store.list steps, rfl, ?_, are⟩
      rw [Run.stepsOf, Run.from?_bind_ok found]
      simp only [null, if_true]
      rfl
    | false =>
      refine .inl ⟨rfl, ?_⟩
      rw [Run.stepsOf, Run.from?_bind_ok found]
      simp only [null, Bool.false_eq_true, if_false]
      rfl

/-! ## Building -/

/-- Whether a run fails because an input is given twice, or gives a part that is bound to so many inputs, and adds nothing
but lists and sequences. -/
def Binds (store : Store) (run : Run SequenceId) (many : Nat) : Prop :=
  (∃ left, run.from? store = (.error (.fault .inputTwice), left)) ∨
    ∃ p after, run.from? store = (.ok p, after) ∧ store.Enlarges after ∧ after.IsPart (.ofSequence p) ∧
      after.supplied (.ofSequence p) = many

/-- A new pipeline of steps is a part that is bound to its input. -/
theorem binds_of_list {steps : ListId} (listed : steps.index < store.lists.size)
    (are : ∀ step ∈ store.list steps, store.isStep step = true) (input : Value) (multi : Bool) :
    store.Binds (Run.newPipeline (.object (.list steps)) input (.bool multi)) input.given := by
  refine .inr ⟨_, _, from?_newPipeline are, enlarges_joined .., ?_, ?_⟩
  · refine ⟨?_, fun p steps' input' out same body => ?_⟩
    · rw [isStep, sequence_joined_new]
      rfl
    · cases same
      rw [sequence_joined_new] at body
      cases body
      exact ⟨listed, fun step member => ((enlarges_joined store _).part_same (are step member)).1⟩
  · rw [supplied, sequence_joined_new]

theorem binds_newPipeline (are : ∀ step ∈ items, store.isStep step = true) (input : Value) (multi : Bool) :
    store.Binds (Run.newPipeline (.list items) input (.bool multi)) input.given := by
  have enlarges := enlarges_listed store items
  have made : (store.listed items).Binds (Run.newPipeline (.object (.list ⟨store.lists.size⟩)) input (.bool multi))
      input.given := by
    refine binds_of_list (by simp [listed]) (fun step member => ?_) input multi
    rw [list_listed] at member
    exact (enlarges.part_same (are step member)).1
  unfold Binds at made ⊢
  rw [← from?_newPipeline_list] at made
  refine made.imp_right ?_
  rintro ⟨p, after, ends, further, part⟩
  exact ⟨p, after, ends, enlarges.trans further, part⟩

/-- A part that is joined with another fails if that is bound, and is bound else to what it was bound to before. -/
theorem binds_join (first : store.IsPart v) (second : store.IsPart w) :
    store.Binds (Run.join v w) (store.supplied v + store.supplied w) ∧
      store.Binds (Run.joinThen v w) (store.supplied v + store.supplied w) := by
  obtain ⟨part, found, after⟩ : ∃ part, (Run.part? v).from? store = (.ok (some part), store) ∧
      store.Binds (Run.joinAfter v part w) (store.supplied v + store.supplied w) := by
    rcases second.stepsOf with ⟨-, fails⟩ | ⟨items, none, adds, are⟩
    · rcases first.cases with ⟨found, -⟩ | ⟨steps, input, multi, found, -⟩
      · exact ⟨_, found, .inl ⟨store, by rw [Run.joinAfter, Run.from?_bind_error fails]⟩⟩
      · exact ⟨_, found, .inl ⟨store, by rw [Run.joinAfter, Run.from?_bind_error fails]⟩⟩
    · rw [none, Nat.add_zero]
      rcases first.cases with ⟨found, none'⟩ | ⟨steps, input, multi, found, given, -, are'⟩
      · refine ⟨_, found, ?_⟩
        have made := binds_newPipeline (List.forall_mem_cons.mpr ⟨first.step, are⟩) .null false
        rw [none']
        unfold Binds at made ⊢
        rw [Run.joinAfter, Run.from?_bind_ok adds]
        exact made
      · refine ⟨_, found, ?_⟩
        have all : ∀ step ∈ store.list steps ++ items, store.isStep step = true := fun step member =>
          (List.mem_append.mp member).elim (are' step) (are step)
        have made := binds_newPipeline all input multi
        rw [given]
        unfold Binds at made ⊢
        rw [Run.joinAfter, Run.from?_bind_ok adds, Run.from?_bind_ok (Run.from?_list ..)]
        exact made
  unfold Binds at after ⊢
  rw [Run.join, Run.joinThen, Run.from?_bind_ok found, Run.from?_bind_ok found]
  exact ⟨after, after⟩

/-- A part that is bound to data fails if it was bound before. -/
theorem binds_bindInput (data : Value) (multi : Option Bool) (held : store.IsPart v) :
    ∃ part, (Run.part? v).from? store = (.ok (some part), store) ∧
      store.Binds (Run.bindInput v part data (multi.map .bool)) (data.given + store.supplied v) := by
  rcases held.cases with ⟨found, none⟩ | ⟨steps, input, flag, found, given, listed, are⟩
  · refine ⟨_, found, ?_⟩
    rw [none, Nat.add_zero]
    cases multi with
    | none => exact binds_newPipeline (by simpa using held.step) data false
    | some multi => exact binds_newPipeline (by simpa using held.step) data multi
  · refine ⟨_, found, ?_⟩
    cases null : input.isNull with
    | false =>
      left
      refine ⟨store, ?_⟩
      unfold Run.bindInput
      simp only [null]
      rfl
    | true =>
      have none : store.supplied v = 0 := by rw [given, Value.given, null, if_pos rfl]
      rw [none, Nat.add_zero]
      unfold Run.bindInput
      simp only [null]
      cases multi with
      | none => exact binds_of_list listed are data flag
      | some multi => exact binds_of_list listed are data multi

/-- Binding a part to data. -/
theorem binds_withInput (data : Value) (multi : Option Bool) (held : store.IsPart v) :
    store.Binds (Run.withInput v data (multi.map .bool)) (data.given + store.supplied v) := by
  obtain ⟨part, found, bound⟩ := binds_bindInput data multi held
  unfold Binds at bound ⊢
  rw [Run.withInput, Run.from?_bind_ok found]
  exact bound

/-- What is no part is found to be none. -/
theorem IsNoPart.part? {data : Value} (apart : store.IsNoPart data) :
    (Run.part? data).from? store = (.ok none, store) := by
  cases data with
  | object ref =>
    cases ref with
    | step id => exact apart.elim
    | sequence id =>
      have kind := apart.2
      rw [Run.part?, Run.from?_bind_ok (Run.from?_sequence ..)]
      cases form : (store.sequence id).body with
      | pipeline => exact absurd (by rw [form]; rfl) kind
      | _ => rfl
    | _ => rfl
  | _ => rfl

theorem IsNoPart.later {data : Value} (apart : store.IsNoPart data) (enlarges : store.Enlarges after) :
    after.IsNoPart data := by
  cases data with
  | object ref =>
    cases ref with
    | sequence id =>
      obtain ⟨inside, kind⟩ := apart
      exact ⟨Nat.lt_of_lt_of_le inside enlarges.size, by rwa [enlarges.sequence inside]⟩
    | _ => exact apart
  | _ => exact apart

/-- Joining data with a part binds the part to the data. -/
theorem binds_feed {data : Value} (apart : store.IsNoPart data) (held : store.IsPart v) :
    store.Binds (Run.join data v) (data.given + store.supplied v) := by
  obtain ⟨part, found, bound⟩ := binds_bindInput data none held
  have none := apart.part?
  unfold Binds at bound ⊢
  rw [Run.join, Run.from?_bind_ok none, Run.from?_bind_ok found]
  exact bound

end Store

namespace Expression

/-- Whether building fails because an input is given twice, or gives a part that is bound to so many inputs, and adds
nothing but lists and sequences. -/
def Builds (store : Store) (run : Run Value) (many : Nat) : Prop :=
  (∃ left, run.from? store = (.error (.fault .inputTwice), left)) ∨
    ∃ v after, run.from? store = (.ok v, after) ∧ store.Enlarges after ∧ after.IsPart v ∧ after.supplied v = many

variable {store later : Store} {run : Run Value} {many most : Nat}

/-- What is built first is built on. -/
theorem Builds.bind {next : Value → Run Value} (first : Builds later run many)
    (rest : ∀ v after, later.Enlarges after → after.IsPart v → after.supplied v = many → Builds after (next v) most) :
    Builds later (run >>= next) most := by
  rcases first with ⟨left, fails⟩ | ⟨v, after, ends, enlarges, part, supplied⟩
  · exact .inl ⟨left, Run.from?_bind_error fails⟩
  · unfold Builds
    rw [Run.from?_bind_ok ends]
    refine (rest v after enlarges part supplied).imp_right ?_
    rintro ⟨w, last, ends', further, made⟩
    exact ⟨w, last, ends', enlarges.trans further, made⟩

/-- A new pipeline as a part. -/
theorem builds_of_binds {run : Run SequenceId} (binds : later.Binds run many) :
    Builds later (do return .ofSequence (← run)) many := by
  rcases binds with ⟨left, fails⟩ | ⟨p, after, ends, made⟩
  · exact .inl ⟨left, Run.from?_bind_error fails⟩
  · exact .inr ⟨_, after, Run.from?_bind_ok ends, made⟩

/-- The children of a list are given no data. -/
theorem placesOf_eq_zero : ∀ {trees : List Expression}, FitAll store trees → placesOf store trees = 0
  | [], _ => by rw [placesOf]
  | tree :: rest, fit => by
    rw [FitAll] at fit
    rw [placesOf, fit.1.2, placesOf_eq_zero fit.2]

mutual

/-- Building an expression whose lists hold no bound pipelines fails because an input is given twice, or counts the inputs
right. -/
theorem make_builds : ∀ tree : Expression, tree.Fits store → ∀ {later : Store}, store.Enlarges later →
    Builds later tree.make (tree.places store)
  | part v, fits, later, enlarges => by
    rw [Fits] at fits
    rw [make, places]
    exact .inr ⟨v, later, rfl, .refl later, fits.later enlarges, (enlarges.part_same fits.step).2⟩
  | join first second, fits, later, enlarges => by
    rw [Fits] at fits
    rw [make, places]
    refine (make_builds first fits.1 enlarges).bind fun v between further part supplied => ?_
    refine (make_builds second fits.2 (enlarges.trans further)).bind fun w after last part' supplied' => ?_
    rw [← supplied, ← supplied', ← (last.part_same part.step).2]
    exact builds_of_binds (Store.binds_join (part.later last) part').1
  | chain first second, fits, later, enlarges => by
    rw [Fits] at fits
    rw [make, places]
    refine (make_builds first fits.1 enlarges).bind fun v between further part supplied => ?_
    refine (make_builds second fits.2 (enlarges.trans further)).bind fun w after last part' supplied' => ?_
    rw [← supplied, ← supplied', ← (last.part_same part.step).2]
    exact builds_of_binds (Store.binds_join (part.later last) part').2
  | bind inner data multi, fits, later, enlarges => by
    rw [Fits] at fits
    rw [make, places]
    refine (make_builds inner fits enlarges).bind fun v after further part supplied => ?_
    rw [← supplied]
    exact builds_of_binds (Store.binds_withInput data multi part)
  | feed data inner, fits, later, enlarges => by
    rw [Fits] at fits
    rw [make, places]
    refine (make_builds inner fits.2 enlarges).bind fun v after further part supplied => ?_
    rw [← supplied]
    exact builds_of_binds (Store.binds_feed (fits.1.later (enlarges.trans further)) part)
  | group children data multi, fits, later, enlarges => by
    rw [Fits] at fits
    rw [make, places, placesOf_eq_zero fits, Nat.add_zero]
    rcases makeAll_builds children fits enlarges with ⟨left, fails⟩ | ⟨values, after, ends, further, are⟩
    · exact .inl ⟨left, Run.from?_bind_error fails⟩
    · have made := builds_of_binds (Store.binds_newPipeline are data multi)
      unfold Builds at made ⊢
      rw [Run.from?_bind_ok ends]
      refine made.imp_right ?_
      rintro ⟨v, last, ends', more, part⟩
      exact ⟨v, last, ends', further.trans more, part⟩

/-- The children of a list are built as steps, unless an input is given twice. -/
theorem makeAll_builds : ∀ trees : List Expression, FitAll store trees → ∀ {later : Store}, store.Enlarges later →
    (∃ left, (makeAll trees).from? later = (.error (.fault .inputTwice), left)) ∨
      ∃ values after, (makeAll trees).from? later = (.ok values, after) ∧ later.Enlarges after ∧
        ∀ step ∈ values, after.isStep step = true
  | [], _, later, _ => .inr ⟨[], later, by rw [makeAll]; rfl, .refl later, by simp⟩
  | tree :: rest, fit, later, enlarges => by
    rw [FitAll] at fit
    rw [makeAll]
    rcases make_builds tree fit.1.1 enlarges with ⟨left, fails⟩ | ⟨v, between, ends, further, part, -⟩
    · exact .inl ⟨left, Run.from?_bind_error fails⟩
    · rcases makeAll_builds rest fit.2 (enlarges.trans further) with ⟨left, fails⟩ | ⟨values, after, ends', last, are⟩
      · exact .inl ⟨left, by rw [Run.from?_bind_ok ends, Run.from?_bind_error fails]⟩
      · refine .inr ⟨v :: values, after, ?_, further.trans last, ?_⟩
        · rw [Run.from?_bind_ok ends, Run.from?_bind_ok ends']
          rfl
        · exact List.forall_mem_cons.mpr ⟨(last.part_same part.step).1, are⟩

end

end Expression

/-! ## Running -/

/-- How a pipeline is run on data, or on its input if these are null. -/
inductive Running where
  /-- All elements are collected. -/
  | collect
  /-- A stream is asked for its first element. -/
  | stream

/-- Runs a pipeline, without what comes of it. -/
def Running.run (c : Calls) (id : SequenceId) (data : Value) : Running → Run Unit
  | collect => (fun _ => ()) <$> c.collect id data
  | stream => do
    let stream ← Run.newStream id data
    (fun _ => ()) <$> c.advanceWith stream

namespace Store

variable {store : Store}

/-- A pipeline that is bound to data cannot be run on others. -/
theorem running_fails {id : SequenceId} {data : Value} (c : Calls) (running : Running)
    (bound : store.supplied (.ofSequence id) = 1) (given : data.given = 1) :
    ((running.run c id data).from? store).1 = .error (.fault .inputTwice) := by
  have null : data.isNull = false := by
    rw [Value.given] at given
    split at given <;> simp_all
  have builds : ∀ later : Store, later.sequence id = store.sequence id →
      (c.buildFor id data).from? later = (.error (.fault .inputTwice), later) := by
    intro later same
    rw [Calls.buildFor, Run.from?_bind_ok (Run.from?_sequence ..), same]
    rw [supplied] at bound
    cases form : (store.sequence id).body with
    | pipeline steps input out =>
      simp only [form] at bound
      have null' : input.isNull = false := by
        rw [Value.given] at bound
        split at bound <;> simp_all
      have twice : (Run.ofExcept (Calls.inputOf data input)).from? later = (.error (.fault .inputTwice), later) := by
        rw [Calls.inputOf, null, null']
        rfl
      exact Run.from?_bind_error twice
    | _ =>
      rw [form] at bound
      cases bound
  cases running with
  | collect =>
    have collects : (c.collect id data).from? store = (.error (.fault .inputTwice), store) := by
      rw [Calls.collect, null]
      exact Run.from?_bind_error (builds store rfl)
    rw [Running.run, Run.from?_map, collects]
    rfl
  | stream =>
    let opened : Store := { store with cursors := store.cursors.push (.streaming id data .fresh) }
    have fresh : opened.cursor ⟨store.cursors.size⟩ = .streaming id data .fresh := by
      simp [opened, Store.cursor]
    have begins : (c.beginStream id data).from? (opened.withStream ⟨store.cursors.size⟩ id data .running) =
        (.error (.fault .inputTwice), opened.withStream ⟨store.cursors.size⟩ id data .running) := by
      rw [Calls.beginStream, null]
      exact Run.from?_bind_error (builds _ rfl)
    have streams : (Run.newStream id data).from? store = (.ok ⟨store.cursors.size⟩, opened) := rfl
    rw [Running.run, Run.from?_bind_ok streams, Run.from?_map, Calls.advance_fails fresh begins]
    rfl

end Store

/-- An input that is given twice is reported: if data are given at two places of an expression whose lists hold no bound
pipelines, or at one and to the run, then building the expression fails with the fault that says so, or gives a pipeline
that fails with it when it is run. -/
theorem input_twice_reported (store : Store) (expression : Expression) (fits : expression.Fits store) (c : Calls)
    (running : Running) (data : Value) (twice : 2 ≤ expression.places store + data.given) :
    (∃ left, expression.make.from? store = (.error (.fault .inputTwice), left)) ∨
      ∃ id after, expression.make.from? store = (.ok (.ofSequence id), after) ∧
        ((running.run c id data).from? after).1 = .error (.fault .inputTwice) := by
  refine (expression.make_builds fits (.refl store)).imp_right ?_
  rintro ⟨v, after, ends, -, part, supplied⟩
  have most := after.supplied_le_one v
  have given : data.given ≤ 1 := by
    unfold Value.given
    split <;> omega
  have bound : after.supplied v = 1 := by omega
  obtain ⟨id, rfl⟩ : ∃ id, v = .ofSequence id := by
    unfold Store.supplied at bound
    split at bound
    · exact ⟨_, rfl⟩
    · cases bound
  exact ⟨id, after, ends, after.running_fails c running bound (by omega)⟩

/-- Two steps that are joined and bound to a list, run on another list. -/
theorem input_twice_reported_bound :
    ∃ (store : Store) (step : Value) (id : SequenceId) (after : Store), store.isStep step = true ∧
      (Expression.bind (.join (.part step) (.part step)) (.list [.int 1]) none).make.from? store =
        (.ok (.ofSequence id), after) ∧
      ((Running.stream.run (calls 14) id (.list [.int 2])).from? after).1 = .error (.fault .inputTwice) := by
  let store : Store := { steps := #[.distinct .null (.int 10000)] }
  let expression : Expression :=
    .bind (.join (.part (.object (.step ⟨0⟩))) (.part (.object (.step ⟨0⟩)))) (.list [.int 1]) none
  have part : store.IsPart (.object (.step ⟨0⟩)) := ⟨rfl, fun _ _ _ _ same => by cases same⟩
  have fits : expression.Fits store := by
    simp only [expression, Expression.Fits]
    exact ⟨part, part⟩
  have twice : 2 ≤ expression.places store + (Value.list [.int 2]).given := by
    simp only [expression, Expression.places]
    decide
  refine ⟨store, .object (.step ⟨0⟩), ?_⟩
  rcases input_twice_reported store expression fits (calls 14) .stream (.list [.int 2]) twice with
    ⟨left, fails⟩ | ⟨id, after, ends, runs⟩
  · have made : (expression.make.from? store).1.isOk = true := by decide +kernel
    rw [fails] at made
    cases made
  · exact ⟨id, after, rfl, ends, runs⟩

/-- A pipeline that is bound to one list stands among the steps of one that is bound to another, and nothing is reported:
the first list is never looked at. -/
theorem bound_child_ignored :
    (Expression.group [.feed (.list [.int 1]) (.part (.object (.step ⟨0⟩)))] (.list [.int 2]) false).places
        { steps := #[.distinct .null (.int 10000)] } = 2 ∧
      ((do
        let made ← (Expression.group [.feed (.list [.int 1]) (.part (.object (.step ⟨0⟩)))] (.list [.int 2]) false).make
        let elements ← (calls 14).collect (← Run.sequenceFor "collect" made) .null
        return elements.filterMap Value.integer? : Run (List Int)).from?
          { steps := #[.distinct .null (.int 10000)] }).1 = .ok [2] := by
  decide +kernel

end FirstSeen
