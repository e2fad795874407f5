import FirstSeen.Proofs.Tower.Standing

/-!
# Chains that are built on first use

A pipeline with an input *rests* until something is asked of it; then its input becomes a sequence and its
steps are applied to that in turn. A resting pipeline already counts as the tower that it is going to stand
as: whatever is asked of it first ends as the tower says, and leaves a chain that stands as what is left of
the tower. The input may be a resting pipeline itself.

Building takes a few calls for each sequence of the chain, so that all this holds from a certain depth on.
-/

set_option autoImplicit false

namespace FirstSeen

namespace Tower

/-- Whether each sequence of a tower is where it began. -/
def Fresh : Tower → Prop
  | ground pass origin => pass = {} ∧ origin.held = none
  | passage pass below => pass = {} ∧ below.Fresh
  | filter pass _ seen below => pass = {} ∧ seen = .empty ∧ below.Fresh

theorem Fresh.pass {tower : Tower} (fresh : tower.Fresh) : tower.pass = {} := by
  cases tower <;> exact fresh.1

/-- A tower at its beginning can be taken back there, which changes nothing. -/
theorem Fresh.rewind {tower : Tower} (fresh : tower.Fresh) : tower.rewind = (none, tower) := by
  induction tower with
  | ground pass origin =>
    obtain ⟨rfl, held⟩ := fresh
    have same : { origin with held := none } = origin := by rw [← held]
    have reset : origin.reset false = (none, origin) := by
      simp [Origin.reset, Origin.close, held, same]
    simp only [Tower.rewind, reset]
  | passage pass below ih =>
    obtain ⟨rfl, fresh⟩ := fresh
    simp only [Tower.rewind, ih fresh]
  | filter pass rule seen below ih =>
    obtain ⟨rfl, rfl, fresh⟩ := fresh
    simp only [Tower.rewind, ih fresh]

theorem fresh_filters {rules : List Rule} {below : Tower} (fresh : below.Fresh) :
    (filters rules below).Fresh := by
  induction rules generalizing below with
  | nil => exact fresh
  | cons rule rest ih => exact ih ⟨rfl, rfl, fresh⟩

@[simp] theorem height_filters (rules : List Rule) (below : Tower) :
    (filters rules below).height = rules.length + below.height := by
  induction rules generalizing below with
  | nil => simp [filters]
  | cons rule rest ih =>
    have step := ih (.filter {} rule .empty below)
    simp only [filters, List.foldl_cons, List.length_cons] at step ⊢
    rw [step, height]
    omega

end Tower

/-- What a pipeline becomes when it keeps its output. -/
def SequenceState.keeping (out : Value) (state : SequenceState) : SequenceState :=
  match state.body with
  | .pipeline steps input _ => { state with body := .pipeline steps input out }
  | _ => state

theorem SequenceState.keeping_pipeline {out input kept : Value} {state : SequenceState} {steps : ListId}
    (form : state.body = .pipeline steps input kept) :
    state.keeping out = { state with body := .pipeline steps input out } := by
  simp only [keeping, form]

namespace Store

variable (D : Item → Prop) (aside : Option CursorId) (multi : Bool)

/-- How a step judges elements. -/
def ruleOfStep (store : Store) (step : Value) : Rule :=
  match step with
  | .object (.step id) =>
    match store.step id with
    | .distinct key limit => store.ruleOf multi key limit
    | _ => default
  | _ => default

/-- Whether a step removes duplicates by a sound key, with a limit that is data. -/
def SoundStep (store : Store) (step : Value) : Prop :=
  match step with
  | .object (.step id) =>
    match store.step id with
    | .distinct key limit => store.SoundKey D multi key ∧ store.IsData limit
    | _ => False
  | _ => False

/-- Whether a list of the store holds nothing but sound steps, which judge by these rules. -/
structure Lists (store : Store) (steps : ListId) (rules : List Rule) : Prop where
  inside : steps.index < store.lists.size
  sound : ∀ step ∈ store.list steps, store.SoundStep D multi step
  rules : rules = (store.list steps).map (store.ruleOfStep multi)

/-- Whether data are taken for a new sequence with this body. -/
def TakenFor (store : Store) (d : Value) (body : Body) : Prop :=
  ∀ later, store.Grows later → (Run.toSequence d (.bool multi)).from? later =
    (.ok ⟨later.sequences.size⟩, { later with
      sequences := later.sequences.push { body := body, multiValue := multi } })

/-- Whether a pipeline that was not built yet is going to stand as a tower. -/
inductive Rests (store : Store) : SequenceId → List SequenceId → Tower → Prop
  | raw {id : SequenceId} {pass : Pass} {steps : ListId} {d : Value} {body : Body} {rules : List Rule}
      {origin : Origin} (passes : store.Passes D id pass) (flag : (store.sequence id).multiValue = multi)
      (form : (store.sequence id).body = .pipeline steps d .null) (bound : d.isNull = false)
      (lists : store.Lists D multi steps rules) (taken : store.TakenFor multi d body)
      (backs : store.Backs D aside body origin) (free : origin.held = none) :
      Rests store id [id] (.passage pass (.filters rules (.ground {} origin)))
  | upon {id below : SequenceId} {ids : List SequenceId} {pass : Pass} {steps : ListId}
      {rules : List Rule} {tower : Tower} (passes : store.Passes D id pass)
      (form : (store.sequence id).body = .pipeline steps (.ofSequence below) .null) (apart : id ∉ ids)
      (lists : store.Lists D multi steps rules) (fresh : tower.Fresh) (rest : Rests store below ids tower) :
      Rests store id (id :: ids) (.passage pass (.filters rules tower))

/-- Whether some sequences are others and new ones. -/
structure Widens (store : Store) (ids more : List SequenceId) : Prop where
  kept : ∀ id ∈ ids, id ∈ more
  new : ∀ id ∈ more, id ∈ ids ∨ store.sequences.size ≤ id.index

/-- Whether a sequence can be asked, at some depth of calls, as the tower that it counts as. -/
structure Acts (store : Store) (n : Nat) (id : SequenceId) (ids : List SequenceId) (tower : Tower) :
    Prop where
  next : ∃ more, store.Widens ids more ∧
    store.EndsAs D aside multi id more (((calls n).next id).from? store) (tower.next n)
  flag : ∃ more after, store.Widens ids more ∧ ((calls n).isMulti id).from? store = (.ok multi, after) ∧
    after.Stands D aside multi id more tower ∧ store.Works more after
  size : ∃ more after, store.Widens ids more ∧
    ((calls n).size id).from? store = (tower.size.mapError Halt.fault, after) ∧
    after.Stands D aside multi id more tower ∧ store.Works more after

/-- Whether building the output of a pipeline, at some depth of calls, gives a sequence that can be asked as
the tower below it. -/
def Outputs (store : Store) (n : Nat) (id : SequenceId) (ids : List SequenceId) (pass : Pass)
    (inner : Tower) : Prop :=
  ∃ out outIds built steps input,
    ((calls n).outputOf id .null).from? store = (.ok (.ofSequence out), built) ∧
    store.Widens ids (id :: outIds) ∧ id ∉ outIds ∧ input.isNull = false ∧
    (built.sequence id).body = .pipeline steps input (.ofSequence out) ∧ built.Passes D id pass ∧
    store.Works (id :: outIds) built ∧ built.Acts D aside multi n out outIds inner

variable {D aside multi}

/-- A sound step removes duplicates. -/
theorem SoundStep.form {store : Store} {step : Value} (sound : store.SoundStep D multi step) :
    ∃ s key limit, step = .object (.step s) ∧ store.step s = .distinct key limit ∧ store.SoundKey D multi key ∧
      store.IsData limit := by
  cases step with
  | object ref =>
    cases ref with
    | step s =>
      simp only [SoundStep] at sound
      cases found : store.step s <;> simp only [found] at sound
      exact ⟨s, _, _, rfl, found, sound⟩
    | _ => exact sound.elim
  | _ => exact sound.elim

/-! ## What stays -/

theorem Grows.soundStep {before after : Store} (h : before.Grows after) {step : Value}
    (sound : before.SoundStep D multi step) :
    after.SoundStep D multi step ∧ after.ruleOfStep multi step = before.ruleOfStep multi step := by
  cases step with
  | object ref =>
    cases ref with
    | step id =>
      have same : after.step id = before.step id := by simp only [Store.step, h.steps]
      simp only [SoundStep, ruleOfStep, same] at sound ⊢
      cases found : before.step id with
      | distinct key limit =>
        simp only [found] at sound
        exact ⟨⟨h.soundKey sound.1, h.isData sound.2⟩, h.ruleOf sound.2⟩
      | _ => simp only [found] at sound
    | _ => exact sound.elim
  | _ => exact sound.elim

theorem Lists.later {before after : Store} {steps : ListId} {rules : List Rule}
    (h : before.Lists D multi steps rules) (grows : before.Grows after) :
    after.Lists D multi steps rules := by
  have same := grows.list h.inside
  obtain ⟨more, lists⟩ := grows.lists
  refine ⟨by rw [lists, Array.size_append]; exact Nat.lt_add_right _ h.inside, fun step member => ?_, ?_⟩
  · exact (grows.soundStep (h.sound step (same ▸ member))).1
  · rw [h.rules, same]
    exact List.map_congr_left fun step member => (grows.soundStep (h.sound step member)).2.symm

theorem Spares.mono {ids fewer : List SequenceId} {before after : Store} (h : before.Spares ids after)
    (sub : ∀ id ∈ fewer, id ∈ ids) : before.Spares fewer after :=
  { h with same := fun id member => h.same id (sub id member) }

/-- A pipeline that was not touched rests as it did. -/
theorem Rests.spared {before after : Store} {id : SequenceId} {ids : List SequenceId} {tower : Tower}
    (h : before.Rests D aside multi id ids tower) (spares : before.Spares ids after) :
    after.Rests D aside multi id ids tower := by
  induction h with
  | raw passes flag form bound lists taken backs free =>
    have same := spares.same _ List.mem_cons_self
    exact .raw (passes.later spares.grows spares.size same) (same ▸ flag) (same ▸ form) bound
      (lists.later spares.grows) (fun later grows => taken later (spares.grows.trans grows))
      (backs.later spares.grows (fun id _ => spares.calls id) spares.cursors spares.still) free
  | upon passes form apart lists fresh rest ih =>
    have same := spares.same _ List.mem_cons_self
    exact .upon (passes.later spares.grows spares.size same) (same ▸ form) apart (lists.later spares.grows)
      fresh (ih (spares.mono fun id member => List.mem_cons_of_mem _ member))

theorem Widens.refl (store : Store) (ids : List SequenceId) : store.Widens ids ids :=
  ⟨fun _ member => member, fun _ member => .inl member⟩

theorem Widens.trans {before after : Store} {ids more most : List SequenceId} (h : before.Widens ids more)
    (k : after.Widens more most) (size : before.sequences.size ≤ after.sequences.size) :
    before.Widens ids most :=
  ⟨fun id member => k.kept id (h.kept id member), fun id member =>
    (k.new id member).elim (h.new id) fun new => .inr (Nat.le_trans size new)⟩

/-- A sequence that was there and is not one of some sequences is not one of those and new ones. -/
theorem Widens.apart {store : Store} {ids more : List SequenceId} {id : SequenceId}
    (h : store.Widens ids more) (apart : id ∉ ids) (inside : id.index < store.sequences.size) : id ∉ more :=
  fun member => (h.new id member).elim apart fun new => absurd inside (Nat.not_lt.mpr new)

/-! ## A chain that stands can be asked -/

/-- A sequence that stands as a tower can be asked. -/
theorem Stands.acts {store : Store} {id : SequenceId} {ids : List SequenceId} {tower : Tower}
    (h : store.Stands D aside multi id ids tower) {n : Nat} (deep : tower.height ≤ n) :
    store.Acts D aside multi n id ids tower :=
  ⟨⟨ids, .refl store ids, next_stands n h⟩,
    ⟨ids, store, .refl store ids, isMulti_stands h deep, h, .refl ids store⟩,
    ⟨ids, store, .refl store ids, size_stands h deep, h, .refl ids store⟩⟩

theorem Stands.inside {store : Store} {id : SequenceId} {ids : List SequenceId} {tower : Tower}
    (h : store.Stands D aside multi id ids tower) : ∀ other ∈ ids, other.index < store.sequences.size := by
  induction h with
  | ground passes flag backs => simpa using passes.inside
  | passage passes body bound apart rest ih | filter passes flag body sound data rule_eq apart rest ih =>
    exact List.forall_mem_cons.mpr ⟨passes.inside, ih⟩

/-! ## Applying steps -/

/-- The store with one more sequence. -/
def joined (store : Store) (state : SequenceState) : Store :=
  { store with sequences := store.sequences.push state }

theorem sequence_joined {store : Store} {state : SequenceState} {id : SequenceId}
    (inside : id.index < store.sequences.size) : (store.joined state).sequence id = store.sequence id := by
  simp [joined, Store.sequence, Array.getD_eq_getD_getElem?, Array.getElem?_push_lt inside, inside]

theorem sequence_joined_new (store : Store) (state : SequenceState) :
    (store.joined state).sequence ⟨store.sequences.size⟩ = state := by
  simp [joined, Store.sequence]

theorem grows_joined (store : Store) (state : SequenceState) : store.Grows (store.joined state) :=
  ⟨⟨#[], by simp [joined]⟩, ⟨#[], by simp [joined]⟩, rfl, rfl, fun _ => rfl, rfl, Nat.le_refl _⟩

theorem works_joined (store : Store) (state : SequenceState) (ids : List SequenceId) :
    store.Works ids (store.joined state) :=
  ⟨grows_joined store state, by simp [joined], fun _ _ inside => sequence_joined inside, fun _ _ => rfl⟩

theorem spares_joined (store : Store) (state : SequenceState) {ids : List SequenceId}
    (inside : ∀ id ∈ ids, id.index < store.sequences.size) : store.Spares ids (store.joined state) :=
  ⟨grows_joined store state, by simp [joined], fun id member => sequence_joined (inside id member),
    Nat.le_refl _, fun _ _ _ => rfl, fun _ => rfl⟩

/-- A new sequence is at the beginning of its pass. -/
theorem passes_joined {store : Store} {state : SequenceState} (started : state.started = false)
    (exhausted : state.exhausted = false) (peeked : state.peeked = none) :
    (store.joined state).Passes D ⟨store.sequences.size⟩ {} := by
  refine ⟨by simp [joined], ?_, ?_, ?_⟩ <;> rw [sequence_joined_new]
  · exact started
  · exact exhausted
  · rw [peeked]
    trivial

/-- A new sequence over raw data stands as a ground at its beginning. -/
theorem stands_ground_joined {store : Store} {body : Body} {origin : Origin}
    (backs : store.Backs D aside body origin) :
    (store.joined { body := body, multiValue := multi }).Stands D aside multi ⟨store.sequences.size⟩
      [⟨store.sequences.size⟩] (.ground {} origin) := by
  have there := sequence_joined_new store { body := body, multiValue := multi }
  refine .ground (passes_joined rfl rfl rfl) (by rw [there]) ?_
  rw [there]
  exact backs.later (grows_joined ..) (fun _ _ => rfl) (Nat.le_refl _) fun _ _ _ => rfl

/-- A distinct stage can be made on a chain that stands. -/
theorem Stands.from?_newDistinct {store : Store} {id : SequenceId} {ids : List SequenceId} {tower : Tower}
    {key limit : Value} {n : Nat} (stands : store.Stands D aside multi id ids tower) (deep : tower.height ≤ n) :
    ((calls n).newDistinct (.ofSequence id) key limit).from? store = (.ok ⟨store.sequences.size⟩,
      store.joined { body := .distinct id key limit .empty, multiValue := multi }) := by
  change (Run.from? (do
    let flag ← (calls n).isMulti id
    Run.newSequence { body := .distinct id key limit .empty, multiValue := flag }) store) = _
  rw [Run.from?_bind_ok (isMulti_stands stands deep)]
  rfl

/-- A new distinct stage on a chain stands as a filter on the tower of the chain. -/
theorem stands_filter_joined {store : Store} {id : SequenceId} {ids : List SequenceId} {tower : Tower}
    {key limit : Value} (stands : store.Stands D aside multi id ids tower) (sound : store.SoundKey D multi key)
    (data : store.IsData limit) :
    (store.joined { body := .distinct id key limit .empty, multiValue := multi }).Stands D aside multi
      ⟨store.sequences.size⟩ (⟨store.sequences.size⟩ :: ids)
      (.filter {} (store.ruleOf multi key limit) .empty tower) := by
  have there := sequence_joined_new store { body := .distinct id key limit .empty, multiValue := multi }
  have grows := grows_joined store { body := .distinct id key limit .empty, multiValue := multi }
  have apart : (⟨store.sequences.size⟩ : SequenceId) ∉ ids := fun member =>
    absurd (stands.inside _ member) (Nat.lt_irrefl _)
  exact .filter (passes_joined rfl rfl rfl) (by rw [there]) (by rw [there]) (grows.soundKey sound)
    (grows.isData data) (grows.ruleOf data).symm apart (stands.spared (spares_joined store _ stands.inside))

/-- Applying a step to a sequence that can be asked puts a filter on its tower. -/
theorem apply_stands {store : Store} {n : Nat} {id : SequenceId} {ids : List SequenceId} {tower : Tower}
    {step : Value} (acts : store.Acts D aside multi n id ids tower) (sound : store.SoundStep D multi step) :
    ∃ top more after, store.Widens ids more ∧
      ((calls (n + 1)).apply step (.ofSequence id)).from? store = (.ok (.ofSequence top), after) ∧
      after.Stands D aside multi top more (.filter {} (store.ruleOfStep multi step) .empty tower) ∧
      store.Works more after ∧ top ∈ more := by
  obtain ⟨s, key, limit, rfl, found, soundKey, data⟩ := sound.form
  obtain ⟨more, woken, widens, asked, stands, works⟩ := acts.flag
  let state : SequenceState := { body := .distinct id key limit .empty, multiValue := multi }
  have ruleOf : store.ruleOfStep multi (.object (.step s)) = woken.ruleOf multi key limit := by
    rw [works.grows.ruleOf data]
    simp only [ruleOfStep, found]
  have above := stands_filter_joined stands (works.grows.soundKey soundKey) (works.grows.isData data)
  rw [← ruleOf] at above
  refine ⟨⟨woken.sequences.size⟩, _ :: more, woken.joined state, ⟨fun other member =>
    List.mem_cons_of_mem _ (widens.kept other member), fun other member => ?_⟩, ?_, above,
    (works.mono fun other member => List.mem_cons_of_mem _ member).trans (works_joined ..),
    List.mem_cons_self⟩
  · rcases List.mem_cons.mp member with rfl | member
    · exact .inr works.size
    · exact widens.new other member
  · change ((calls n).applyWith (.object (.step s)) (.ofSequence id)).from? store = _
    rw [Calls.applyWith, Run.from?_bind_ok (Run.from?_view ..), found]
    simp only [Calls.newDistinct, bind_assoc]
    rw [Run.from?_bind_ok asked]
    rfl

/-- Applying steps in turn to a sequence that can be asked puts filters on its tower. -/
theorem applyAll_stands {store : Store} {n : Nat} {id : SequenceId} {ids : List SequenceId}
    {tower : Tower} {step : Value} {steps : List Value}
    (acts : store.Acts D aside multi n id ids tower)
    (sound : ∀ other ∈ step :: steps, store.SoundStep D multi other)
    (deep : steps.length + tower.height ≤ n) :
    ∃ top more after, store.Widens ids more ∧
      ((calls (n + 1)).applyAll (step :: steps) (.ofSequence id)).from? store =
        (.ok (.ofSequence top), after) ∧
      after.Stands D aside multi top more
        (.filters ((step :: steps).map (store.ruleOfStep multi)) tower) ∧
      store.Works more after := by
  induction steps generalizing store id ids tower step with
  | nil =>
    obtain ⟨top, more, after, widens, ends, stands, works, -⟩ := apply_stands acts (sound step (by simp))
    refine ⟨top, more, after, widens, ?_, stands, works⟩
    rw [Calls.applyAll, Run.from?_bind_ok ends]
    rfl
  | cons next rest ih =>
    obtain ⟨first, some, between, widens, ends, stands, works, -⟩ :=
      apply_stands acts (sound step (by simp))
    have sound' : ∀ other ∈ next :: rest, between.SoundStep D multi other ∧
        between.ruleOfStep multi other = store.ruleOfStep multi other := fun other member =>
      works.grows.soundStep (sound other (List.mem_cons_of_mem _ member))
    simp only [List.length_cons] at deep
    obtain ⟨top, more, after, widens', ends', stands', works'⟩ :=
      ih (stands.acts (by simp only [Tower.height]; omega)) (fun other member => (sound' other member).1)
        (by simp only [Tower.height]; omega)
    have rules : (next :: rest).map (between.ruleOfStep multi) =
        (next :: rest).map (store.ruleOfStep multi) :=
      List.map_congr_left fun other member => (sound' other member).2
    rw [rules] at stands'
    refine ⟨top, more, after, widens.trans widens' works.size, ?_, stands',
      (works.mono widens'.kept).trans works'⟩
    rw [Calls.applyAll, Run.from?_bind_ok ends]
    exact ends'

/-! ## Building -/

/-- A pipeline that is bound to an input builds its chain on that. -/
theorem from?_buildFor {store : Store} {c : Calls} {id : SequenceId} {steps : ListId} {input output : Value}
    (form : (store.sequence id).body = .pipeline steps input output) (bound : input.isNull = false) :
    (c.buildFor id .null).from? store =
      (c.build steps input (store.sequence id).multiValue).from? store := by
  have given : Calls.inputOf .null input = .ok input := by
    unfold Calls.inputOf
    rw [bound]
    rfl
  rw [Calls.buildFor, Run.from?_bind_ok (Run.from?_sequence ..), form]
  simp only [given]
  rfl

/-- An output that was built is kept, and stays what it is. -/
theorem keepOutput_outputs {store built : Store} {n : Nat} {id out : SequenceId} {ids outIds : List SequenceId}
    {pass : Pass} {inner : Tower} {steps : ListId} {input : Value}
    (ends : ((calls n).buildFor id .null).from? store = (.ok (.ofSequence out), built))
    (passes : store.Passes D id pass) (form : (store.sequence id).body = .pipeline steps input .null)
    (bound : input.isNull = false) (widens : store.Widens ids (id :: outIds)) (apart : id ∉ outIds)
    (works : store.Works outIds built)
    (acts : ∀ later, built.Spares outIds later → later.Acts D aside multi n out outIds inner) :
    store.Outputs D aside multi n id ids pass inner := by
  obtain ⟨same, passes'⟩ := works.passes apart passes
  let keep := SequenceState.keeping (.ofSequence out)
  have there := sequence_updated (f := keep) passes'.inside
  have kept : keep (built.sequence id) =
      { built.sequence id with body := .pipeline steps input (.ofSequence out) } := by
    rw [same]
    exact SequenceState.keeping_pipeline form
  rw [kept] at there
  refine ⟨out, outIds, built.updated id keep, steps, input, ?_, widens, apart, bound, by rw [there],
    ⟨by simpa using passes'.inside, by rw [there, passes'.started], by rw [there, passes'.exhausted], ?_⟩,
    (works.mono fun other member => List.mem_cons_of_mem _ member).trans (works_updated List.mem_cons_self),
    acts _ (spares_updated apart)⟩
  · rw [Calls.outputOf]
    simp only [Value.isNull, if_true]
    rw [Run.from?_bind_ok ends]
    rfl
  · rw [there]
    exact (grows_updated ..).peeks passes'.peeked

/-- Raw data below a pipeline become a sequence, and its steps filters on that. -/
theorem outputs_raw {store : Store} {n : Nat} {id : SequenceId} {pass : Pass} {steps : ListId} {d : Value}
    {body : Body} {rules : List Rule} {origin : Origin} (passes : store.Passes D id pass)
    (flag : (store.sequence id).multiValue = multi)
    (form : (store.sequence id).body = .pipeline steps d .null) (bound : d.isNull = false)
    (lists : store.Lists D multi steps rules) (taken : store.TakenFor multi d body)
    (backs : store.Backs D aside body origin) (deep : rules.length + 2 ≤ n) :
    store.Outputs D aside multi n id [id] pass (.filters rules (.ground {} origin)) := by
  obtain ⟨n, rfl⟩ : ∃ k, n = k + 1 := ⟨n - 1, by omega⟩
  let state : SequenceState := { body := body, multiValue := multi }
  have there := sequence_joined_new store state
  have works := works_joined store state []
  have stands : (store.joined state).Stands D aside multi ⟨store.sequences.size⟩ [⟨store.sequences.size⟩]
      (.ground {} origin) := stands_ground_joined backs
  have lists' := lists.later works.grows
  have apart : ∀ more, (store.joined state).Widens [⟨store.sequences.size⟩] more → id ∉ more :=
    fun more widens => widens.apart (by
      simp only [List.mem_singleton]
      rintro rfl
      exact absurd passes.inside (Nat.lt_irrefl _)) (Nat.lt_of_lt_of_le passes.inside works.size)
  have widens : ∀ more, (store.joined state).Widens [⟨store.sequences.size⟩] more →
      store.Widens [id] (id :: more) := fun more widens => by
    refine ⟨by simp, fun other member => ?_⟩
    rcases List.mem_cons.mp member with rfl | member
    · exact .inl List.mem_cons_self
    · rcases widens.new other member with there | new
      · obtain rfl := List.mem_singleton.mp there
        exact .inr (Nat.le_refl _)
      · exact .inr (Nat.le_trans works.size new)
  have built : ((calls (n + 1)).buildFor id .null).from? store =
      ((calls (n + 1)).applyAll (store.list steps) (.ofSequence ⟨store.sequences.size⟩)).from?
        (store.joined state) := by
    rw [from?_buildFor form bound, flag, Calls.build, Run.from?_bind_ok (taken store (.refl store))]
    change (Run.sequence ⟨store.sequences.size⟩ >>= _).from? (store.joined state) = _
    rw [Run.from?_bind_ok (Run.from?_sequence ..), there]
    rfl
  rw [lists.rules] at deep ⊢
  cases all : store.list steps with
  | nil =>
    rw [all] at built
    exact keepOutput_outputs built passes form bound (widens _ (.refl _ _)) (apart _ (.refl _ _))
      (works_joined ..) fun later spares => (stands.spared spares).acts (by simp [Tower.height])
  | cons step rest =>
    have sound : ∀ other ∈ step :: rest, (store.joined state).SoundStep D multi other :=
      fun other member => (works.grows.soundStep (lists.sound other (all ▸ member))).1
    have rules : (step :: rest).map ((store.joined state).ruleOfStep multi) =
        (step :: rest).map (store.ruleOfStep multi) := List.map_congr_left fun other member =>
      (works.grows.soundStep (lists.sound other (all ▸ member))).2
    rw [all] at deep built
    simp only [List.length_map, List.length_cons] at deep
    obtain ⟨top, more, after, widens', ends, stands', works'⟩ := applyAll_stands
      (stands.acts (n := n) (by simp only [Tower.height]; omega)) sound
      (by simp only [Tower.height]; omega)
    rw [rules] at stands'
    refine keepOutput_outputs (built.trans ends) passes form bound (widens _ widens') (apart _ widens')
      ((works_joined ..).trans works') fun later spares => (stands'.spared spares).acts ?_
    simp only [Tower.height_filters, List.length_map, List.length_cons, Tower.height]
    omega

/-- A resting pipeline below another becomes its output, or is asked to put filters on it. -/
theorem outputs_over {store : Store} {n : Nat} {id below : SequenceId} {ids : List SequenceId} {pass : Pass}
    {steps : ListId} {rules : List Rule} {tower : Tower} (passes : store.Passes D id pass)
    (form : (store.sequence id).body = .pipeline steps (.ofSequence below) .null) (apart : id ∉ ids)
    (lists : store.Lists D multi steps rules) (begun : (store.sequence below).started = false)
    (acts : ∀ later, store.Spares ids later → ∀ n, 4 * tower.height ≤ n →
      later.Acts D aside multi n below ids tower)
    (deep : rules.length + 4 * tower.height + 1 ≤ n) :
    store.Outputs D aside multi n id (id :: ids) pass (.filters rules tower) := by
  obtain ⟨n, rfl⟩ : ∃ k, n = k + 1 := ⟨n - 1, by omega⟩
  have built : ((calls (n + 1)).buildFor id .null).from? store =
      ((calls (n + 1)).applyAll (store.list steps) (.ofSequence below)).from? store := by
    rw [from?_buildFor form rfl, Calls.build, Run.from?_bind_ok (show
      (Run.toSequence (.ofSequence below) (.bool (store.sequence id).multiValue)).from? store =
        (.ok below, store) from rfl), Run.from?_bind_ok (Run.from?_sequence ..), begun]
    rfl
  rw [lists.rules] at deep ⊢
  cases all : store.list steps with
  | nil =>
    rw [all] at built deep
    exact keepOutput_outputs built passes form rfl (.refl store _) apart (.refl ids store)
      fun later spares => acts later spares (n + 1) (by simpa using Nat.le_of_succ_le deep)
  | cons step rest =>
    have sound : ∀ other ∈ step :: rest, store.SoundStep D multi other :=
      fun other member => lists.sound other (all ▸ member)
    rw [all] at deep built
    simp only [List.length_map, List.length_cons] at deep
    have high : 0 < tower.height := by cases tower <;> simp [Tower.height]
    obtain ⟨top, more, after, widens, ends, stands, works⟩ := applyAll_stands
      (acts store ⟨.refl store, Nat.le_refl _, fun _ _ => rfl, Nat.le_refl _, fun _ _ _ => rfl, fun _ => rfl⟩
        n (by omega)) sound (by omega)
    have apart' := widens.apart apart passes.inside
    refine keepOutput_outputs (built.trans ends) passes form rfl ⟨fun other member => ?_,
      fun other member => ?_⟩ apart' works fun later spares => (stands.spared spares).acts ?_
    · exact List.mem_cons.mpr ((List.mem_cons.mp member).imp_right (widens.kept other))
    · rcases List.mem_cons.mp member with rfl | member
      · exact .inl List.mem_cons_self
      · exact (widens.new other member).imp_left fun there => List.mem_cons_of_mem _ there
    · simp only [Tower.height_filters, List.length_map, List.length_cons]
      omega

/-! ## Asking a pipeline that was not built -/

section Unbuilt

variable {store built : Store} {p out : SequenceId} {steps : ListId} {input : Value} {n : Nat}

/-- A sequence at its beginning has no element that waits to be handed out. -/
theorem Passes.unpeeked (passes : store.Passes D p {}) : (store.sequence p).peeked = none := by
  have peeks := passes.peeked
  cases found : (store.sequence p).peeked with
  | none => rfl
  | some v =>
    rw [found] at peeks
    exact peeks.elim

/-- A sequence at its beginning is started when it is asked for an element. -/
theorem Passes.begun {store : Store} {id : SequenceId} (h : store.Passes D id {}) :
    (store.updated id fun state => { state with started := true }).Passes D id { started := true } := by
  have there := sequence_updated (f := fun state => { state with started := true }) h.inside
  refine ⟨by simpa using h.inside, by rw [there], by rw [there, h.exhausted], ?_⟩
  rw [there]
  exact (grows_updated ..).peeks h.peeked

/-- A pipeline at its beginning that is asked for an element builds its output, once it is started, and pulls from it as
one that was built before. -/
theorem from?_next_unbuilt (passes : store.Passes D p {})
    (form : (store.sequence p).body = .pipeline steps input .null)
    (ends : ((calls n).outputOf p .null).from? (store.updated p fun state => { state with started := true }) =
      (.ok (.ofSequence out), built))
    (body : (built.sequence p).body = .pipeline steps input (.ofSequence out)) :
    ((calls (n + 2)).next p).from? store = (Run.onFault ((calls (n + 1)).pull p) fun fault => do
      if fault.isEnd then Run.signalEnd p
      Run.fail fault).from? built := by
  have there := sequence_updated (f := fun state : SequenceState => { state with started := true }) passes.inside
  have pulled : ((calls (n + 1)).pull p).from? (store.updated p fun state => { state with started := true }) =
      ((calls (n + 1)).pull p).from? built := by
    change ((calls n).pullWith p).from? _ = ((calls n).pullWith p).from? built
    rw [Calls.pullWith, Run.from?_bind_ok (Run.from?_sequence ..), Run.from?_bind_ok (Run.from?_sequence ..), there,
      form, body]
    simp only [Calls.pullPipeline]
    rw [Run.from?_bind_ok ends]
    rfl
  change ((calls (n + 1)).nextWith p).from? store = _
  rw [Calls.nextWith, Run.from?_bind_ok (Run.from?_sequence ..), passes.unpeeked, passes.exhausted, Run.from?_onFault,
    ← pulled, ← Run.from?_onFault]
  rfl

/-- A question that a pipeline passes on to its output is answered as by one that was built before. -/
theorem from?_questions_unbuilt (form : (store.sequence p).body = .pipeline steps input .null)
    (bound : input.isNull = false) (ends : ((calls n).outputOf p .null).from? store = (.ok (.ofSequence out), built))
    (body : (built.sequence p).body = .pipeline steps input (.ofSequence out)) :
    ((calls (n + 1)).size p).from? store = ((calls (n + 1)).size p).from? built ∧
      ((calls (n + 1)).isMulti p).from? store = ((calls (n + 1)).isMulti p).from? built := by
  constructor
  · change ((calls n).sizeWith p).from? store = ((calls n).sizeWith p).from? built
    rw [Calls.sizeWith, Run.from?_bind_ok (Run.from?_sequence ..), Run.from?_bind_ok (Run.from?_sequence ..), form, body]
    exact Run.from?_bind_ok ends
  · change ((calls n).isMultiWith p).from? store = ((calls n).isMultiWith p).from? built
    rw [Calls.isMultiWith, Run.from?_bind_ok (Run.from?_sequence ..), Run.from?_bind_ok (Run.from?_sequence ..), form,
      body]
    simp only [bound]
    exact Run.from?_bind_ok ends

end Unbuilt

/-! ## Asking a resting pipeline -/

/-- What an output has become is the chain below its pipeline. -/
theorem passage_stands {built after : Store} {id out : SequenceId} {outIds more : List SequenceId} {pass : Pass}
    {steps : ListId} {input : Value} {inner : Tower} (widens : built.Widens outIds more) (apart : id ∉ outIds)
    (bound : input.isNull = false)
    (body : (built.sequence id).body = .pipeline steps input (.ofSequence out)) (passes : built.Passes D id pass)
    (works : built.Works more after) (stands : after.Stands D aside multi out more inner) :
    after.Stands D aside multi id (id :: more) (.passage pass inner) := by
  have apart' := widens.apart apart passes.inside
  obtain ⟨same, passes'⟩ := works.passes apart' passes
  exact .passage passes' (same ▸ body) bound apart' stands

/-- The sequences of an output and what it made are those of its pipeline and new ones. -/
theorem widens_cons {store built : Store} {id : SequenceId} {ids outIds more : List SequenceId}
    (widens : store.Widens ids (id :: outIds)) (widens' : built.Widens outIds more)
    (size : store.sequences.size ≤ built.sequences.size) : store.Widens ids (id :: more) := by
  have rest : built.Widens (id :: outIds) (id :: more) := by
    refine ⟨fun other member => ?_, fun other member => ?_⟩
    · exact List.mem_cons.mpr ((List.mem_cons.mp member).imp_right (widens'.kept other))
    · rcases List.mem_cons.mp member with rfl | member
      · exact .inl List.mem_cons_self
      · exact (widens'.new other member).imp_left fun there => List.mem_cons_of_mem _ there
  exact widens.trans rest size

/-- What was changed while the output of a pipeline was built and asked. -/
theorem works_cons {store built after : Store} {id : SequenceId} {outIds more : List SequenceId}
    (widens : built.Widens outIds more) (works : store.Works (id :: outIds) built)
    (works' : built.Works more after) : store.Works (id :: more) after := by
  refine (works.mono fun other member => ?_).trans
    (works'.mono fun other member => List.mem_cons_of_mem _ member)
  exact List.mem_cons.mpr ((List.mem_cons.mp member).imp_right (widens.kept other))

/-- A pull from a resting pipeline builds its output and hands on the next element of that. -/
theorem pull_outputs {store : Store} {n : Nat} {id : SequenceId} {ids : List SequenceId} {pass : Pass}
    {steps : ListId} {input : Value} {inner : Tower}
    (form : (store.sequence id).body = .pipeline steps input .null)
    (outputs : store.Outputs D aside multi n id ids pass inner) :
    ∃ more, store.Widens ids more ∧
      store.EndsAs D aside multi id more (((calls (n + 1)).pull id).from? store)
        ((Tower.passage pass inner).pull (n + 1)) := by
  obtain ⟨out, outIds, built, steps', input', ends, widens, apart, bound, body, passes, works, acts⟩ := outputs
  obtain ⟨more, widens', asked⟩ := acts.next
  have pulled : ((calls (n + 1)).pull id).from? store = ((calls n).next out).from? built := by
    change ((calls n).pullWith id).from? store = _
    rw [Calls.pullWith, Run.from?_bind_ok (Run.from?_sequence ..), form]
    simp only [Calls.pullPipeline]
    rw [Run.from?_bind_ok ends]
    rfl
  refine ⟨id :: more, widens_cons widens widens' works.size, ?_⟩
  rw [pulled, Tower.pull]
  cases drawn : inner.next n with
  | none =>
    rw [drawn] at asked
    exact asked
  | some pair =>
    rw [drawn] at asked
    obtain ⟨delivers, stands, works'⟩ := asked
    exact ⟨delivers, passage_stands widens' apart bound body passes works' stands,
      works_cons widens' works works'⟩

/-- A pipeline that rests at its beginning can be asked if its output can be built. -/
theorem acts_of_outputs {store : Store} {n : Nat} {id : SequenceId} {ids : List SequenceId} {steps : ListId}
    {input : Value} {inner : Tower} (mem : id ∈ ids) (passes : store.Passes D id {})
    (form : (store.sequence id).body = .pipeline steps input .null) (bound : input.isNull = false)
    (outputs : store.Outputs D aside multi (n + 1) id ids {} inner)
    (begun : (store.updated id fun state => { state with started := true }).Outputs D aside multi n id ids
      { started := true } inner) : store.Acts D aside multi (n + 2) id ids (.passage {} inner) := by
  obtain ⟨inside, started, exhausted, peeks⟩ := passes
  have peeked : (store.sequence id).peeked = none := by
    cases held : (store.sequence id).peeked with
    | none => rfl
    | some v => rw [held] at peeks; exact peeks.elim
  have there := sequence_updated (f := fun state : SequenceState => { state with started := true }) inside
  refine ⟨?_, ?_, ?_⟩
  · obtain ⟨more, widens, pulled⟩ := pull_outputs (by rw [there, form]) begun
    refine ⟨more, ⟨widens.kept, fun other member => by simpa using widens.new other member⟩, ?_⟩
    change store.EndsAs D aside multi id more (((calls (n + 1)).nextWith id).from? store) _
    rw [Calls.nextWith, Run.from?_bind_ok (Run.from?_sequence ..), Tower.next, peeked, exhausted]
    exact .after (works_updated (widens.kept id mem)) (settle_stands pulled)
  · obtain ⟨out, outIds, built, steps', input', ends, widens, apart, bound', body, passes', works, acts⟩ :=
      outputs
    obtain ⟨more, after, widens', asked, stands, works'⟩ := acts.flag
    refine ⟨id :: more, after, widens_cons widens widens' works.size, ?_,
      passage_stands widens' apart bound' body passes' works' stands, works_cons widens' works works'⟩
    change ((calls (n + 1)).isMultiWith id).from? store = _
    rw [Calls.isMultiWith, Run.from?_bind_ok (Run.from?_sequence ..), form]
    simp only [bound]
    exact (Run.from?_bind_ok ends).trans asked
  · obtain ⟨out, outIds, built, steps', input', ends, widens, apart, bound', body, passes', works, acts⟩ :=
      outputs
    obtain ⟨more, after, widens', asked, stands, works'⟩ := acts.size
    refine ⟨id :: more, after, widens_cons widens widens' works.size, ?_,
      passage_stands widens' apart bound' body passes' works' stands, works_cons widens' works works'⟩
    change ((calls (n + 1)).sizeWith id).from? store = _
    rw [Calls.sizeWith, Run.from?_bind_ok (Run.from?_sequence ..), form]
    exact (Run.from?_bind_ok ends).trans asked

theorem Rests.passes {store : Store} {id : SequenceId} {ids : List SequenceId} {tower : Tower}
    (h : store.Rests D aside multi id ids tower) : store.Passes D id tower.pass := by
  cases h <;> assumption

theorem Rests.mem {store : Store} {id : SequenceId} {ids : List SequenceId} {tower : Tower}
    (h : store.Rests D aside multi id ids tower) : id ∈ ids := by
  cases h <;> simp

/-- A pipeline that rests at its beginning can be asked as the tower that it is going to stand as. -/
theorem Rests.acts {store : Store} {id : SequenceId} {ids : List SequenceId} {tower : Tower}
    (h : store.Rests D aside multi id ids tower) (fresh : tower.pass = {}) {n : Nat}
    (deep : 4 * tower.height ≤ n) : store.Acts D aside multi n id ids tower := by
  -- The induction needs the sequence below in every store that leaves its own chain alone.
  suffices all : ∀ later, store.Spares ids later → ∀ n, 4 * tower.height ≤ n →
      later.Acts D aside multi n id ids tower from all store (.refl ids store) n deep
  clear deep n
  induction h with
  | @raw id pass steps d body rules origin passes flag form bound lists taken backs free =>
    intro later spares n deep
    obtain rfl : pass = {} := fresh
    simp only [Tower.height, Tower.height_filters] at deep
    obtain ⟨n, rfl⟩ : ∃ k, n = k + 2 := ⟨n - 2, by omega⟩
    have same := spares.same _ List.mem_cons_self
    have passes' := passes.later spares.grows spares.size same
    have there := sequence_updated (f := fun state => { state with started := true }) passes'.inside
    have grows := spares.grows.trans (grows_updated later id fun state => { state with started := true })
    have backs' := backs.later spares.grows (fun id _ => spares.calls id) spares.cursors spares.still
    exact acts_of_outputs List.mem_cons_self passes' (same ▸ form) bound
      (outputs_raw passes' (same ▸ flag) (same ▸ form) bound (lists.later spares.grows)
        (fun last more => taken last (spares.grows.trans more)) backs' (by omega))
      (outputs_raw passes'.begun (by rw [there, same, flag]) (by rw [there, same, form]) bound
        (lists.later grows) (fun last more => taken last (grows.trans more))
        (backs'.later (grows_updated ..) (fun _ _ => rfl) (Nat.le_refl _) fun _ _ _ => rfl) (by omega))
  | @upon id below ids pass steps rules tower passes form apart lists fresh' rest ih =>
    intro later spares n deep
    obtain rfl : pass = {} := fresh
    simp only [Tower.height, Tower.height_filters] at deep
    obtain ⟨n, rfl⟩ : ∃ k, n = k + 2 := ⟨n - 2, by omega⟩
    have same := spares.same _ List.mem_cons_self
    have passes' := passes.later spares.grows spares.size same
    have there := sequence_updated (f := fun state => { state with started := true }) passes'.inside
    have spares' : store.Spares ids later := spares.mono fun other member => List.mem_cons_of_mem _ member
    have begun : later.Spares ids (later.updated id fun state => { state with started := true }) :=
      spares_updated apart
    have waits : ∀ last, store.Spares ids last → (last.sequence below).started = false :=
      fun last spares => by rw [spares.same _ rest.mem, rest.passes.started, fresh'.pass]
    exact acts_of_outputs List.mem_cons_self passes' (same ▸ form) rfl
      (outputs_over passes' (same ▸ form) apart (lists.later spares.grows) (waits later spares')
        (fun last more => ih fresh'.pass last (spares'.trans more)) (by omega))
      (outputs_over passes'.begun (by rw [there, same, form]) apart
        (lists.later (spares.grows.trans begun.grows)) (waits _ (spares'.trans begun))
        (fun last more => ih fresh'.pass last ((spares'.trans begun).trans more)) (by omega))

end Store

end FirstSeen
