import FirstSeen.Proofs.History.Acting

/-!
# Runs that are begun

Steps, and pipelines without an input, can be *shared* by runs: whenever they are bound to data, joined with the pipeline
of a run or run on data that are given, a new act begins that shares nothing with what was there. Nothing of a run is
kept in what it was begun with, so it does not matter what happened to the others before.
-/

set_option autoImplicit false

namespace FirstSeen

namespace Store

variable {first store later : Store} {part d : Value} {role : Role}

/-! ## What may be shared -/

/-- Whether a part of a chain may be shared by runs: a step whose keys are pure, or a pipeline without an input of such
steps. -/
inductive Shares (store : Store) : Value → Prop
  | step {part : Value} (sound : ∀ multi, store.SoundStep Item.Plain multi part) : Shares store part
  | pipeline {u : SequenceId} {steps : ListId} (unbound : ∀ multi, store.Unbound u steps multi) :
      Shares store (.ofSequence u)

/-- Whether data may be shared by runs: raw data that can be iterated again. -/
structure Restarts (store : Store) (d : Value) : Prop where
  raw : store.Raw d
  again : store.Restartable d

theorem Unbound.stepsIn {u : SequenceId} {steps : ListId} {multi : Bool} (unbound : store.Unbound u steps multi) :
    store.stepsIn (.ofSequence u) = store.list steps := by
  obtain ⟨kept, form⟩ := unbound.form
  simp only [Store.stepsIn, form]

theorem SoundStep.stepsIn {multi : Bool} (sound : store.SoundStep Item.Plain multi part) :
    store.stepsIn part = [part] ∧ store.flagIn part = false := by
  obtain ⟨s, key, limit, rfl, -⟩ := sound.form
  exact ⟨rfl, rfl⟩

theorem Shares.sound (shares : store.Shares part) :
    ∀ multi, ∀ step ∈ store.stepsIn part, store.SoundStep Item.Plain multi step := by
  intro multi step member
  cases shares with
  | step sound =>
    rw [(sound multi).stepsIn.1, List.mem_singleton] at member
    exact member ▸ sound multi
  | pipeline unbound =>
    rw [(unbound multi).stepsIn] at member
    exact (unbound multi).sound step member

/-- A pipeline that is shared embodies what runs are begun as with it. -/
theorem Shares.embodies {u : SequenceId} (shares : store.Shares (.ofSequence u)) :
    store.Embodies u (store.flagIn (.ofSequence u)) (store.stepsIn (.ofSequence u)) .null := by
  generalize same : Value.ofSequence u = part at shares
  cases shares with
  | step sound => exact (same ▸ sound false : store.SoundStep Item.Plain false (.ofSequence u)).elim
  | @pipeline _ steps unbound =>
    cases same
    obtain ⟨kept, form⟩ := (unbound false).form
    exact ⟨(unbound false).inside, rfl, steps, kept, form, (unbound false).listed, (unbound false).stepsIn.symm⟩

theorem SoundStep.part? {D : Item → Prop} {multi : Bool} (sound : store.SoundStep D multi part) :
    (Run.part? part).from? store = (.ok (some .step), store) := by
  obtain ⟨s, key, limit, rfl, found, -⟩ := sound.form
  rw [Run.part?, Run.from?_bind_ok (Run.from?_view ..), found]
  rfl

/-- What is shared adds the steps that it had, whatever the store has grown to. -/
theorem Shares.from?_stepsOf (shares : first.Shares part) (retains : first.Retains store) :
    (Run.stepsOf part).from? store = (.ok (first.stepsIn part), store) := by
  cases shares with
  | step sound =>
    rw [Run.stepsOf, Run.from?_bind_ok (retains.grows.soundStep (sound false)).1.part?, (sound false).stepsIn.1]
    rfl
  | pipeline unbound =>
    have later := (unbound false).later retains.grows retains.size (retains.sequence (unbound false).inside)
    rw [Run.stepsOf, Run.from?_bind_ok later.part?, (unbound false).stepsIn, ← retains.grows.list (unbound false).listed]
    rfl

/-! ## Pipelines that are made -/

/-- Whether what is run makes a pipeline of these steps, which is bound to these data. -/
def Makes (store : Store) (run : Run SequenceId) (multi : Bool) (steps : List Value) (d : Value) : Prop :=
  ∃ listed later, store.Enlarges later ∧ listed.index < later.lists.size ∧ later.list listed = steps ∧
    run.from? store = (.ok ⟨later.sequences.size⟩, later.joined { body := .pipeline listed d .null, multiValue := multi })

/-- A list of steps that was just made is made a pipeline. -/
theorem makes_newPipeline {steps : List Value} {multi : Bool} (are : ∀ step ∈ steps, store.isStep step = true) :
    store.Makes (Run.newPipeline (.list steps) d (.bool multi)) multi steps d := by
  refine ⟨_, _, enlarges_listed store steps, by simp [listed], list_listed store steps, ?_⟩
  rw [from?_newPipeline_list]
  exact from?_newPipeline (by rwa [list_listed])

/-- Binding what is shared to data makes a pipeline of its steps. -/
theorem Shares.binds (shares : first.Shares part) (retains : first.Retains store) (d : Value) (multi : Option Bool) :
    store.Makes (Run.withInput part d (multi.map .bool)) (multi.getD (first.flagIn part)) (first.stepsIn part) d := by
  cases shares with
  | step sound =>
    have later := (retains.grows.soundStep (sound false)).1
    have makes : store.Makes (Run.newPipeline (.list [part]) d (.bool (multi.getD false))) (multi.getD false) [part] d :=
      makes_newPipeline (List.forall_mem_singleton.mpr later.isStep)
    rw [Makes, Run.withInput, Run.from?_bind_ok later.part?, (sound false).stepsIn.1, (sound false).stepsIn.2]
    cases multi <;> exact makes
  | @pipeline u steps unbound =>
    have later := (unbound false).later retains.grows retains.size (retains.sequence (unbound false).inside)
    have flag : first.flagIn (.ofSequence u) = (store.sequence u).multiValue := by
      rw [retains.sequence (unbound false).inside]
      rfl
    refine ⟨steps, store, .refl store, later.listed, ?_, ?_⟩
    · rw [(unbound false).stepsIn, retains.grows.list (unbound false).listed]
    · rw [Run.withInput, Run.from?_bind_ok later.part?, flag]
      have are : ∀ step ∈ store.list steps, store.isStep step = true := fun step member =>
        (later.sound step member).isStep
      cases multi <;> exact from?_newPipeline are

/-- Joining a pipeline with what is shared makes a pipeline of the steps of both, whatever was asked of the first one. -/
theorem Shares.joins {p : SequenceId} {multi : Bool} {steps : List Value} (shares : first.Shares part)
    (retains : first.Retains store) (embodies : store.Embodies p multi steps d)
    (sound : ∀ step ∈ steps, first.SoundStep Item.Plain multi step) :
    store.Makes (Run.join (.ofSequence p) part) multi (steps ++ first.stepsIn part) d := by
  obtain ⟨inside, rfl, listed, kept, form, among, rfl⟩ := embodies
  have part? : (Run.part? (.ofSequence p)).from? store =
      (.ok (some (.pipeline listed d (store.sequence p).multiValue)), store) := by
    rw [Value.ofSequence, Run.part?, Run.from?_bind_ok (Run.from?_sequence ..), form]
    rfl
  have are : ∀ step ∈ store.list listed ++ first.stepsIn part, store.isStep step = true := by
    intro step member
    have here := (List.mem_append.mp member).elim (sound step) (shares.sound _ step)
    exact (retains.grows.soundStep here).1.isStep
  have makes : store.Makes (Run.newPipeline (.list (store.list listed ++ first.stepsIn part)) d
      (.bool (store.sequence p).multiValue)) _ _ d := makes_newPipeline are
  rw [Makes, Run.join, Run.from?_bind_ok part?]
  simp only [Run.joinAfter]
  rw [Run.from?_bind_ok (shares.from?_stepsOf retains), Run.from?_bind_ok (Run.from?_list ..)]
  exact makes

end Store

/-! ## New acts -/

section New

variable {first store after : Store} {role : Role} (casts : first.Casts role) (retains : first.Retains store)
  (calls : ∀ id, first.callsOf id ≤ store.callsOf id)
include casts retains calls

/-- A pipeline that was just made is a new act. -/
theorem moves_pipeline {run : Run SequenceId} (kind : role.kind = .pipeline)
    (makes : store.Makes run role.multi role.steps role.data) :
    ∃ member after more, (do return .pipeline (← run) [] : Run Member).from? store = (.ok member, after) ∧
      Moves first store (fun _ => False) [] after member (role.begun first) more := by
  obtain ⟨listed, later, enlarges, among, same, ends⟩ := makes
  let state : SequenceState := { body := .pipeline listed role.data .null, multiValue := role.multi }
  have grown : store.Enlarges (later.joined state) := enlarges.trans (Store.enlarges_joined later state)
  have spares : store.Spares [] (later.joined state) := grown.spares (by simp)
  have counted := spares.calls
  have onward := retains.trans grown.retains
  have here := Store.sequence_joined_new later state
  have lists :
      (later.joined state).Lists Item.Plain role.multi listed (role.steps.map (first.ruleOfStep role.multi)) := by
    have items : (later.joined state).list listed = role.steps := same
    refine ⟨among, fun step member => ?_, ?_⟩
    · exact (onward.grows.soundStep (casts.sound role.multi step (items ▸ member))).1
    · rw [items]
      exact List.map_congr_left fun step member =>
        (onward.grows.soundStep (casts.sound role.multi step member)).2.symm
  have rests : (later.joined state).Rests Item.Plain none role.multi ⟨later.sequences.size⟩ [⟨later.sequences.size⟩]
      (.passage {} (role.chain first)) :=
    .raw (Store.passes_joined rfl rfl rfl) (by rw [here]) (by rw [here]) casts.raw.bound lists
      (fun final grows => Store.from?_toSequence casts.raw role.multi (onward.grows.trans grows))
      (casts.raw.backs_onward casts.again onward.grows fun id => (counted id).symm ▸ calls id) rfl
  have begun : role.begun first = ⟨role, ⟨.passage {} (role.chain first), []⟩⟩ := by
    rw [Role.begun, kind]
  refine ⟨_, _, [⟨later.sequences.size⟩], by rw [Run.from?_bind_ok ends]; rfl, ?_⟩
  rw [begun]
  refine ⟨.pipeline kind (Store.follows_nil (.inr ⟨rests, rfl⟩)) casts.repeats_chain (by simp [Role.chain, Tower.height])
    ⟨by simp [Store.joined], by rw [here], listed, .null, by rw [here], among, same⟩,
    ⟨(grown.works []).touches, ⟨by simp, fun id member => .inr ?_⟩, fun k tape plays _ => ⟨?_, rests.not_heldBy⟩,
      fun id => Nat.le_of_eq (counted id).symm⟩, fun k owns => absurd owns List.not_mem_nil⟩
  · obtain rfl := List.mem_singleton.mp member
    exact enlarges.size
  · exact grown.grows.plays (Nat.le_of_eq (by rw [grown.cursors]))
      (by rw [Store.cursor, Store.cursor, grown.cursors]) plays

omit casts retains calls in
/-- A call is a new act, for which nothing was made. -/
theorem moves_call {u : SequenceId} (role : Role) (kind : role.kind = .call)
    (embodies : first.Embodies u role.multi role.steps .null) :
    Moves first store (fun _ => False) [] store (.call u role.data) (role.begun first) [] := by
  have begun : role.begun first = ⟨role, ⟨role.chain first, []⟩⟩ := by
    rw [Role.begun, kind]
  rw [begun]
  exact (Enacts.call kind embodies).stays

omit casts retains calls in
/-- A stream that was just made is a new act. -/
theorem moves_stream {u : SequenceId} (role : Role) (kind : role.kind = .stream)
    (embodies : first.Embodies u role.multi role.steps .null) :
    ∃ member after more,
      (do return .stream (← Run.newStream u role.data) : Run Member).from? store = (.ok member, after) ∧
      Moves first store (fun _ => False) [] after member (role.begun first) more := by
  let k : CursorId := ⟨store.cursors.size⟩
  let made : Store := { store with cursors := store.cursors.push (.streaming u role.data .fresh) }
  have grows : store.Grows made := (Store.spares_push store _ []).grows
  have still : ∀ other : CursorId, other.index < store.cursors.size → made.cursor other = store.cursor other :=
    fun _ inside => Store.cursor_push_of_lt inside
  have begun : role.begun first = ⟨role, ⟨role.chain first, [.fresh]⟩⟩ := by
    rw [Role.begun, kind]
  refine ⟨.stream k, made, [], rfl, ?_⟩
  rw [begun]
  refine ⟨.fresh kind embodies (Store.cursor_push ..), ⟨⟨grows, Nat.le_refl _, fun _ _ _ => rfl,
    fun other stream _ => still other (Store.inside_of_isStream stream)⟩, .refl store [], fun other tape plays _ =>
      ⟨grows.plays (by simp [made]) (still other plays.1) plays, by simp [Store.HeldBy]⟩, fun _ => Nat.le_refl _⟩,
    fun other owns => .inr ?_⟩
  obtain rfl : other = k := owns
  exact Bool.eq_false_iff.mpr fun stream => Nat.lt_irrefl _ (Store.inside_of_isStream stream)

end New

end FirstSeen
