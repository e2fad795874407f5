import FirstSeen.Proofs.Tower.Holding
import FirstSeen.Proofs.Tower.Passing
import FirstSeen.Proofs.Tower.Tracing

/-!
# Building beneath nothing

The chain of a pipeline over raw data is built of new sequences, so that nothing beneath it changes: a pipeline that
was not built yet and one that was can be told apart by their sequences only. A pipeline is *prepared* if it stands as
a tower whose chain is linked, or waits to be built into one. Whatever is asked of a prepared pipeline does beneath it
what its tower lists, and leaves it prepared.
-/

set_option autoImplicit false

namespace FirstSeen

namespace Store

/-- The key of a step that removes duplicates. -/
def keyOfStep (store : Store) (step : Value) : Value :=
  match step with
  | .object (.step id) =>
    match store.step id with
    | .distinct key _ => key
    | _ => .null
  | _ => .null

/-- Whether a pipeline over data waits to be built, with a pass of its own, as filters on an origin. -/
structure Waits (D : Item → Prop) (aside : Option CursorId) (multi : Bool) (ground : Body) (keyAt : Nat → Value)
    (steps : ListId) (d : Value) (rules : List Rule) (origin : Origin) (store : Store) (p : SequenceId) (pass : Pass) :
    Prop where
  passes : store.Passes D p pass
  flag : (store.sequence p).multiValue = multi
  form : (store.sequence p).body = .pipeline steps d .null
  bound : d.isNull = false
  lists : store.Lists D multi steps rules
  taken : store.TakenFor multi d ground
  backs : store.Backs D aside ground origin
  free : origin.held = none
  keys : ∀ j step, (store.list steps)[j]? = some step → keyAt (j + 1) = store.keyOfStep step

variable {D : Item → Prop} {aside : Option CursorId} {multi : Bool} {ground : Body} {keyAt : Nat → Value}

/-- Applying a step to a chain puts a new stage on it. -/
theorem apply_joined {store : Store} {n : Nat} {id : SequenceId} {ids : List SequenceId} {tower : Tower}
    {step : Value} (stands : store.Stands D aside multi id ids tower) (sound : store.SoundStep D multi step)
    (deep : tower.height ≤ n) :
    ∃ state limit, ((calls (n + 1)).apply step (.ofSequence id)).from? store =
        (.ok (.ofSequence ⟨store.sequences.size⟩), store.joined state) ∧
      state.body = .distinct id (store.keyOfStep step) limit .empty ∧
      (store.joined state).Stands D aside multi ⟨store.sequences.size⟩ (⟨store.sequences.size⟩ :: ids)
        (.filter {} (store.ruleOfStep multi step) .empty tower) := by
  obtain ⟨s, key, limit, rfl, found, soundKey, data⟩ : ∃ s key limit, step = .object (.step s) ∧
      store.step s = .distinct key limit ∧ store.SoundKey D multi key ∧ store.IsData limit := by
    cases step with
    | object ref =>
      cases ref with
      | step s =>
        simp only [SoundStep] at sound
        cases found : store.step s <;> simp only [found] at sound
        exact ⟨s, _, _, rfl, found, sound⟩
      | _ => exact sound.elim
    | _ => exact sound.elim
  have rule : store.ruleOfStep multi (.object (.step s)) = store.ruleOf multi key limit := by
    simp only [ruleOfStep, found]
  have key' : store.keyOfStep (.object (.step s)) = key := by simp only [keyOfStep, found]
  refine ⟨{ body := .distinct id key limit .empty, multiValue := multi }, limit, ?_, by rw [key'], ?_⟩
  · change ((calls n).applyWith (.object (.step s)) (.ofSequence id)).from? store = _
    rw [Calls.applyWith, Run.from?_bind_ok (Run.from?_view ..), found]
    simp only [Calls.newDistinct, bind_assoc]
    rw [Run.from?_bind_ok (isMulti_stands stands deep)]
    rfl
  · rw [rule]
    exact stands_filter_joined stands soundKey data

/-- Applying steps in turn to a linked chain gives a linked chain, beneath which nothing has changed. -/
theorem applyAll_linked {store : Store} {n : Nat} {id : SequenceId} {ids : List SequenceId} {tower : Tower}
    {steps : List Value} (base : ground.isGround) (stands : store.Stands D aside multi id ids tower)
    (linked : store.Linked ground keyAt none ids) (sound : ∀ step ∈ steps, store.SoundStep D multi step)
    (keys : ∀ j step, steps[j]? = some step → keyAt (tower.height + j) = store.keyOfStep step)
    (deep : steps.length + tower.height ≤ n) :
    ∃ top more after, ((calls (n + 1)).applyAll steps (.ofSequence id)).from? store = (.ok (.ofSequence top), after) ∧
      after.Stands D aside multi top more (.filters (steps.map (store.ruleOfStep multi)) tower) ∧
      after.Linked ground keyAt none more ∧ after.beneath = store.beneath ∧
      store.sequences.size ≤ after.sequences.size ∧
      (∀ other, other.index < store.sequences.size → after.sequence other = store.sequence other) ∧
      ∀ other ∈ more, other ∈ ids ∨ store.sequences.size ≤ other.index := by
  induction steps generalizing store id ids tower with
  | nil => exact ⟨id, ids, store, rfl, stands, linked, rfl, Nat.le_refl _, fun _ _ => rfl, fun _ => .inl⟩
  | cons step rest ih =>
    simp only [List.length_cons] at deep
    obtain ⟨state, limit, ends, body, stands'⟩ := apply_joined stands (sound step List.mem_cons_self)
      (n := n) (by omega)
    have grows := grows_joined store state
    have size : (store.joined state).sequences.size = store.sequences.size + 1 := by simp [joined]
    have there := sequence_joined_new store state
    have inside := stands.inside
    have linked' : (store.joined state).Linked ground keyAt none (⟨store.sequences.size⟩ :: ids) := by
      refine (linked.spared base fun other member => sequence_joined (inside other member)).above
        (stands.spared (spares_joined store state inside)) fun supply key limit' seen form => ?_
      rw [there, body] at form
      cases form
      exact keys 0 step rfl
    have sound' : ∀ other ∈ rest, (store.joined state).SoundStep D multi other ∧
        (store.joined state).ruleOfStep multi other = store.ruleOfStep multi other := fun other member =>
      grows.soundStep (sound other (List.mem_cons_of_mem _ member))
    obtain ⟨top, more, after, ends', stands'', linked'', beneath, grown, others, new⟩ := ih stands' linked'
      (fun other member => (sound' other member).1) (fun j other found => by
        have key := keys (j + 1) other found
        rw [Tower.height, Nat.add_right_comm]
        exact key) (by rw [Tower.height]; omega)
    have rules : rest.map ((store.joined state).ruleOfStep multi) = rest.map (store.ruleOfStep multi) :=
      List.map_congr_left fun other member => (sound' other member).2
    rw [rules] at stands''
    refine ⟨top, more, after, ?_, stands'', linked'', beneath.trans rfl, by omega, fun other less => ?_,
      fun other member => ?_⟩
    · rw [Calls.applyAll, Run.from?_bind_ok ends]
      exact ends'
    · rw [others other (by omega), sequence_joined less]
    · rcases new other member with old | more
      · rcases List.mem_cons.mp old with rfl | old
        · exact .inr (Nat.le_refl _)
        · exact .inl old
      · exact .inr (by omega)

/-- A body without an iterator is what a sequence with none has. -/
theorem Backs.withFeed_none {store : Store} {origin : Origin} (backs : store.Backs D aside ground origin)
    (free : origin.held = none) : ground.withFeed none = ground := by
  have feed : ground.feed = none := by
    have holds := backs.held
    rw [free] at holds
    cases found : ground.feed with
    | none => rfl
    | some feed => rw [found] at holds; cases feed <;> exact holds.elim
  rw [← feed, withFeed_feed]

/-- The output of a pipeline that waits is built, beneath which nothing changes. -/
theorem Waits.outputOf {store : Store} {p : SequenceId} {pass : Pass} {steps : ListId} {d : Value}
    {rules : List Rule} {origin : Origin} (waits : store.Waits D aside multi ground keyAt steps d rules origin p pass)
    {n : Nat} (deep : rules.length + 2 ≤ n) :
    ∃ out ids built, ((calls n).outputOf p .null).from? store = (.ok (.ofSequence out), built) ∧
      (built.sequence p).body = .pipeline steps d (.ofSequence out) ∧
      built.Stands D aside multi p (p :: ids) (.passage pass (.filters rules (.ground {} origin))) ∧
      built.Linked ground keyAt none (p :: ids) ∧ built.beneath = store.beneath := by
  obtain ⟨passes, flag, form, bound, lists, taken, backs, free, keys⟩ := waits
  obtain ⟨n, rfl⟩ : ∃ k, n = k + 1 := ⟨n - 1, by omega⟩
  rw [lists.rules, List.length_map] at deep
  -- The data become the lowest sequence, and the steps filters on it.
  let state : SequenceState := { body := ground, multiValue := multi }
  have there := sequence_joined_new store state
  have grows := grows_joined store state
  have inside := passes.inside
  have stands : (store.joined state).Stands D aside multi ⟨store.sequences.size⟩ [⟨store.sequences.size⟩]
      (.ground {} origin) := stands_ground_joined backs
  have linked : (store.joined state).Linked ground keyAt none [⟨store.sequences.size⟩] := by
    change ((store.joined state).sequence ⟨store.sequences.size⟩).body = ground.withFeed none
    rw [there, backs.withFeed_none free]
  have sound : ∀ other ∈ store.list steps, (store.joined state).SoundStep D multi other ∧
      (store.joined state).ruleOfStep multi other = store.ruleOfStep multi other :=
    fun other member => grows.soundStep (lists.sound other member)
  obtain ⟨top, more, after, ends, stands', linked', beneath, size, others, new⟩ := applyAll_linked
    (n := n) backs.ground stands linked (fun other member => (sound other member).1)
    (fun j step found => by rw [Tower.height, Nat.add_comm]; exact keys j step found)
    (by rw [Tower.height]; omega)
  rw [List.map_congr_left fun other member => (sound other member).2, ← lists.rules] at stands'
  have joined : (store.joined state).sequences.size = store.sequences.size + 1 := by simp [Store.joined]
  have same : after.sequence p = store.sequence p := by rw [others p (by omega), sequence_joined inside]
  have apart : p ∉ more := by
    intro member
    rcases new p member with old | more
    · obtain rfl := List.mem_singleton.mp old
      exact absurd inside (Nat.lt_irrefl _)
    · omega
  have built : ((calls (n + 1)).buildFor p .null).from? store = (.ok (.ofSequence top), after) := by
    rw [from?_buildFor form bound, flag, Calls.build, Run.from?_bind_ok (taken store (.refl store))]
    change (Run.sequence ⟨store.sequences.size⟩ >>= _).from? (store.joined state) = _
    rw [Run.from?_bind_ok (Run.from?_sequence ..), there]
    exact ends
  -- The pipeline keeps it as its output.
  let keep := SequenceState.keeping (.ofSequence top)
  have inside' : p.index < after.sequences.size := by omega
  have here := sequence_updated (f := keep) inside'
  have kept : keep (after.sequence p) =
      { store.sequence p with body := .pipeline steps d (.ofSequence top) } := by
    rw [same]
    exact SequenceState.keeping_pipeline form
  rw [kept] at here
  have grows' : store.Grows (after.updated p keep) := by
    refine Grows.of_beneath (.refl store) ?_
    exact beneath.trans rfl
  have passes' : (after.updated p keep).Passes D p pass := by
    refine ⟨by simpa using inside', by rw [here, passes.started], by rw [here, passes.exhausted], ?_⟩
    rw [here]
    exact grows'.peeks passes.peeked
  have rest := stands'.spared (spares_updated (f := keep) apart)
  refine ⟨top, more, after.updated p keep, ?_, by rw [here], .passage passes' (by rw [here]) bound apart rest,
    (linked'.spared backs.ground fun other member => sequence_updated_ne fun same => apart (by
      rw [← same]
      exact member)).above rest
      fun supply key limit seen found => ?_, beneath.trans rfl⟩
  · rw [Calls.outputOf]
    simp only [Value.isNull, if_true]
    rw [Run.from?_bind_ok built]
    rfl
  · rw [here] at found
    cases found

/-- Whether a sequence stands as a tower with a linked chain that holds this iterator. -/
def Threads (D : Item → Prop) (aside : Option CursorId) (multi : Bool) (ground : Body) (keyAt : Nat → Value)
    (held : Option CursorId) (store : Store) (p : SequenceId) (tower : Tower) : Prop :=
  ∃ ids, store.Stands D aside multi p ids tower ∧ store.Linked ground keyAt held ids

/-- Whether a pipeline stands as a tower with a linked chain, or waits at its beginning to be built into one. -/
def Prepared (D : Item → Prop) (aside : Option CursorId) (multi : Bool) (ground : Body) (keyAt : Nat → Value)
    (held : Option CursorId) (store : Store) (p : SequenceId) (tower : Tower) : Prop :=
  store.Threads D aside multi ground keyAt held p tower ∨
    (held = none ∧ ∃ steps d rules origin, tower = .passage {} (.filters rules (.ground {} origin)) ∧
      store.Waits D aside multi ground keyAt steps d rules origin p {})

theorem Prepared.passes {store : Store} {p : SequenceId} {tower : Tower} {held : Option CursorId}
    (prepared : store.Prepared D aside multi ground keyAt held p tower) : store.Passes D p tower.pass := by
  rcases prepared with ⟨ids, stands, -⟩ | ⟨-, steps, d, rules, origin, rfl, waits⟩
  · exact stands.passes
  · exact waits.passes

/-- A pipeline that is not at its beginning was built. -/
theorem Prepared.threads {store : Store} {p : SequenceId} {tower : Tower} {held : Option CursorId}
    (prepared : store.Prepared D aside multi ground keyAt held p tower) (busy : tower.pass ≠ {}) :
    store.Threads D aside multi ground keyAt held p tower := by
  rcases prepared with threads | ⟨rfl, steps, d, rules, origin, rfl, waits⟩
  · exact threads
  · exact absurd rfl busy

/-- Whether a chain that was asked ended as a tower says, with a linked chain and the deeds that the tower lists. -/
structure Took (D : Item → Prop) (aside : Option CursorId) (multi : Bool) (ground : Body) (keyAt : Nat → Value)
    (held : Option CursorId) (store : Store) (p : SequenceId) (deeds : List Deed) (told : Draw) (left : Tower)
    (ending : Except Halt Value × Store) : Prop where
  delivers : ending.2.Delivers D ending.1 told
  awake : ending.2.Awake D aside multi p left
  grows : store.Grows ending.2
  takes : ∃ held', Tap.Leads ground.opener multi keyAt ⟨store, held⟩ deeds ⟨ending.2, held'⟩ ∧
    (NoEnd told → ending.2.Threads D aside multi ground keyAt held' p left)

/-- What stands after a traced call is prepared. -/
theorem Traced.took {store : Store} {p : SequenceId} {ids : List SequenceId} {held : Option CursorId}
    {deeds : List Deed} {told : Draw} {left : Tower} {ending : Except Halt Value × Store}
    (traced : store.Traced ground multi keyAt ids held deeds told ending.2)
    (ended : store.EndsAs D aside multi p ids ending (some (told, left))) :
    store.Took D aside multi ground keyAt held p deeds told left ending := by
  obtain ⟨delivers, stands, works⟩ := ended
  obtain ⟨held', leads, linked⟩ := traced
  exact ⟨delivers, ⟨ids, stands⟩, works.grows, held', leads, fun noEnd => ⟨ids, stands, linked noEnd⟩⟩

/-- Asking a pipeline that is prepared takes what surfaces of its tower. -/
theorem next_prepared {first store : Store} {p : SequenceId} {tower : Tower} {held : Option CursorId} {n : Nat}
    (grounds : first.Grounds ground) (grows : first.Grows store)
    (prepared : store.Prepared D aside multi ground keyAt held p tower) (calm : tower.Calm) (deep : 4 * tower.height ≤ n) :
    match tower.next n with
    | none => (((calls n).next p).from? store).1 = .error .outOfFuel
    | some (told, left) => ∃ deeds, Tower.Surfaces tower deeds told left ∧
        store.Took D aside multi ground keyAt held p deeds told left (((calls n).next p).from? store) := by
  rcases prepared with ⟨ids, stands, linked⟩ | ⟨rfl, steps, d, rules, origin, rfl, waits⟩
  · have asked := next_stands n stands
    cases asks : tower.next n with
    | none =>
      rw [asks] at asked
      exact asked
    | some pair =>
      obtain ⟨told, left⟩ := pair
      rw [asks] at asked
      obtain ⟨deeds, surfaces, traced⟩ := (next_pull_traced grounds n).1 store p ids tower left held told grows stands
        calm linked asks
      exact ⟨deeds, surfaces, traced.took asked⟩
  · -- The pipeline is built once it is started, and then pulled from as one that was built before.
    simp only [Tower.height, Tower.height_filters] at deep
    obtain ⟨n, rfl⟩ : ∃ k, n = k + 2 := ⟨n - 2, by omega⟩
    have there := sequence_updated (f := fun state : SequenceState => { state with started := true }) waits.passes.inside
    have begins := grows_updated store p fun state : SequenceState => { state with started := true }
    have waits' : (store.updated p fun state => { state with started := true }).Waits D aside multi ground keyAt steps d
        rules origin p { started := true } :=
      ⟨waits.passes.begun, by rw [there, waits.flag], by rw [there, waits.form], waits.bound, waits.lists.later begins,
        fun later more => waits.taken later (begins.trans more),
        waits.backs.later begins (fun _ _ => rfl) (Nat.le_refl _) fun _ _ _ => rfl, waits.free, waits.keys⟩
    obtain ⟨out, ids, built, ends, body, stands, linked, beneath⟩ := waits'.outputOf (n := n) (by omega)
    have asked := from?_next_unbuilt waits.passes waits.form ends body
    have ended := (next_pull_stands (n + 1)).2 _ _ _ _ stands
    have same : built.beneath = store.beneath := beneath.trans rfl
    have grows' : first.Grows built := grows.of_beneath same
    rw [asked, Tower.next]
    simp only [Tower.pass, Bool.false_eq_true, if_false]
    have settled := settle_stands ended
    change match ((Tower.passage { started := true } (.filters rules (.ground {} origin))).pull (n + 1)).map
      Tower.settle with | none => _ | some (told, left) => _
    cases pulls : (Tower.passage { started := true } (.filters rules (.ground {} origin))).pull (n + 1) with
    | none =>
      rw [pulls] at settled
      exact settled
    | some pair =>
      obtain ⟨told, left⟩ := pair
      rw [pulls] at settled ended
      have calm' : (Tower.passage { started := true } (.filters rules (.ground {} origin))).Calm := calm
      obtain ⟨deeds, surfaces, traced⟩ := (next_pull_traced grounds (n + 1)).2 built p (p :: ids) _ left none told
        grows' stands calm' rfl linked pulls
      obtain ⟨last, settles⟩ : ∃ last, Tower.settle (told, left) = (told, last) :=
        ⟨_, Prod.ext (by cases told <;> rfl) rfl⟩
      rw [Option.map_some, settles] at settled
      rw [settles] at surfaces
      simp only [Option.map_some, settles]
      obtain ⟨delivers, awake, grown, held', leads, threads⟩ := (traced.settled ended.1).took settled
      refine ⟨deeds, Tower.surfaces_begun.mp surfaces, delivers, awake,
        (Grows.of_beneath (.refl store) same).trans grown, held', ?_, threads⟩
      exact fun other before => leads other (before.trans same.symm)

/-- A question that a pipeline passes on to its output can be asked of one that was built before. -/
theorem Prepared.woken {store : Store} {p : SequenceId} {tower : Tower} {held : Option CursorId} {n : Nat}
    (prepared : store.Prepared D aside multi ground keyAt held p tower) (deep : 4 * tower.height ≤ n) :
    ∃ built, built.Threads D aside multi ground keyAt held p tower ∧ built.beneath = store.beneath ∧
      ((calls n).size p).from? store = ((calls n).size p).from? built ∧
      ((calls n).isMulti p).from? store = ((calls n).isMulti p).from? built := by
  rcases prepared with threads | ⟨rfl, steps, d, rules, origin, rfl, waits⟩
  · exact ⟨store, threads, rfl, rfl, rfl⟩
  · simp only [Tower.height, Tower.height_filters] at deep
    obtain ⟨n, rfl⟩ : ∃ k, n = k + 1 := ⟨n - 1, by omega⟩
    obtain ⟨out, ids, built, ends, body, stands, linked, beneath⟩ := waits.outputOf (n := n) (by omega)
    exact ⟨built, ⟨p :: ids, stands, linked⟩, beneath, from?_questions_unbuilt waits.form waits.bound ends body⟩

/-- Asking for size changes nothing beneath a pipeline. -/
theorem size_prepared {store : Store} {p : SequenceId} {tower : Tower} {held : Option CursorId} {n : Nat}
    (prepared : store.Prepared D aside multi ground keyAt held p tower) (deep : 4 * tower.height ≤ n) :
    ∃ after, ((calls n).size p).from? store = (tower.size.mapError Halt.fault, after) ∧
      after.Threads D aside multi ground keyAt held p tower ∧ after.beneath = store.beneath := by
  obtain ⟨built, ⟨ids, stands, linked⟩, beneath, size, -⟩ := prepared.woken deep
  exact ⟨built, size.trans (size_stands stands (by omega)), ⟨ids, stands, linked⟩, beneath⟩

/-- Asking whether elements are taken apart changes nothing beneath a pipeline. -/
theorem isMulti_prepared {store : Store} {p : SequenceId} {tower : Tower} {held : Option CursorId} {n : Nat}
    (prepared : store.Prepared D aside multi ground keyAt held p tower) (deep : 4 * tower.height ≤ n) :
    ∃ after, ((calls n).isMulti p).from? store = (.ok multi, after) ∧
      after.Threads D aside multi ground keyAt held p tower ∧ after.beneath = store.beneath := by
  obtain ⟨built, ⟨ids, stands, linked⟩, beneath, -, flag⟩ := prepared.woken deep
  exact ⟨built, flag.trans (isMulti_stands stands (by omega)), ⟨ids, stands, linked⟩, beneath⟩

/-- Changing where the pass of the topmost sequence is leaves its chain linked. -/
theorem Threads.repass {store : Store} {p : SequenceId} {tower : Tower} {held : Option CursorId}
    {f : SequenceState → SequenceState} (pass : Pass) (base : ground.isGround)
    (threads : store.Threads D aside multi ground keyAt held p tower)
    (body : ∀ state, (f state).body = state.body) (flag : ∀ state, (f state).multiValue = state.multiValue)
    (passes : (store.updated p f).Passes D p pass) :
    (store.updated p f).Threads D aside multi ground keyAt held p (tower.withPass pass) := by
  obtain ⟨ids, stands, linked⟩ := threads
  exact ⟨ids, stands.repass pass body flag passes, linked.updated base body⟩

end Store

end FirstSeen
