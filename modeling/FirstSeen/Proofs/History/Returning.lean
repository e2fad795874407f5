import FirstSeen.Proofs.History.Beginning
import FirstSeen.Proofs.History.Keeping
import FirstSeen.Proofs.Remaining
import FirstSeen.Proofs.Tower.Resetting

/-!
# The beginning of a later pass

Whatever was done with a pipeline over raw data, whenever it is not started it is where a new pipeline over these data
would be: with nothing held, nothing seen, and an origin that is computed from the store as it is then. What the earlier
passes took from a factory or an iterator does matter for that origin, and for nothing else.
-/

set_option autoImplicit false

namespace FirstSeen

/-! ## Towers that are at their beginning again -/

namespace Tower

/-- The tower with each sequence at its beginning, over another origin. -/
def anew (origin : Origin) : Tower → Tower
  | ground _ _ => ground {} origin
  | passage _ below => passage {} (below.anew origin)
  | filter _ rule _ below => filter {} rule .empty (below.anew origin)

@[simp] theorem anew_withPass (origin : Origin) (tower : Tower) (pass : Pass) :
    (tower.withPass pass).anew origin = tower.anew origin := by
  cases tower <;> rfl

@[simp] theorem anew_filters (origin : Origin) (rules : List Rule) (below : Tower) :
    (filters rules below).anew origin = filters rules (below.anew origin) := by
  induction rules generalizing below with
  | nil => rfl
  | cons rule rest ih => exact ih (.filter {} rule .empty below)

theorem anew_finish (origin : Origin) (tower : Tower) : tower.finish.anew origin = tower.anew origin := by
  cases tower <;> rfl

theorem anew_settle (origin : Origin) (told : Draw) (tower : Tower) :
    (settle (told, tower)).2.anew origin = tower.anew origin := by
  cases told with
  | ok item => rfl
  | error fault =>
    simp only [settle]
    split
    · exact anew_finish origin tower
    · rfl

/-- Asking for an element changes only how far a tower is. -/
theorem anew_next {origin : Origin} {n : Nat} {tower left : Tower} {told : Draw}
    (ends : next n tower = some (told, left)) : left.anew origin = tower.anew origin := by
  refine (run_induction (R := fun tower _ left => left.anew origin = tower.anew origin)
    (S := fun tower _ left => left.anew origin = tower.anew origin) ?_ ?_ ?_ ?_ ?_ ?_ ?_ n).1 _ _ _ ends
  · exact fun _ _ _ => by simp
  · exact fun _ _ _ => rfl
  · intro tower told left _ _ same
    rw [anew_settle, same, begun, anew_withPass]
  · exact fun _ _ _ _ _ _ => rfl
  · exact fun _ _ _ _ same => congrArg (passage {}) same
  · exact fun _ rule _ _ _ _ same => congrArg (filter {} rule .empty) same
  · intro pass rule seen below item left same
    have kept : ∀ seen', (filter pass rule seen' left).anew origin = (filter pass rule seen below).anew origin :=
      fun _ => congrArg (filter {} rule .empty) same
    exact ⟨fun _ _ => kept _, fun _ => kept _, fun _ _ _ again => again.trans (kept _)⟩

/-- Taking a tower back changes only how far it is. -/
theorem anew_rewind (origin : Origin) (tower : Tower) : tower.rewind.2.anew origin = tower.anew origin := by
  induction tower with
  | ground pass inner =>
    rw [rewind]
    split <;> rfl
  | passage pass below ih =>
    rw [rewind]
    rcases rewinds : below.rewind with ⟨_ | fault, left⟩ <;> rw [rewinds] at ih <;> exact congrArg (passage {}) ih
  | filter pass rule seen below ih =>
    rw [rewind]
    rcases rewinds : below.rewind with ⟨_ | fault, left⟩ <;> rw [rewinds] at ih <;>
      exact congrArg (filter {} rule .empty) ih

/-- A tower that could be taken back is at its beginning. -/
theorem fresh_rewind {tower : Tower} (returns : tower.rewind.1 = none) : tower.rewind.2.Fresh := by
  induction tower with
  | ground pass origin =>
    rw [rewind] at returns ⊢
    rcases resets : origin.reset pass.started with ⟨_ | fault, left⟩ <;> rw [resets] at returns
    · refine ⟨rfl, ?_⟩
      rw [Origin.reset] at resets
      split at resets
      · cases resets
      · split at resets
        · split at resets <;> cases resets
          rfl
        · cases resets
          rfl
    · cases returns
  | passage pass below ih =>
    rw [rewind] at returns ⊢
    rcases rewinds : below.rewind with ⟨_ | fault, left⟩ <;> rw [rewinds] at returns ih
    · exact ⟨rfl, ih rfl⟩
    · cases returns
  | filter pass rule seen below ih =>
    rw [rewind] at returns ⊢
    rcases rewinds : below.rewind with ⟨_ | fault, left⟩ <;> rw [rewinds] at returns ih
    · exact ⟨rfl, rfl, ih rfl⟩
    · cases returns

/-- Whether a tower differs from another one only in how far it is, and is at its beginning unless it was started. -/
structure Repasses (start tower : Tower) : Prop where
  same : ∀ origin, tower.anew origin = start.anew origin
  idle : tower.pass.started = false → tower.Fresh

/-- Wherever a tower has come to, it is at its beginning again whenever it is not started. -/
theorem steady_repasses (start : Tower) : Steady (Repasses start) where
  next n tower told left repasses asked := by
    refine ⟨fun origin => (anew_next asked).trans (repasses.same origin), fun idle => ?_⟩
    obtain started | ⟨kept, busy⟩ := started_next asked
    · rw [started] at idle
      cases idle
    · rw [(repasses.idle (kept ▸ idle)).pass] at busy
      rcases busy with peeked | ⟨exhausted, -⟩
      · exact absurd rfl peeked
      · cases exhausted
  ahead n tower item left repasses peeked asked := by
    refine ⟨fun origin => by rw [anew_withPass, anew_next asked, repasses.same], fun idle => ?_⟩
    rw [pass_withPass] at idle
    obtain started | ⟨-, busy | ⟨-, ended⟩⟩ := started_next asked
    · rw [started] at idle
      cases idle
    · exact absurd peeked busy
    · cases ended
  rewind tower repasses := by
    refine ⟨fun origin => (anew_rewind origin tower).trans (repasses.same origin), fun idle => ?_⟩
    cases rewinds : tower.rewind.1 with
    | none => exact fresh_rewind rewinds
    | some fault =>
      rw [pass_rewind rewinds] at idle
      rw [(repasses.idle idle).rewind] at rewinds
      cases rewinds

end Tower

namespace Store

variable {D : Item → Prop} {aside : Option CursorId} {multi : Bool} {ground : Body} {keyAt : Nat → Value}

/-- A sequence that stands at its beginning stands so over any origin behind its data. -/
theorem Stands.anew {store : Store} {id : SequenceId} {ids : List SequenceId} {tower : Tower} {origin : Origin}
    (stands : store.Stands D aside multi id ids tower) (fresh : tower.Fresh)
    (linked : store.Linked ground keyAt none ids) (backs : store.Backs D aside ground origin)
    (free : origin.held = none) : store.Stands D aside multi id ids (tower.anew origin) := by
  induction stands with
  | ground passes flag _ =>
    obtain ⟨rfl, -⟩ := fresh
    refine .ground passes flag ?_
    rwa [show (store.sequence _).body = _ from linked, Option.map_none, backs.withFeed_none free]
  | passage passes body bound apart rest ih =>
    obtain ⟨rfl, fresh⟩ := fresh
    exact .passage passes body bound apart (ih fresh (linked.below rest).1)
  | filter passes flag body sound data rule_eq apart rest ih =>
    obtain ⟨rfl, rfl, fresh⟩ := fresh
    exact .filter passes flag body sound data rule_eq apart (ih fresh (linked.below rest).1)

/-- Stages that stand at their beginning are linked by the keys of their steps. -/
theorem Carries.linked {store : Store} {steps : List Value} {id : SequenceId} {ids : List SequenceId} {tower : Tower}
    (carries : store.Carries ground steps id) (base : ground.isGround) (stands : store.Stands D aside multi id ids tower)
    (fresh : tower.Fresh) (keys : ∀ j step, steps.reverse[j]? = some step → keyAt (j + 1) = store.keyOfStep step) :
    store.Linked ground keyAt none ids ∧ tower.height = steps.length + 1 := by
  induction steps generalizing id ids tower with
  | nil =>
    obtain ⟨-, shape⟩ := carries
    cases stands with
    | ground passes flag backs =>
      have held := backs.held
      rw [fresh.2] at held
      have empty : ∀ body : Body, body.isGround → store.HoldsFeed D aside body.feed none →
          body = body.shape.withFeed none := by
        intro body base held
        cases body with
        | iterable data feed | produced factory size feed =>
          cases feed with
          | none => rfl
          | some feed => cases feed <;> exact held.elim
        | _ => cases base
      exact ⟨shape ▸ empty _ backs.ground held, rfl⟩
    | passage passes body bound apart rest =>
      rw [body] at shape
      subst shape
      cases base
    | filter passes flag body sound data rule_eq apart rest =>
      rw [body] at shape
      subst shape
      cases base
  | cons step earlier ih =>
    obtain ⟨-, supply, limit, shape, below⟩ := carries
    have keys' : ∀ j other, earlier.reverse[j]? = some other → keyAt (j + 1) = store.keyOfStep other := by
      intro j other found
      obtain ⟨inside, -⟩ := List.getElem?_eq_some_iff.mp found
      refine keys j other ?_
      rw [List.reverse_cons, List.getElem?_append_left inside, found]
    cases stands with
    | ground passes flag backs =>
      have ground := backs.ground
      cases form : (store.sequence id).body with
      | distinct =>
        rw [form] at ground
        cases ground
      | _ =>
        rw [form] at shape
        cases shape
    | passage passes body bound apart rest =>
      rw [body] at shape
      cases shape
    | filter passes flag body sound data rule_eq apart rest =>
      rw [body] at shape
      cases shape
      obtain ⟨linked, high⟩ := ih below rest fresh.2.2 keys'
      refine ⟨linked.above rest fun supply key limit seen form => ?_, by rw [Tower.height, high, List.length_cons]⟩
      rw [body] at form
      cases form
      rw [high]
      refine keys _ step ?_
      rw [List.reverse_cons, List.getElem?_append_right (by simp)]
      simp

/-! ## Raw data later on -/

/-- What is kept aside for a tower is read by its iterator. -/
theorem Holds.kept {store : Store} {id : SequenceId} {tower : Tower} (holds : store.Holds D aside multi id tower) :
    ∃ tape, ∀ k, aside = some k → store.Plays D k tape := by
  obtain ⟨ids, stands⟩ | ⟨ids, rests, -⟩ := holds
  · induction stands with
    | ground passes flag backs => exact ⟨_, backs.kept⟩
    | passage passes body bound apart rest ih | filter passes flag body sound data rule_eq apart rest ih => exact ih
  · induction rests with
    | raw passes flag form bound lists taken backs free => exact ⟨_, backs.kept⟩
    | upon passes form apart lists fresh rest ih => exact ih

/-- An iterator that plays a tape can be read. -/
theorem Plays.readable {store : Store} {k : CursorId} {tape : Tape} (plays : store.Plays D k tape) :
    store.Readable (store.cursor k) := by
  obtain ⟨-, noStream, inside, -, -, -, script⟩ := plays
  refine ⟨noStream, inside, fun i event found => ?_⟩
  have tells := script i
  rw [found] at tells
  cases event with
  | value v =>
    cases told : tape.script i with
    | none => rw [told] at tells; exact tells.elim
    | some told' =>
      rw [told] at tells
      cases told' with
      | error fault => exact tells.elim
      | ok item => exact tells.data
  | made v =>
    cases told : tape.script i with
    | none => rw [told] at tells; exact tells.elim
    | some told' =>
      rw [told] at tells
      cases told' with
      | error fault => exact tells.elim
      | ok item => exact tells.1
  | fault fault => trivial

theorem Grows.offers {before after : Store} (grows : before.Grows after) {v : Value} (offers : before.Offers v) :
    after.Offers v := by
  cases v with
  | object ref =>
    cases ref with
    | source id =>
      intro cursor opened
      rw [show after.source id = before.source id by simp only [Store.source, grows.sources]] at opened
      exact (offers cursor opened).later grows
    | cursor id => trivial
    | key id => trivial
    | step id => trivial
    | _ => exact grows.isData offers
  | _ => exact grows.isData offers

theorem Grows.produces {before after : Store} (grows : before.Grows after) {factory : Value}
    (produces : before.Produces factory) : after.Produces factory := by
  cases factory with
  | object ref =>
    cases ref with
    | source id =>
      have same : after.source id = before.source id := by simp only [Store.source, grows.sources]
      simp only [Produces, same] at produces ⊢
      refine ⟨Nat.lt_of_lt_of_le produces.1 grows.meters, fun product found => ?_⟩
      have offers := produces.2 product found
      cases product with
      | value v => exact grows.offers offers
      | generator | walker => exact fun i event there => grows.sound (offers i event there)
      | items items => exact fun v member => grows.isData (offers v member)
      | shared k => trivial
    | key id => exact AnswersPurely.later produces grows
    | _ => exact produces.elim
  | _ => exact produces.elim

/-- What raw data keep aside, they keep aside later on. -/
theorem Raw.aside_later {first store : Store} {d : Value} (raw : first.Raw d) (grows : first.Grows store) :
    store.aside d = first.aside d := by
  have same : ∀ id, store.source id = first.source id := fun id => by simp only [Store.source, grows.sources]
  simp only [Store.aside, same, (raw.usable_later grows).1]

theorem Raw.groundBody_later {first store : Store} {d : Value} (raw : first.Raw d) (grows : first.Grows store) :
    store.groundBody d = first.groundBody d := by
  simp only [groundBody, (raw.usable_later grows).1]

/-- Data stay raw while what they keep aside can be read. -/
theorem Raw.later {first store : Store} {d : Value} (raw : first.Raw d) (grows : first.Grows store)
    (kept : ∀ id, first.aside d = some id → id.index < store.cursors.size ∧ store.Readable (store.cursor id)) :
    store.Raw d := by
  obtain ⟨iterable, callable⟩ := raw.usable_later grows
  refine ⟨by rw [iterable, callable]; exact raw.usable, fun given => grows.offers (raw.offers (iterable ▸ given)),
    fun given => grows.produces (raw.produces (iterable ▸ given)), fun id found => ?_⟩
  exact kept id (by rw [← raw.aside_later grows, found])

end Store

/-! ## Sessions -/

/-- An operation leaves what remains of a store. -/
theorem Op.led_run {c : Calls} {multi : Bool} {ground : Body} {steps : ListId} {d : Value} {q : SequenceId}
    (leads : c.Leads multi ground steps d q) (op : Op) (p : SequenceId) (streams : List CursorId) :
    (op.run c p streams).Keeps (Store.Led multi ground steps d q) := by
  cases op with
  | next => exact (leads.next p).bind fun _ => Run.keeps_pure _
  | peek =>
    refine Run.Keeps.bind ((Run.keeps_view _).bind fun state => ?_) fun _ => Run.keeps_pure _
    split
    · exact Run.keeps_pure _
    · exact (leads.next p).bind fun _ => (Run.led_updateSequence p _ (by exact fun _ => ⟨rfl, rfl⟩)).bind fun _ =>
        Run.keeps_pure _
  | rewind => exact (leads.rewind p).bind fun _ => Run.keeps_pure _
  | force => exact Run.Keeps.bind (leads.obeys.force p) fun _ => Run.keeps_pure _
  | collect => exact Run.Keeps.bind (leads.obeys.collect p .null) fun _ => Run.keeps_pure _
  | size => exact (leads.size p).bind fun _ => Run.keeps_pure _
  | multiValue => exact (leads.isMulti p).bind fun _ => Run.keeps_pure _
  | stream => exact (Run.led_newCursor _).bind fun _ => Run.keeps_pure _
  | pull i =>
    rw [Op.run]
    split
    · exact (leads.advance _).bind fun _ => Run.keeps_pure _
    · exact Run.keeps_pure _
  | drain i =>
    rw [Op.run]
    split
    · exact Run.Keeps.bind (leads.obeys.listOf _) fun _ => Run.keeps_pure _
    · exact Run.keeps_pure _

namespace Session

variable {multi : Bool} {ground : Body} {steps : ListId} {d : Value} {q : SequenceId}

theorem led_perform {n : Nat} {p : SequenceId} {op : Op} {session after : Session} {seen : Outcome}
    (ends : session.perform n p op = some (seen, after)) :
    Store.Led multi ground steps d q session.store after.store := by
  have led := Op.led_run (Calls.leads_calls multi ground steps d q n) op p session.streams session.store
  rw [perform] at ends
  rcases ran : (op.run (calls n) p session.streams).from? session.store with ⟨(fault | _) | ⟨answer, streams⟩, store⟩ <;>
    rw [ran] at ends led <;> cases ends <;> exact led

/-- Operations in turn leave what remains of a store. -/
theorem led_play {n : Nat} {p : SequenceId} {ops : List Op} {session after : Session} {outcomes : List Outcome}
    (ends : session.play n p ops = some (outcomes, after)) :
    Store.Led multi ground steps d q session.store after.store := by
  induction ops generalizing session outcomes with
  | nil =>
    cases ends
    exact refl_of (Store.Led multi ground steps d q) _
  | cons op rest ih =>
    rw [play] at ends
    rcases performed : session.perform n p op with _ | ⟨seen, between⟩
    · simp [performed] at ends
    · rcases played : between.play n p rest with _ | ⟨others, final⟩
      · simp [performed, played] at ends
      · simp only [performed, played, Option.some.injEq, Prod.mk.injEq] at ends
        obtain ⟨-, rfl⟩ := ends
        exact trans_of (Store.Led multi ground steps d q) (led_perform performed) (ih played)

end Session

namespace Store

/-- The keys of a list of steps, by the number of sequences below each of their stages. -/
def keyAt (store : Store) (steps : ListId) (height : Nat) : Value :=
  ((store.list steps).map store.keyOfStep).getD (height - 1) .null

theorem keyAt_succ {store : Store} {steps : ListId} {j : Nat} {step : Value}
    (found : (store.list steps)[j]? = some step) : store.keyAt steps (j + 1) = store.keyOfStep step := by
  simp [keyAt, found]

theorem SoundStep.isDistinct {D : Item → Prop} {store : Store} {multi : Bool} {step : Value}
    (sound : store.SoundStep D multi step) : store.IsDistinct step := by
  cases step with
  | object ref =>
    cases ref with
    | step s =>
      simp only [SoundStep] at sound
      cases found : store.step s <;> simp only [found] at sound
      exact ⟨s, _, _, rfl, found⟩
    | _ => exact sound.elim
  | _ => exact sound.elim

variable {store : Store} {p : SequenceId} {steps : ListId} {d : Value} {multi : Bool}

/-- A new pipeline was not built yet. -/
theorem NewPipeline.rooted (new : store.NewPipeline p steps d multi) :
    store.Rooted multi (store.groundBody d) steps d p := by
  obtain ⟨inside, state, listed, sound, raw⟩ := new
  refine ⟨inside, listed, fun step member => (sound step member).isDistinct, ?_,
    fun later grows => from?_toSequence raw multi grows, by rw [state], .null, by rw [state], .inl rfl⟩
  rw [groundBody]
  split <;> rfl

/-- Whenever a pipeline over raw data is not started, it is where a new one over these data would be. -/
theorem NewPipeline.again (new : store.NewPipeline p steps d multi) {n : Nat}
    (deep : 4 * (store.list steps).length + 10 ≤ n) {history : List Op} {outcomes : List Outcome} {session : Session}
    (played : (Session.mk store []).play n p history = some (outcomes, session))
    (unstarted : (session.store.sequence p).started = false) :
    session.store.Raw d ∧ session.store.list steps = store.list steps ∧
      session.store.Prepared Item.Plain (session.store.aside d) multi (session.store.groundBody d)
        (session.store.keyAt steps) none p (session.store.towerOf steps d multi) := by
  obtain ⟨left, told, follows⟩ := (Session.play_follows history new.follows (by simp only [height_towerOf]; omega)).some
    played
  have repasses := Scene.play_keeps (Tower.steady_repasses (store.towerOf steps d multi))
    ⟨fun _ => rfl, fun _ => store.fresh_towerOf steps d multi⟩ told
  have led : Led multi (store.groundBody d) steps d p store session.store := Session.led_play played
  obtain ⟨remains, rooted⟩ := led
  have grows := remains.grows
  have fresh := repasses.idle (by rw [← follows.holds.passes.started, unstarted])
  -- The data are raw as ever.
  obtain ⟨tape, kept⟩ := follows.holds.kept
  have raw : session.store.Raw d := new.raw.later grows fun id found => ⟨(kept id found).1, (kept id found).readable⟩
  have lists := grows.list new.listed
  have backs := backs_of_raw raw raw.within
  have ground := new.raw.groundBody_later grows
  have sound : ∀ step ∈ session.store.list steps, session.store.SoundStep Item.Plain multi step := by
    rw [lists]
    exact fun step member => (grows.soundStep (new.sound step member)).1
  obtain ⟨inside, listed, -, -, taken, flag, out, form, built⟩ := rooted new.rooted
  refine ⟨raw, lists, ?_⟩
  rcases built with none | ⟨top, rfl, carries⟩
  · obtain rfl : out = .null := by cases out <;> first | rfl | cases none
    have passes := follows.holds.passes
    rw [fresh.pass] at passes
    exact .inr ⟨rfl, steps, d, _, _, rfl, passes, flag, form, raw.bound, ⟨listed, sound, rfl⟩, ground ▸ taken, backs, rfl,
      fun j step found => keyAt_succ found⟩
  · rw [← new.raw.aside_later grows] at follows
    have holds := follows.holds
    have same := repasses.same (session.store.originOf d)
    generalize left.tower = tower at holds fresh same
    obtain ⟨ids, stands⟩ | ⟨ids, rests, -⟩ := holds
    · refine .inl ⟨ids, ?_⟩
      cases stands with
      | ground passes flag backs =>
        have ground := backs.ground
        rw [form] at ground
        cases ground
      | filter passes flag body sound data rule_eq apart rest =>
        rw [form] at body
        cases body
      | passage passes body bound apart rest =>
        rw [form] at body
        cases body
        rw [ground.symm] at carries
        have linked := (carries.linked backs.ground rest fresh.2 fun j step found => by
          rw [List.reverse_reverse] at found
          exact keyAt_succ found).1
        have above := linked.above rest fun supply key limit seen found => by
          rw [form] at found
          cases found
        refine ⟨?_, above⟩
        have stands' := Stands.anew (.passage passes form bound apart rest) fresh above backs rfl
        rw [same, towerOf, Tower.anew, Tower.anew_filters] at stands'
        have rules : (store.list steps).map (store.ruleOfStep multi) =
            (session.store.list steps).map (session.store.ruleOfStep multi) := by
          rw [lists]
          exact List.map_congr_left fun step member => ((grows.soundStep (new.sound step member)).2).symm
        rw [rules] at stands'
        exact stands'
    · cases rests with
      | raw passes flag form' bound lists taken backs free => rw [form] at form'; cases form'
      | upon passes form' apart lists fresh rest => rw [form] at form'; cases form'

end Store

end FirstSeen
