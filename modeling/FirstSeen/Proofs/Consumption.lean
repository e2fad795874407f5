import FirstSeen.Proofs.Ending
import FirstSeen.Proofs.History.Consuming
import FirstSeen.Proofs.History.Returning
import FirstSeen.Proofs.Idling

/-!
# What a pipeline takes from its source

A pipeline of distinct stages over raw data takes nothing until it is asked for an element. In a pass, the source is
then moved on up to the last element that was told, and once more when the end was met, and each stage asks for the key
of each element that gets to it, once and in order. This holds for every pass, wherever the store has come to by then.
-/

set_option autoImplicit false

namespace FirstSeen

namespace Tower

variable (rules : List Rule) (below : Tower)

@[simp] theorem source_filters : (filters rules below).source = below.source := by
  induction rules generalizing below with
  | nil => rfl
  | cons rule rest ih => exact ih (.filter {} rule .empty below)

@[simp] theorem stages_filters :
    (filters rules below).stages = below.stages ++ rules.map fun rule => ⟨rule, .empty⟩ := by
  induction rules generalizing below with
  | nil => exact (List.append_nil _).symm
  | cons rule rest ih =>
    refine (ih (.filter {} rule .empty below)).trans ?_
    rw [stages, List.append_assoc]
    rfl

@[simp] theorem heights_filters :
    (filters rules below).heights = below.heights ++ (List.range rules.length).map (below.height + ·) := by
  induction rules generalizing below with
  | nil => exact (List.append_nil _).symm
  | cons rule rest ih =>
    refine (ih (.filter {} rule .empty below)).trans ?_
    rw [heights, List.append_assoc, List.length_cons, List.range_succ_eq_map, List.map_cons, List.map_map]
    refine congrArg (fun more => below.heights ++ below.height :: more) (List.map_congr_left fun j _ => ?_)
    rw [height, Function.comp_apply, Nat.succ_eq_add_one]
    omega

/-- A tower at its beginning is calm. -/
theorem Fresh.calm {tower : Tower} (fresh : tower.Fresh) : tower.Calm := by
  induction tower with
  | ground pass origin =>
    obtain ⟨rfl, -⟩ := fresh
    exact ⟨rfl, rfl⟩
  | passage pass below ih =>
    obtain ⟨rfl, fresh⟩ := fresh
    exact ⟨⟨rfl, rfl⟩, ih fresh⟩
  | filter pass rule seen below ih =>
    obtain ⟨rfl, -, fresh⟩ := fresh
    exact ⟨⟨rfl, rfl⟩, ih fresh⟩

end Tower

namespace Store

/-- The stages that a list of steps makes, which have seen nothing yet. -/
def stagesOf (store : Store) (steps : ListId) (multi : Bool) : List Stage :=
  (store.list steps).map fun step => ⟨store.ruleOfStep multi step, .empty⟩

/-- The keys of a list of steps. -/
def keysOf (store : Store) (steps : ListId) : List Value := (store.list steps).map store.keyOfStep

variable {store : Store} {steps : ListId} {d : Value} {multi : Bool}

theorem stages_towerOf : (store.towerOf steps d multi).stages = store.stagesOf steps multi := by
  rw [towerOf, Tower.stages, Tower.stages_filters, stagesOf, List.map_map]
  rfl

theorem source_towerOf : (store.towerOf steps d multi).source = (store.originOf d).current := by
  rw [towerOf, Tower.source, Tower.source_filters, Tower.source]

/-- Each stage of a pipeline judges by the key of its step. -/
theorem heights_towerOf : (store.towerOf steps d multi).heights.map (store.keyAt steps) = store.keysOf steps := by
  rw [towerOf, Tower.heights, Tower.heights_filters, Tower.heights, List.nil_append, List.map_map, List.length_map]
  refine List.ext_getElem (by simp [keysOf]) fun j inside inside' => ?_
  simp only [List.length_map, List.length_range] at inside
  simp [keyAt, keysOf, Tower.height, inside]

/-- The stages and the keys of a pipeline stay what they are. -/
theorem Grows.stagesOf {later : Store} (grows : store.Grows later) (listed : steps.index < store.lists.size)
    (sound : ∀ step ∈ store.list steps, store.SoundStep Item.Plain multi step) :
    later.stagesOf steps multi = store.stagesOf steps multi := by
  rw [Store.stagesOf, Store.stagesOf, grows.list listed]
  exact List.map_congr_left fun step member => by rw [(grows.soundStep (sound step member)).2]

theorem Grows.keysOf {later : Store} (grows : store.Grows later) (listed : steps.index < store.lists.size) :
    later.keysOf steps = store.keysOf steps := by
  rw [Store.keysOf, Store.keysOf, grows.list listed]
  refine List.map_congr_left fun step _ => ?_
  have same : ∀ id, later.step id = store.step id := fun id => by simp only [Store.step, grows.steps]
  simp only [keyOfStep, same]

/-- An origin that holds a tape opens an iterator that is no stream. -/
theorem Backs.opensCursor {D : Item → Prop} {aside : Option CursorId} {ground : Body} {origin : Origin} {tape : Tape}
    (backs : store.Backs D aside ground origin) (free : origin.held = none) (current : origin.current = some tape) :
    ∃ k opened, ground.opener.from? store = (.ok (.cursor k), opened) ∧ (opened.cursor k).isStream = false := by
  obtain ⟨opened, ⟨extends', opens⟩, -⟩ := backs.opens store 0 (.refl store) fun _ _ => rfl
  rw [Origin.current, free] at current
  rcases starts : origin.openings 0 with fault | ⟨tape' | -⟩ <;> rw [starts] at opens current
  · cases current
  · obtain ⟨k, opens, -, plays⟩ := opens
    exact ⟨k, opened, opens, plays.2.noStream⟩
  · obtain ⟨k, opens, kept⟩ := opens
    obtain ⟨inside, plays⟩ := backs.kept k kept
    exact ⟨k, opened, opens, by rw [extends'.cursors k inside]; exact plays.noStream⟩

end Store

/-- What was taken of a source counts for each store that differs in sequences and the journal only. -/
theorem Tap.Apart.of_beneath {store other after : Store} {asked : KeyId → List (List Value)}
    (apart : Apart store other asked) (same : after.beneath = store.beneath) : Apart after other asked := by
  have keys : after.beneath.keys = store.beneath.keys := congrArg Store.keys same
  change after.keys = store.keys at keys
  refine ⟨(Store.outside_of_beneath same).trans apart.outside, by rw [keys]; exact apart.many, fun id inside => ?_⟩
  rw [Store.key, keys]
  exact apart.histories id inside

/-! ## What was taken in a pass -/

/-- What single operations with these outcomes took in a pass that began in a store, over data whose tape, stages and
keys these are: the elements up to the last one that was told, or all of them. -/
structure PassTook (start : Store) (d : Value) (multi : Bool) (tape : Tape) (stages : List Stage) (keys : List Value)
    (n : Nat) (p : SequenceId) (ops : List Op) (outcomes : List Outcome) (after : Session) (items : List Item)
    (last : Tape) : Prop where
  reaches : tape.Reaches items last
  /-- What was told is what the stages tell of the elements. -/
  pulled : pulls false ops outcomes = (Stage.told stages items).map (Except.map Item.contents)
  /-- A pass is over when an operation met the end. -/
  spent : (after.store.sequence p).exhausted = true ↔ MetEnd ops outcomes
  /-- Until then fewer elements would not have been enough. -/
  needed : (after.store.sequence p).exhausted = false →
    ∀ k < items.length, (Stage.told stages (items.take k)).length < (Stage.told stages items).length
  ended : (after.store.sequence p).exhausted = true → last.Ended
  /-- The source was opened once and moved on once for each element, and once more at the end, and each key function
  was asked once for each element that got to its stage. -/
  source : Tap.Apart after.store
    (start.consumed d (items.length + if (after.store.sequence p).exhausted then 1 else 0))
    fun id => Stage.asked multi keys id stages items
  /-- What was looked at ahead is handed out. -/
  ahead : ∀ v, (after.store.sequence p).peeked = some v → ∀ op : Op, op.wants = true → ∀ m, ∃ seen later,
    after.perform (m + 1) p op = some (seen, later) ∧ seen.answer = .ok (.element (after.store.contents v))
  /-- Otherwise an element is told exactly if one gets through the stages before anything else is told of. -/
  gives : (after.store.sequence p).peeked = none → ∀ op : Op, op.wants = true → ∀ v,
    (∃ m seen later, n ≤ m ∧ after.perform m p op = some (seen, later) ∧ seen.answer = .ok (.element v)) ↔
      ∃ more moved item others, last.Reaches more moved ∧ item.contents = v ∧
        Stage.told (Stage.sieveAll stages items) more = .ok item :: others
  /-- The end is signalled exactly if the source comes to its end and nothing is told of what it still has. -/
  ends : (after.store.sequence p).peeked = none → ∀ op : Op, op.wants = true →
    ((∃ m seen later, n ≤ m ∧ after.perform m p op = some (seen, later) ∧ seen.answer = .error .ended) ↔
      ∃ more final, last.Reaches more final ∧ final.Ended ∧ Stage.told (Stage.sieveAll stages items) more = [])

/-- An element that is ahead is handed out at any depth. -/
theorem Session.perform_ahead {session : Session} {p : SequenceId} {op : Op} {v : Value}
    (ahead : (session.store.sequence p).peeked = some v) (wants : op.wants = true) (m : Nat) :
    ∃ seen later, session.perform (m + 1) p op = some (seen, later) ∧
      seen.answer = .ok (.element (session.store.contents v)) := by
  cases op with
  | next =>
    have next : ((calls (m + 1)).next p).from? session.store =
        (.ok v, session.store.updated p fun state => { state with peeked := none }) := by
      change ((calls m).nextWith p).from? session.store = _
      rw [Calls.nextWith, Run.from?_bind_ok (Run.from?_sequence ..), ahead]
      rfl
    rw [Session.perform_element ((calls (m + 1)).next p) rfl, next]
    exact ⟨_, _, rfl, congrArg (fun v => Except.ok (Answer.element v))
      (Store.contents_of_beneath (session.store.updated p fun state => { state with peeked := none }) session.store rfl v)⟩
  | peek =>
    have peek : ((calls (m + 1)).peek p).from? session.store = (.ok v, session.store) := by
      rw [Calls.peek, Run.from?_bind_ok (Run.from?_sequence ..), ahead]
      rfl
    rw [Session.perform_element ((calls (m + 1)).peek p) rfl, peek]
    exact ⟨_, _, rfl, rfl⟩
  | _ => cases wants

/-- What the deeds of a pass over data took. -/
theorem Intake.Leads.apart {E : Item → Prop} {intake : Intake E} {d : Value} {deeds : List Deed}
    {held : Option CursorId} {after : Store} (leads : intake.Leads deeds held after)
    (ground : intake.ground = intake.store.groundBody d)
    (opens : ∃ k opened, intake.ground.opener.from? intake.store = (.ok (.cursor k), opened) ∧
      (opened.cursor k).isStream = false)
    (first : ∀ deed, deeds.head? = some deed → deed.isDraw) :
    Tap.Apart after (intake.store.consumed d (deeds.countP Deed.isDraw)) fun id =>
      deeds.filterMap (Deed.asks intake.multi intake.keyAt id) := by
  obtain ⟨k, opened, opens, noStream⟩ := opens
  have leads := (leads intake.store rfl).1
  rw [ground] at opens leads
  exact (Tap.after_consumed opens noStream deeds first).of_beneath leads.symm

namespace Store.NewPipeline

variable {store : Store} {p : SequenceId} {steps : ListId} {d : Value} {multi : Bool}

/-- The operations of any pass take from the source what they tell and no more. -/
theorem passTook (new : store.NewPipeline p steps d multi)
    (tame : ∀ step ∈ store.list steps, store.TameStep multi step) {n : Nat}
    (deep : 4 * (store.list steps).length + 10 ≤ n) {history : List Op} {earlier : List Outcome} {session : Session}
    (played : (Session.mk store []).play n p history = some (earlier, session))
    (unstarted : (session.store.sequence p).started = false) {tape : Tape}
    (current : (session.store.originOf d).current = some tape) (free : tape.ErrorFree)
    (within : tape.Within fun item => item.contents.Tame) {ops : List Op} (single : ∀ op ∈ ops, op.isSingle = true)
    {outcomes : List Outcome} {after : Session} (ends : session.play n p ops = some (outcomes, after)) :
    ∃ items last, PassTook session.store d multi tape (store.stagesOf steps multi) (store.keysOf steps) n p ops outcomes
      after items last := by
  obtain ⟨raw, lists, prepared⟩ := new.again deep played unstarted
  have led : Led multi (store.groundBody d) steps d p store session.store := Session.led_play played
  have grows := led.1.grows
  have backs := backs_of_raw raw raw.within
  have fresh := session.store.fresh_towerOf steps d multi
  have stages : (session.store.towerOf steps d multi).stages = store.stagesOf steps multi :=
    stages_towerOf.trans (grows.stagesOf new.listed new.sound)
  have keys : (session.store.towerOf steps d multi).heights.map (session.store.keyAt steps) = store.keysOf steps :=
    heights_towerOf.trans (grows.keysOf new.listed)
  let intake : Intake fun item => item.contents.Tame :=
    { store := session.store
      tower := session.store.towerOf steps d multi
      tape := tape
      ground := session.store.groundBody d
      keyAt := session.store.keyAt steps
      multi := multi
      grounds := ⟨backs.ground, fun later grown => raw.blindAt_opener grown⟩
      draws := ⟨fresh.calm, source_towerOf.trans current, free, within, by
        rw [stages, Store.stagesOf]
        intro stage member
        obtain ⟨step, there, rfl⟩ := List.mem_map.mp member
        exact ⟨tame_ruleOfStep (new.sound step there) (tame step there), Seen.tame_empty⟩⟩ }
  have high : 4 * intake.tower.height ≤ n := by
    change 4 * (session.store.towerOf steps d multi).height ≤ n
    rw [height_towerOf, lists]
    omega
  have begins : intake.Going Item.Plain (session.store.aside d) p session.store intake.tower [] tape :=
    Intake.begins prepared
  obtain ⟨left, items, last, taken, pulled, exhausted⟩ := Intake.Taken.play (.inl begins) single high ends
  rw [List.nil_append] at taken
  have passes := taken.passes
  have spent : (after.store.sequence p).exhausted = left.pass.exhausted := passes.exhausted
  have unpeeked : (after.store.sequence p).peeked = none → left.pass.peeked = none := by
    intro none
    rcases Intake.peeked_of_passes passes with ⟨unpeeked, -⟩ | ⟨item, v, -, held, -⟩
    · exact unpeeked
    · rw [none] at held
      cases held
  have opens := backs.opensCursor rfl current
  -- Each element was drawn once, and judged by the stages that it got to.
  have took : ∀ (more : List Deed) (held : Option CursorId),
      intake.Leads (Stage.deeds intake.tower.heights intake.tower.stages items ++ more) held after.store →
      (∀ deed ∈ more, deed = .drew) → Tap.Apart after.store (session.store.consumed d (items.length + more.length))
        fun id => Stage.asked multi (store.keysOf steps) id (store.stagesOf steps multi) items := by
    intro more held leads draws
    have apart := leads.apart (d := d) rfl opens
      (Stage.head_deeds _ _ _ more fun deed head => by rw [draws deed (List.mem_of_mem_head? head)]; rfl)
    have count : more.countP Deed.isDraw = more.length :=
      List.countP_eq_length.mpr fun deed member => by rw [draws deed member]; rfl
    have silent : ∀ id, more.filterMap (Deed.asks multi (session.store.keyAt steps) id) = [] := fun id =>
      List.filterMap_eq_nil_iff.mpr fun deed member => by rw [draws deed member]; rfl
    rw [List.countP_append, Stage.countP_deeds, count] at apart
    refine ⟨apart.outside, apart.many, fun id inside => (apart.histories id inside).trans ?_⟩
    rw [List.filterMap_append, silent, List.append_nil, Stage.filterMap_deeds keys, stages]
  change _ = (Stage.told (session.store.towerOf steps d multi).stages items).map _ at pulled
  rw [stages] at pulled
  refine ⟨items, last, taken.elim (·.reaches) (·.reaches), pulled, ?_, ?_, ?_, ?_,
    fun v held op wants m => Session.perform_ahead held wants m, fun none op wants => ?_, fun none op wants => ?_⟩
  · rw [spent, exhausted]
    exact or_iff_right Bool.false_ne_true
  · intro ongoing
    rcases taken with going | finished
    · exact stages ▸ going.settled
    · rw [spent, finished.exhausted] at ongoing
      cases ongoing
  · intro finished
    rcases taken with going | over'
    · rw [spent, going.going] at finished
      cases finished
    · exact over'.ended
  · rcases taken with going | finished
    · obtain ⟨held, -, leads⟩ := going.takes
      rw [spent, going.going]
      exact took [] held (by rwa [List.append_nil]) (by rintro _ ⟨⟩)
    · obtain ⟨held, leads⟩ := finished.takes
      rw [spent, finished.exhausted]
      exact took [.drew] held leads fun _ member => List.mem_singleton.mp member
  · exact stages ▸ (taken.ahead (unpeeked none) wants high).1
  · exact stages ▸ (taken.ahead (unpeeked none) wants high).2

end Store.NewPipeline

/-- Making and joining steps and pipelines, binding them to data, building them, asking for size or for the flag and
beginning again take no element, open no iterator and ask no key function. In any pass of a pipeline over raw data, the
source is moved on just up to the last element that was told, or once past its last one when the end was met. -/
theorem takes_what_it_tells {store : Store} {p : SequenceId} {steps : ListId} {d : Value} {multi : Bool}
    (new : store.NewPipeline p steps d multi) (tame : ∀ step ∈ store.list steps, store.TameStep multi step) {n : Nat}
    (deep : 4 * (store.list steps).length + 10 ≤ n) :
    ((∀ m, (calls m).Idle ∧ ∀ q kept, ((calls m).outputOf q kept).Idle) ∧
      (∀ key limit, (Run.newDistinctStep key limit).Idle) ∧
      (∀ parts input flag, (Run.newPipeline parts input flag).Idle) ∧
      (∀ left right, (Run.join left right).Idle) ∧ (∀ first second, (Run.joinThen first second).Idle) ∧
      ∀ v data flag, (Run.withInput v data flag).Idle) ∧
    ∀ (history : List Op) (earlier : List Outcome) (session : Session),
      (Session.mk store []).play n p history = some (earlier, session) →
      (session.store.sequence p).started = false →
      ∀ tape, (session.store.originOf d).current = some tape → tape.ErrorFree →
        (tape.Within fun item => item.contents.Tame) →
        ∀ (ops : List Op) (outcomes : List Outcome) (after : Session), (∀ op ∈ ops, op.isSingle = true) →
          session.play n p ops = some (outcomes, after) →
          ∃ items last, PassTook session.store d multi tape (store.stagesOf steps multi) (store.keysOf steps) n p ops
            outcomes after items last := by
  refine ⟨⟨fun m => ⟨Calls.idle_calls m, Calls.idle_outputOf (Calls.idle_calls m)⟩, Run.idle_newDistinctStep,
    Run.idle_newPipeline, Run.idle_join, Run.idle_joinThen, Run.idle_withInput⟩, ?_⟩
  intro history earlier session played unstarted tape current free within ops outcomes after single ends
  exact new.passTook tame deep played unstarted current free within single ends

/-- The second pass over a list with a duplicate, up to its end. -/
theorem takes_what_it_tells_list :
    ∃ earlier session outcomes after items last,
      (Session.mk (.sample (.object (.list ⟨1⟩))) []).play 14 ⟨0⟩ [.next, .rewind] = some (earlier, session) ∧
      session.play 14 ⟨0⟩ [.next, .peek, .size, .next, .next] = some (outcomes, after) ∧
      (after.store.sequence ⟨0⟩).exhausted = true ∧
      PassTook session.store (.object (.list ⟨1⟩)) false (session.store.tapeOf (.listing ⟨1⟩ 0 false))
        ((Store.sample (.object (.list ⟨1⟩))).stagesOf ⟨0⟩ false) [.null] 14 ⟨0⟩ [.next, .peek, .size, .next, .next]
        outcomes after items last := by
  have evaluated : ((Session.mk (.sample (.object (.list ⟨1⟩))) []).play 14 ⟨0⟩ [.next, .rewind]).bind (fun played =>
      (played.2.play 14 ⟨0⟩ [.next, .peek, .size, .next, .next]).map fun passed =>
        ((played.2.store.sequence ⟨0⟩).started, (passed.2.store.sequence ⟨0⟩).exhausted)) = some (false, true) := by
    decide +kernel
  obtain ⟨⟨earlier, session⟩, played, passed⟩ := Option.bind_eq_some_iff.mp evaluated
  obtain ⟨⟨outcomes, after⟩, passed, flags⟩ := Option.map_eq_some_iff.mp passed
  obtain ⟨unstarted, exhausted⟩ := Prod.mk.inj flags
  have new := Store.newPipeline_sample (Store.raw_sample_list (d := .object (.list ⟨1⟩)))
  have tame : ∀ step ∈ (Store.sample (.object (.list ⟨1⟩))).list ⟨0⟩,
      (Store.sample (.object (.list ⟨1⟩))).TameStep false step := by
    intro step member
    obtain rfl := List.mem_singleton.mp (show step ∈ [Value.object (.step ⟨0⟩)] from member)
    refine ⟨trivial, fun item v domain answers => ?_⟩
    cases answers
    exact domain
  have led : Store.Led false (.iterable .null none) ⟨0⟩ .null ⟨0⟩ (.sample (.object (.list ⟨1⟩))) session.store :=
    Session.led_play played
  have items : session.store.list ⟨1⟩ = (Store.sample (.object (.list ⟨1⟩))).list ⟨1⟩ :=
    led.1.grows.list (Nat.lt_add_one 1)
  have free : (session.store.tapeOf (.listing ⟨1⟩ 0 false)).ErrorFree := by
    intro i fault there
    obtain ⟨event, found, tells⟩ := Option.map_eq_some_iff.mp there
    obtain ⟨v, -, rfl⟩ := Option.map_eq_some_iff.mp found
    cases tells
  have within : (session.store.tapeOf (.listing ⟨1⟩ 0 false)).Within fun item => item.contents.Tame := by
    intro i item there
    obtain ⟨event, found, tells⟩ := Option.map_eq_some_iff.mp there
    obtain ⟨v, listed, rfl⟩ := Option.map_eq_some_iff.mp found
    rw [items] at listed
    cases tells
    rcases i with _ | _ | _ | i <;> cases listed <;> trivial
  obtain ⟨items, last, took⟩ := (takes_what_it_tells new tame (by decide)).2 _ _ _ played unstarted
    (session.store.tapeOf (.listing ⟨1⟩ 0 false)) rfl free within _ _ _ (by decide) passed
  exact ⟨earlier, session, outcomes, after, items, last, played, passed, exhausted, took⟩

end FirstSeen
