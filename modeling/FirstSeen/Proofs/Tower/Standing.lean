import FirstSeen.Proofs.Tower.Ground
import FirstSeen.Proofs.Tower.Judging

/-!
# Chains of the store as towers

A sequence of the store *stands as* a tower if the chain below it is built and each sequence in it is where
the tower is: its flags, its peeked element, its seen keys and, at the ground, the origin that it draws from.
The sequences of the chain are all different, so that a change to one of them leaves the others.

Asking the sequence for its next element then ends as asking the tower does, at every depth of calls, and
leaves a chain that stands as the tower that is left. Beginning again, size and the flag for elements that
are taken apart are told by the tower as well.
-/

set_option autoImplicit false

namespace FirstSeen

namespace Store

variable (D : Item → Prop) (aside : Option CursorId) (multi : Bool)

/-- Whether the peeked element of a sequence is that of a pass. -/
def Peeks (store : Store) : Option Value → Option Item → Prop
  | none, none => True
  | some v, some item => store.Shows D item v
  | _, _ => False

/-- Whether a sequence is where a pass is. -/
structure Passes (store : Store) (id : SequenceId) (pass : Pass) : Prop where
  inside : id.index < store.sequences.size
  started : (store.sequence id).started = pass.started
  exhausted : (store.sequence id).exhausted = pass.exhausted
  peeked : store.Peeks D (store.sequence id).peeked pass.peeked

/-- Whether a sequence, with the sequences of the chain below it, stands as a tower. -/
inductive Stands (store : Store) : SequenceId → List SequenceId → Tower → Prop
  | ground {id : SequenceId} {pass : Pass} {origin : Origin} (passes : store.Passes D id pass)
      (flag : (store.sequence id).multiValue = multi)
      (backs : store.Backs D aside (store.sequence id).body origin) :
      Stands store id [id] (.ground pass origin)
  | passage {id below : SequenceId} {ids : List SequenceId} {pass : Pass} {tower : Tower}
      {steps : ListId} {input : Value} (passes : store.Passes D id pass)
      (body : (store.sequence id).body = .pipeline steps input (.ofSequence below))
      (bound : input.isNull = false) (apart : id ∉ ids) (rest : Stands store below ids tower) :
      Stands store id (id :: ids) (.passage pass tower)
  | filter {id below : SequenceId} {ids : List SequenceId} {pass : Pass} {tower : Tower}
      {rule : Rule} {key limit : Value} {seen : Seen} (passes : store.Passes D id pass)
      (flag : (store.sequence id).multiValue = multi)
      (body : (store.sequence id).body = .distinct below key limit seen)
      (sound : store.SoundKey D multi key) (data : store.IsData limit)
      (rule_eq : rule = store.ruleOf multi key limit) (apart : id ∉ ids)
      (rest : Stands store below ids tower) :
      Stands store id (id :: ids) (.filter pass rule seen tower)

/-- A store in which some sequences, all iterators but streams, and the counted calls are as they were. -/
structure Spares (ids : List SequenceId) (before after : Store) : Prop where
  grows : before.Grows after
  size : before.sequences.size ≤ after.sequences.size
  same : ∀ id ∈ ids, after.sequence id = before.sequence id
  cursors : before.cursors.size ≤ after.cursors.size
  still : ∀ id : CursorId, id.index < before.cursors.size → (before.cursor id).isStream = false →
    after.cursor id = before.cursor id
  calls : ∀ id, after.callsOf id = before.callsOf id

variable {D aside multi}

/-! ## What stays -/

theorem Grows.peeks {before after : Store} (h : before.Grows after) {v : Option Value}
    {item : Option Item} (peeks : before.Peeks D v item) : after.Peeks D v item := by
  cases v <;> cases item <;> first | exact peeks | exact h.shows peeks

theorem Passes.later {before after : Store} {id : SequenceId} {pass : Pass}
    (h : before.Passes D id pass) (grows : before.Grows after)
    (size : before.sequences.size ≤ after.sequences.size)
    (same : after.sequence id = before.sequence id) : after.Passes D id pass := by
  obtain ⟨inside, started, exhausted, peeked⟩ := h
  refine ⟨Nat.lt_of_lt_of_le inside size, same ▸ started, same ▸ exhausted, ?_⟩
  rw [same]
  exact grows.peeks peeked

/-- Another body leaves the pass of a sequence where it is. -/
theorem Passes.rebodied {before after : Store} {id : SequenceId} {pass : Pass} {body : Body}
    (h : before.Passes D id pass) (works : before.Works [id] after)
    (state : after.sequence id = { before.sequence id with body := body }) : after.Passes D id pass :=
  ⟨Nat.lt_of_lt_of_le h.inside works.size, by rw [state, ← h.started], by rw [state, ← h.exhausted],
    by rw [state]; exact works.grows.peeks h.peeked⟩

/-- A chain whose sequences and iterators are as they were stands as it did. -/
theorem Stands.spared {before after : Store} {id : SequenceId} {ids : List SequenceId} {tower : Tower}
    (h : before.Stands D aside multi id ids tower) (spares : before.Spares ids after) :
    after.Stands D aside multi id ids tower := by
  induction h with
  | ground passes flag backs =>
    have same := spares.same _ List.mem_cons_self
    refine .ground (passes.later spares.grows spares.size same) (same ▸ flag) ?_
    rw [same]
    exact backs.later spares.grows (fun id _ => spares.calls id) spares.cursors spares.still
  | passage passes body bound apart rest ih =>
    have same := spares.same _ List.mem_cons_self
    exact .passage (passes.later spares.grows spares.size same) (same ▸ body) bound apart
      (ih { spares with same := fun id m => spares.same id (List.mem_cons_of_mem _ m) })
  | filter passes flag body sound data rule_eq apart rest ih =>
    have same := spares.same _ List.mem_cons_self
    exact .filter (passes.later spares.grows spares.size same) (same ▸ flag) (same ▸ body)
      (spares.grows.soundKey sound) (spares.grows.isData data)
      (rule_eq.trans (spares.grows.ruleOf data).symm) apart
      (ih { spares with same := fun id m => spares.same id (List.mem_cons_of_mem _ m) })

theorem Stands.passes {store : Store} {id : SequenceId} {ids : List SequenceId} {tower : Tower}
    (h : store.Stands D aside multi id ids tower) : store.Passes D id tower.pass := by
  cases h <;> assumption

theorem Stands.mem {store : Store} {id : SequenceId} {ids : List SequenceId} {tower : Tower}
    (h : store.Stands D aside multi id ids tower) : id ∈ ids := by
  cases h <;> simp

theorem spares_updated {store : Store} {id : SequenceId} {ids : List SequenceId}
    {f : SequenceState → SequenceState} (apart : id ∉ ids) : store.Spares ids (store.updated id f) :=
  ⟨grows_updated store id f, by simp, fun _ m => sequence_updated_ne fun same => apart (same ▸ m),
    Nat.le_refl _, fun _ _ _ => rfl, fun _ => rfl⟩

theorem spares_journal (store : Store) (ids : List SequenceId) (journal : Array Notice) :
    store.Spares ids { store with journal := journal } :=
  ⟨⟨⟨#[], by simp⟩, ⟨#[], by simp⟩, rfl, rfl, fun _ => rfl, rfl, Nat.le_refl _⟩, Nat.le_refl _,
    fun _ _ => rfl, Nat.le_refl _, fun _ _ _ => rfl, fun _ => rfl⟩

theorem still_journal (store : Store) (journal : Array Notice) :
    store.Still { store with journal := journal } :=
  ⟨(spares_journal store [] journal).grows, rfl, fun _ _ => rfl⟩

theorem Spares.refl (ids : List SequenceId) (store : Store) : store.Spares ids store :=
  ⟨.refl store, Nat.le_refl _, fun _ _ => rfl, Nat.le_refl _, fun _ _ _ => rfl, fun _ => rfl⟩

theorem Spares.trans {ids : List SequenceId} {first second third : Store} (h : first.Spares ids second)
    (k : second.Spares ids third) : first.Spares ids third :=
  ⟨h.grows.trans k.grows, Nat.le_trans h.size k.size,
    fun id member => (k.same id member).trans (h.same id member), Nat.le_trans h.cursors k.cursors,
    fun id inside noStream => by
      have same := h.still id inside noStream
      rw [k.still id (Nat.lt_of_lt_of_le inside h.cursors) (by rwa [same]), same],
    fun id => (k.calls id).trans (h.calls id)⟩

theorem Adds.spares {before after : Store} (h : before.Adds after) (ids : List SequenceId) :
    before.Spares ids after := by
  refine ⟨h.grows, by simp [h.sequences], fun id _ => ?_, by simp [h.cursors], fun id _ _ => ?_,
    fun id => ?_⟩
  · simp only [Store.sequence, h.sequences]
  · simp only [Store.cursor, h.cursors]
  · simp only [Store.callsOf, Store.meter, Store.source, h.meters, h.grows.sources]

/-- Changing only the pass of the topmost sequence changes only the pass of the tower. -/
theorem Stands.repass {store : Store} {id : SequenceId} {ids : List SequenceId} {tower : Tower}
    {f : SequenceState → SequenceState} (pass : Pass) (h : store.Stands D aside multi id ids tower)
    (body : ∀ state, (f state).body = state.body)
    (flag : ∀ state, (f state).multiValue = state.multiValue)
    (passes : (store.updated id f).Passes D id pass) :
    (store.updated id f).Stands D aside multi id ids (tower.withPass pass) := by
  have there := sequence_updated (f := f) h.passes.inside
  cases h with
  | ground passes' flag' backs =>
    refine .ground passes (by rw [there, flag, flag']) ?_
    rw [there, body]
    exact backs.later (grows_updated ..) (fun _ _ => rfl) (Nat.le_refl _) fun _ _ _ => rfl
  | passage passes' body' bound apart rest =>
    exact .passage passes (by rw [there, body, body']) bound apart (rest.spared (spares_updated apart))
  | filter passes' flag' body' sound data rule_eq apart rest =>
    have grows := grows_updated store id f
    exact .filter passes (by rw [there, flag, flag']) (by rw [there, body, body'])
      (grows.soundKey sound) (grows.isData data) (rule_eq.trans (grows.ruleOf data).symm) apart
      (rest.spared (spares_updated apart))

/-- A sequence on an origin stands as a tower with what the origin has become. -/
theorem LeavesBehind.stands {store after : Store} {id : SequenceId} {origin : Origin} {pass : Pass}
    (left : store.LeavesBehind D aside id origin after) (passes : store.Passes D id pass)
    (flag : (store.sequence id).multiValue = multi) :
    after.Stands D aside multi id [id] (.ground pass origin) := by
  obtain ⟨feed, backs, state, works⟩ := left
  obtain ⟨inside, started, exhausted, peeked⟩ := passes
  refine .ground ⟨Nat.lt_of_lt_of_le inside works.size, by rw [state, started], by rw [state, exhausted],
    ?_⟩ (by rw [state, flag]) (by rwa [state])
  rw [state]
  exact works.grows.peeks peeked

/-- A stage with other seen keys stands as a filter with these. -/
theorem stands_seen {store : Store} {id below : SequenceId} {ids : List SequenceId} {pass : Pass}
    {tower : Tower} {rule : Rule} {key limit : Value} (seen : Seen) (passes : store.Passes D id pass)
    (flag : (store.sequence id).multiValue = multi) (sound : store.SoundKey D multi key)
    (data : store.IsData limit) (rule_eq : rule = store.ruleOf multi key limit) (apart : id ∉ ids)
    (rest : store.Stands D aside multi below ids tower) :
    (store.updated id fun state => { state with body := .distinct below key limit seen }).Stands D
      aside multi id (id :: ids) (.filter pass rule seen tower) := by
  have grows := grows_updated store id fun state =>
    { state with body := .distinct below key limit seen }
  have there := sequence_updated (f := fun state =>
    { state with body := .distinct below key limit seen }) passes.inside
  obtain ⟨inside, started, exhausted, peeked⟩ := passes
  refine .filter ⟨by simpa using inside, by rw [there, started], by rw [there, exhausted], ?_⟩
    (by rw [there, flag]) (by rw [there]) (grows.soundKey sound) (grows.isData data)
    (rule_eq.trans (grows.ruleOf data).symm) apart (rest.spared (spares_updated apart))
  rw [there]
  exact grows.peeks peeked

/-! ## The end -/

/-- Releasing what a sequence needs no longer at its end leaves what the tower keeps. -/
theorem cleanUp_stands {store : Store} {id : SequenceId} {ids : List SequenceId} {tower : Tower}
    (h : store.Stands D aside multi id ids tower) (exhausted : tower.pass.exhausted = true) :
    ∃ after, (Run.cleanUp id).from? store = (.ok (), after) ∧
      after.Stands D aside multi id ids tower.finish ∧ store.Works ids after := by
  have same : ∀ pass : Pass, pass.exhausted = true → { pass with exhausted := true } = pass := by
    rintro ⟨started, exhausted, peeked⟩ rfl
    rfl
  cases h with
  | @ground _ pass origin passes flag backs =>
    obtain ⟨after, ends, left⟩ := release_backs passes.inside backs
    rw [Tower.finish, same pass exhausted]
    have works := left.choose_spec.2.2
    exact ⟨after, ends, left.stands passes flag, works⟩
  | @passage _ below ids pass tower steps input passes body bound apart rest =>
    rw [Tower.finish, same pass exhausted]
    refine ⟨store, ?_, .passage passes body bound apart rest, .refl _ _⟩
    rw [Run.cleanUp, Run.from?_bind_ok (Run.from?_sequence ..), body]
    rfl
  | @filter _ below ids pass tower rule key limit seen passes flag body sound data rule_eq apart rest =>
    rw [Tower.finish, same pass exhausted]
    refine ⟨_, ?_, stands_seen .empty passes flag sound data rule_eq apart rest,
      works_updated List.mem_cons_self⟩
    rw [Run.cleanUp, Run.from?_bind_ok (Run.from?_sequence ..), body]
    rfl

/-- Signalling the end of a sequence finishes its tower. -/
theorem signalEnd_stands {store : Store} {id : SequenceId} {ids : List SequenceId} {tower : Tower}
    (h : store.Stands D aside multi id ids tower) :
    ∃ after, (Run.signalEnd id).from? store = (.ok (), after) ∧
      after.Stands D aside multi id ids tower.finish ∧ store.Works ids after := by
  have there := sequence_updated (f := fun state => { state with exhausted := true })
    h.passes.inside
  obtain ⟨inside, started, exhausted, peeked⟩ := h.passes
  have marked := h.repass (f := fun state => { state with exhausted := true })
    { tower.pass with exhausted := true } (fun _ => rfl) (fun _ => rfl)
    ⟨by simpa using inside, by rw [there, started], by rw [there],
      by rw [there]; exact (grows_updated ..).peeks peeked⟩
  obtain ⟨after, ends, stands, works⟩ := cleanUp_stands (marked.spared (spares_journal _ ids
    (store.journal.push (.exhausted id
      ((store.updated id fun state => { state with exhausted := true }).sequence id).body.kind))))
    (by simp)
  refine ⟨after, ?_, ?_, ?_⟩
  · rw [Run.signalEnd, Run.from?_bind_ok (Run.from?_updateSequence ..),
      Run.from?_bind_ok (Run.from?_sequence ..), Run.from?_bind_ok (Run.from?_tell ..)]
    exact ends
  · cases tower <;> exact stands
  · refine (works_updated (f := fun state => { state with exhausted := true }) h.mem).trans ?_
    exact (still_journal ..).works.trans works

/-! ## Asking for an element -/

/-- Whether a call ended as a tower says: out of fuel, or with what is drawn and a chain that stands as what
is left of the tower. -/
def EndsAs (store : Store) (D : Item → Prop) (aside : Option CursorId) (multi : Bool)
    (id : SequenceId) (ids : List SequenceId) (ending : Except Halt Value × Store) :
    Option (Draw × Tower) → Prop
  | none => ending.1 = .error .outOfFuel
  | some (told, left) => ending.2.Delivers D ending.1 told ∧
      ending.2.Stands D aside multi id ids left ∧ store.Works ids ending.2

/-- What ended after some sequences have changed ended as a tower says. -/
theorem EndsAs.after {store before : Store} {id : SequenceId} {ids : List SequenceId}
    {ending : Except Halt Value × Store} {drawn : Option (Draw × Tower)}
    (works : store.Works ids before) (h : before.EndsAs D aside multi id ids ending drawn) :
    store.EndsAs D aside multi id ids ending drawn := by
  rcases drawn with _ | ⟨told, left⟩
  · exact h
  · exact ⟨h.1, h.2.1, works.trans h.2.2⟩

/-- A pull that ended as a tower says is settled as the tower settles it: its fault goes on, and finishes the
sequence if it signals the end. -/
theorem settle_stands {store : Store} {id : SequenceId} {ids : List SequenceId} {run : Run Value}
    {drawn : Option (Draw × Tower)} (h : store.EndsAs D aside multi id ids (run.from? store) drawn) :
    store.EndsAs D aside multi id ids
      ((Run.onFault run fun fault => do
        if fault.isEnd then Run.signalEnd id
        Run.fail fault).from? store) (drawn.map Tower.settle) := by
  rw [Run.from?_onFault]
  rcases ends : run.from? store with ⟨ended, after⟩
  rw [ends] at h
  rcases drawn with _ | ⟨told, left⟩
  · obtain rfl : ended = .error .outOfFuel := h
    rfl
  · obtain ⟨delivers, stands, works⟩ := h
    rcases told with fault | item
    · rcases ended with halt | v
      · obtain rfl : halt = .fault fault := delivers
        by_cases signals : fault.isEnd
        · obtain ⟨finished, signalled, stands', works'⟩ := signalEnd_stands stands
          simp only [signals, if_true, Option.map_some, Tower.settle]
          rw [Run.from?_bind_ok signalled]
          exact ⟨rfl, stands', works.trans works'⟩
        · simp only [signals, Option.map_some, Tower.settle]
          exact ⟨rfl, stands, works⟩
      · exact delivers.elim
    · rcases ended with halt | v
      · exact delivers.elim
      · exact ⟨delivers, stands, works⟩

/-- A sequence that pulls as its tower does hands out the next element as the tower does. -/
theorem next_stands_succ {n : Nat} (pulls : ∀ (store : Store) (id : SequenceId)
      (ids : List SequenceId) (tower : Tower), store.Stands D aside multi id ids tower →
        store.EndsAs D aside multi id ids (((calls n).pull id).from? store) (tower.pull n))
    {store : Store} {id : SequenceId} {ids : List SequenceId} {tower : Tower}
    (h : store.Stands D aside multi id ids tower) :
    store.EndsAs D aside multi id ids (((calls (n + 1)).next id).from? store)
      (tower.next (n + 1)) := by
  obtain ⟨inside, started, exhausted, peeks⟩ := h.passes
  change store.EndsAs D aside multi id ids (((calls n).nextWith id).from? store) _
  rw [Calls.nextWith, Run.from?_bind_ok (Run.from?_sequence ..), Tower.next]
  cases peeked : tower.pass.peeked with
  | some item =>
    rw [peeked] at peeks
    cases held : (store.sequence id).peeked with
    | none => rw [held] at peeks; exact peeks.elim
    | some v =>
      rw [held] at peeks
      have there := sequence_updated (f := fun state => { state with peeked := none }) inside
      exact ⟨(grows_updated ..).shows peeks, h.repass _ (fun _ => rfl) (fun _ => rfl)
        ⟨by simpa using inside, by rw [there, started], by rw [there, exhausted],
          by rw [there]; trivial⟩, works_updated h.mem⟩
  | none =>
    rw [peeked] at peeks
    cases held : (store.sequence id).peeked with
    | some v => rw [held] at peeks; exact peeks.elim
    | none =>
      by_cases spent : tower.pass.exhausted
      · simp only [exhausted, spent, if_true]
        exact ⟨rfl, h, .refl _ _⟩
      · simp only [exhausted, spent]
        have there := sequence_updated (f := fun state => { state with started := true }) inside
        have begun := h.repass (f := fun state => { state with started := true })
          { tower.pass with started := true } (fun _ => rfl) (fun _ => rfl)
          ⟨by simpa using inside, by rw [there], by rw [there, exhausted],
            by rw [there, held, peeked]; trivial⟩
        have works : store.Works ids (store.updated id fun state => { state with started := true }) :=
          works_updated h.mem
        have pulled := pulls _ _ _ _ begun
        exact .after works (settle_stands pulled)

/-- A sequence that was not asked stands above what its supply has become. -/
theorem Works.passes {store after : Store} {id : SequenceId} {ids : List SequenceId} {pass : Pass}
    (works : store.Works ids after) (apart : id ∉ ids) (passes : store.Passes D id pass) :
    after.sequence id = store.sequence id ∧ after.Passes D id pass :=
  have same := works.others id apart passes.inside
  ⟨same, passes.later works.grows works.size same⟩

/-- Recording the key that was found for an element ends as judging the element does, and changes only what the
stage remembers. -/
theorem judge_recorded {store asked : Store} {id below : SequenceId} {rule : Rule} {key limit v : Value} {seen : Seen}
    {item : Item} {c : Calls} {ended : Except Halt Value} (inside : id.index < store.sequences.size)
    (body : (store.sequence id).body = .distinct below key limit seen) (data : store.IsData limit)
    (limited : rule.limit = store.contents limit) (raising : rule.raising = store.raising)
    (ends : (c.keyFor key multi v).from? store = (ended, asked)) (finds : asked.FindsKey ended (rule.keyOf item))
    (adds : store.Adds asked) :
    ∃ after, (do Run.remember id (← c.keyFor key multi v)).from? store =
        ((rule.judge seen item).1.mapError Halt.fault, after) ∧
      after.sequence id = { store.sequence id with body := .distinct below key limit (rule.judge seen item).2 } ∧
      (∀ ids, id ∉ ids → store.Spares ids after) ∧ store.Works [id] after ∧ after.keys = asked.keys := by
  have same : asked.sequence id = store.sequence id := by simp only [Store.sequence, adds.sequences]
  cases answer : rule.keyOf item with
  | error fault =>
    rw [answer] at finds
    obtain rfl : ended = .error (.fault fault) := finds
    have judged : rule.judge seen item = (.error fault, seen) := by rw [Rule.judge, answer]
    rw [judged, ← body]
    exact ⟨asked, Run.from?_bind_error ends, same, fun ids _ => adds.spares ids, adds.still.works, rfl⟩
  | ok k =>
    rw [answer] at finds
    obtain ⟨w, rfl, found⟩ := finds
    obtain ⟨journal, remembered⟩ := from?_remember w (same ▸ body)
    have recorded : seen.record (asked.contents limit) asked.raising (asked.contents w) =
        seen.record rule.limit rule.raising k := by
      rw [found, limited, raising, adds.grows.contents data, adds.grows.raising]
    rw [recorded] at remembered
    have judged : rule.judge seen item = ((seen.record rule.limit rule.raising k).outcome,
        (seen.record rule.limit rule.raising k).seen) := by rw [Rule.judge, answer]
    rw [judged]
    let recorded : Store := asked.updated id fun state => { state with
      body := .distinct below key limit (seen.record rule.limit rule.raising k).seen }
    have updated : recorded.sequence id = { store.sequence id with
        body := .distinct below key limit (seen.record rule.limit rule.raising k).seen } := by
      rw [← same]
      exact sequence_updated (by simpa only [adds.sequences] using inside)
    refine ⟨_, (Run.from?_bind_ok ends).trans remembered, updated, fun ids apart => ?_, ?_, rfl⟩
    · exact (adds.spares ids).trans ((spares_updated apart).trans (spares_journal recorded ids journal))
    · exact adds.still.works.trans ((works_updated List.mem_cons_self).trans (still_journal recorded journal).works)

/-- Recording the key of an element in a stage ends as judging the element does. -/
theorem judge_stands {store : Store} {id below : SequenceId} {ids : List SequenceId} {pass : Pass}
    {tower : Tower} {rule : Rule} {key limit v : Value} {seen : Seen} {item : Item} (c : Calls)
    (passes : store.Passes D id pass) (flag : (store.sequence id).multiValue = multi)
    (body : (store.sequence id).body = .distinct below key limit seen)
    (sound : store.SoundKey D multi key) (data : store.IsData limit)
    (rule_eq : rule = store.ruleOf multi key limit) (apart : id ∉ ids)
    (rest : store.Stands D aside multi below ids tower) (shows' : store.Shows D item v) :
    ∃ after, (do Run.remember id (← c.keyFor key multi v)).from? store =
        ((rule.judge seen item).1.mapError Halt.fault, after) ∧
      after.Stands D aside multi id (id :: ids)
        (.filter pass rule (rule.judge seen item).2 tower) ∧
      store.Works (id :: ids) after ∧ store.Grows after := by
  obtain ⟨ended, asked, ends, finds, adds⟩ := keyFor_finds c limit sound shows'
  rw [← rule_eq] at finds
  obtain ⟨after, remembers, state, spares, works, -⟩ := judge_recorded passes.inside body data (by rw [rule_eq]; rfl)
    (by rw [rule_eq]; rfl) ends finds adds
  have grows := works.grows
  refine ⟨after, remembers, ?_, works.mono fun other member => ?_, grows⟩
  · exact .filter (passes.rebodied works state) (by rw [state]; exact flag) (by rw [state]) (grows.soundKey sound)
      (grows.isData data)
      (rule_eq.trans (grows.ruleOf data).symm) apart (rest.spared (spares ids apart))
  · exact List.mem_cons.mpr (.inl (List.mem_singleton.mp member))

/-- A stage pulls as its filter does, if its supply and the stage itself do so one call deeper. -/
theorem pull_stands_filter {n : Nat} (nexts : ∀ (store : Store) (id : SequenceId)
      (ids : List SequenceId) (tower : Tower), store.Stands D aside multi id ids tower →
        store.EndsAs D aside multi id ids (((calls n).next id).from? store) (tower.next n))
    (pulls : ∀ (store : Store) (id : SequenceId)
      (ids : List SequenceId) (tower : Tower), store.Stands D aside multi id ids tower →
        store.EndsAs D aside multi id ids (((calls n).pull id).from? store) (tower.pull n))
    {store : Store} {id below : SequenceId} {ids : List SequenceId} {pass : Pass}
    {tower : Tower} {rule : Rule} {key limit : Value} {seen : Seen}
    (passes : store.Passes D id pass) (flag : (store.sequence id).multiValue = multi)
    (body : (store.sequence id).body = .distinct below key limit seen)
    (sound : store.SoundKey D multi key) (data : store.IsData limit)
    (rule_eq : rule = store.ruleOf multi key limit) (apart : id ∉ ids)
    (rest : store.Stands D aside multi below ids tower) :
    store.EndsAs D aside multi id (id :: ids) (((calls (n + 1)).pull id).from? store)
      ((Tower.filter pass rule seen tower).pull (n + 1)) := by
  have unfolded : ((calls (n + 1)).pull id).from? store =
      ((calls n).next below >>= fun element =>
        ((do Run.remember id (← (calls n).keyFor key multi element)) >>= fun fresh =>
          if fresh then pure element else (calls n).pull id)).from? store := by
    change ((calls n).pullWith id).from? store = _
    rw [Calls.pullWith, Run.from?_bind_ok (Run.from?_sequence ..), body]
    simp only [Calls.pullDistinct, flag, bind_assoc]
  have asked := nexts store below ids tower rest
  rw [unfolded, Tower.pull, Run.from?_bind]
  rcases ends : ((calls n).next below).from? store with ⟨ended, after⟩
  rw [ends] at asked
  cases drawn : tower.next n with
  | none =>
    rw [drawn] at asked
    obtain rfl : ended = .error .outOfFuel := asked
    rfl
  | some pair =>
    obtain ⟨told, left⟩ := pair
    rw [drawn] at asked
    obtain ⟨delivers, stands, works⟩ := asked
    obtain ⟨same, passes'⟩ := works.passes apart passes
    have sound' := works.grows.soundKey sound
    have data' := works.grows.isData data
    have rule_eq' := rule_eq.trans (works.grows.ruleOf data).symm
    have works' : store.Works (id :: ids) after := works.mono fun other m => List.mem_cons_of_mem _ m
    rcases told with fault | item
    · rcases ended with halt | v
      · exact ⟨delivers, .filter passes' (same ▸ flag) (same ▸ body) sound' data' rule_eq' apart stands,
          works'⟩
      · exact delivers.elim
    · rcases ended with halt | v
      · exact delivers.elim
      · obtain ⟨judged, remembers, stands', worked, grows⟩ := judge_stands (calls n) passes' (same ▸ flag)
          (same ▸ body) sound' data' rule_eq' apart stands delivers
        simp only [Run.from?_bind, remembers]
        clear remembers
        generalize rule.judge seen item = outcome at stands' ⊢
        obtain ⟨fault | _ | _, seen'⟩ := outcome
        · exact ⟨rfl, stands', works'.trans worked⟩
        · exact .after (works'.trans worked) (pulls _ _ _ _ stands')
        · exact ⟨grows.shows delivers, stands', works'.trans worked⟩

/-- At every depth, the next element of a sequence and what is pulled from below it are those of the tower
that it stands as. -/
theorem next_pull_stands (n : Nat) :
    (∀ (store : Store) (id : SequenceId) (ids : List SequenceId) (tower : Tower),
      store.Stands D aside multi id ids tower →
        store.EndsAs D aside multi id ids (((calls n).next id).from? store) (tower.next n)) ∧
    ∀ (store : Store) (id : SequenceId) (ids : List SequenceId) (tower : Tower),
      store.Stands D aside multi id ids tower →
        store.EndsAs D aside multi id ids (((calls n).pull id).from? store) (tower.pull n) := by
  induction n with
  | zero => exact ⟨fun _ _ _ _ _ => rfl, fun _ _ _ _ _ => rfl⟩
  | succ n ih =>
    obtain ⟨ihNext, ihPull⟩ := ih
    refine ⟨fun store id ids tower h => next_stands_succ ihPull h, fun store id ids tower h => ?_⟩
    cases h with
    | @ground _ pass origin passes flag backs =>
      have pulled := pull_backs n passes.inside backs
      rw [Tower.pull]
      cases drawn : origin.draw n with
      | none =>
        rw [drawn] at pulled
        exact pulled
      | some pair =>
        rw [drawn] at pulled
        exact ⟨pulled.1, pulled.2.stands passes flag, pulled.2.choose_spec.2.2⟩
    | @passage _ below ids pass tower steps input passes body bound apart rest =>
      have unfolded : ((calls (n + 1)).pull id).from? store = ((calls n).next below).from? store := by
        change ((calls n).pullWith id).from? store = _
        rw [Calls.pullWith, Run.from?_bind_ok (Run.from?_sequence ..), body]
        rfl
      have asked := ihNext store below ids tower rest
      rw [unfolded, Tower.pull]
      cases drawn : tower.next n with
      | none =>
        rw [drawn] at asked
        exact asked
      | some pair =>
        rw [drawn] at asked
        obtain ⟨delivers, stands, works⟩ := asked
        obtain ⟨same, passes'⟩ := works.passes apart passes
        exact ⟨delivers, .passage passes' (same ▸ body) bound apart stands,
          works.mono fun other m => List.mem_cons_of_mem _ m⟩
    | filter passes flag body sound data rule_eq apart rest =>
      exact pull_stands_filter ihNext ihPull passes flag body sound data rule_eq apart rest

/-- The next element of a sequence is that of the tower that it stands as. -/
theorem next_stands (n : Nat) {store : Store} {id : SequenceId} {ids : List SequenceId} {tower : Tower}
    (h : store.Stands D aside multi id ids tower) :
    store.EndsAs D aside multi id ids (((calls n).next id).from? store) (tower.next n) :=
  (next_pull_stands n).1 store id ids tower h

/-! ## Beginning again -/

/-- A sequence that was reset is at its beginning: its flags are taken back and nothing is peeked at. -/
theorem restart_stands {store : Store} {id : SequenceId} {ids : List SequenceId} {tower : Tower}
    (h : store.Stands D aside multi id ids tower) :
    ∃ after, (do
        Run.updateSequence id fun state =>
          { state with started := false, exhausted := false, peeked := none }
        Run.tell (.rewound id (← Run.sequence id).body.kind) : Run Unit).from? store = (.ok (), after) ∧
      after.Stands D aside multi id ids (tower.withPass {}) ∧ store.Works ids after := by
  have there := sequence_updated (f := fun state =>
    { state with started := false, exhausted := false, peeked := none }) h.passes.inside
  have restarted := h.repass (f := fun state =>
    { state with started := false, exhausted := false, peeked := none }) {}
    (fun _ => rfl) (fun _ => rfl) ⟨by simpa using h.passes.inside, by rw [there], by rw [there],
      by rw [there]; trivial⟩
  refine ⟨_, rfl, restarted.spared (spares_journal _ ids _), ?_⟩
  refine (works_updated (f := fun state =>
    { state with started := false, exhausted := false, peeked := none }) h.mem).trans ?_
  exact (still_journal ..).works

/-- Taking a sequence back to its beginning ends as taking its tower back does, given as many calls as the
tower is high. -/
theorem rewind_stands {store : Store} {id : SequenceId} {ids : List SequenceId} {tower : Tower}
    (h : store.Stands D aside multi id ids tower) {n : Nat} (deep : tower.height ≤ n) :
    ∃ after, ((calls n).rewind id).from? store = (ending tower.rewind.1, after) ∧
      after.Stands D aside multi id ids tower.rewind.2 ∧ store.Works ids after := by
  induction h generalizing n with
  | @ground id pass origin passes flag backs =>
    obtain ⟨n, rfl⟩ : ∃ m, n = m + 1 := ⟨n - 1, by simp [Tower.height] at deep; omega⟩
    obtain ⟨reset, ends, left⟩ := reset_backs (calls n) passes.inside backs
    rw [passes.started] at ends left
    have stands := left.stands passes flag
    have works := left.choose_spec.2.2
    change ∃ after, ((calls n).rewindWith id).from? store = _ ∧ _
    rw [Calls.rewindWith, Tower.rewind]
    rcases resets : origin.reset pass.started with ⟨_ | fault, origin'⟩ <;> rw [resets] at ends stands
    · obtain ⟨after, restarts, stands', works'⟩ := restart_stands stands
      exact ⟨after, (Run.from?_bind_ok ends).trans restarts, stands', works.trans works'⟩
    · exact ⟨reset, Run.from?_bind_error ends, stands, works⟩
  | @passage id below ids pass tower steps input passes body bound apart rest ih =>
    obtain ⟨n, rfl⟩ : ∃ m, n = m + 1 := ⟨n - 1, by simp [Tower.height] at deep; omega⟩
    obtain ⟨reset, ends, stands, works⟩ := ih (n := n) (by simpa [Tower.height] using deep)
    obtain ⟨same, passes'⟩ := works.passes apart passes
    have works : store.Works (id :: ids) reset := works.mono fun other m => List.mem_cons_of_mem _ m
    have stands : reset.Stands D aside multi id (id :: ids) (.passage pass tower.rewind.2) :=
      .passage passes' (same ▸ body) bound apart stands
    have ends : ((calls n).reset id).from? store = (ending tower.rewind.1, reset) := by
      rw [Calls.reset, Run.from?_bind_ok (Run.from?_sequence ..), body]
      exact ends
    change ∃ after, ((calls n).rewindWith id).from? store = _ ∧ _
    rw [Calls.rewindWith, Tower.rewind]
    rcases rewinds : tower.rewind with ⟨_ | fault, below'⟩ <;> rw [rewinds] at ends stands
    · obtain ⟨after, restarts, stands', works'⟩ := restart_stands stands
      exact ⟨after, (Run.from?_bind_ok ends).trans restarts, stands', works.trans works'⟩
    · exact ⟨reset, Run.from?_bind_error ends, stands, works⟩
  | @filter id below ids pass tower rule key limit seen passes flag body sound data rule_eq apart rest ih =>
    obtain ⟨n, rfl⟩ : ∃ m, n = m + 1 := ⟨n - 1, by simp [Tower.height] at deep; omega⟩
    obtain ⟨reset, ends, stands, works⟩ := ih (n := n) (by simpa [Tower.height] using deep)
    obtain ⟨same, passes'⟩ := works.passes apart passes
    have sound' := works.grows.soundKey sound
    have data' := works.grows.isData data
    have rule_eq' := rule_eq.trans (works.grows.ruleOf data).symm
    have works : store.Works (id :: ids) reset := works.mono fun other m => List.mem_cons_of_mem _ m
    have unfolded : ((calls n).reset id).from? store = ((calls n).rewind below >>= fun _ =>
        Run.setBody id (.distinct below key limit .empty)).from? store := by
      rw [Calls.reset, Run.from?_bind_ok (Run.from?_sequence ..), body]
    change ∃ after, ((calls n).rewindWith id).from? store = _ ∧ _
    rw [Calls.rewindWith, Tower.rewind]
    rcases rewinds : tower.rewind with ⟨_ | fault, below'⟩ <;> rw [rewinds] at ends stands
    · have emptied := stands_seen .empty passes' (same ▸ flag) sound' data' rule_eq' apart stands
      obtain ⟨after, restarts, stands', works'⟩ := restart_stands emptied
      refine ⟨after, ?_, stands', works.trans ((works_updated List.mem_cons_self).trans works')⟩
      rw [Run.from?_bind, unfolded, Run.from?_bind_ok ends]
      exact restarts
    · refine ⟨reset, ?_, .filter passes' (same ▸ flag) (same ▸ body) sound' data' rule_eq' apart stands,
        works⟩
      rw [Run.from?_bind, unfolded, Run.from?_bind_error ends]
      rfl

/-! ## Questions -/

/-- Whether elements are taken apart is the same for all sequences of a chain. -/
theorem isMulti_stands {store : Store} {id : SequenceId} {ids : List SequenceId} {tower : Tower}
    (h : store.Stands D aside multi id ids tower) {n : Nat} (deep : tower.height ≤ n) :
    ((calls n).isMulti id).from? store = (.ok multi, store) := by
  induction h generalizing n with
  | @ground id pass origin passes flag backs =>
    obtain ⟨n, rfl⟩ : ∃ m, n = m + 1 := ⟨n - 1, by simp [Tower.height] at deep; omega⟩
    have ground := backs.ground
    change ((calls n).isMultiWith id).from? store = _
    rw [Calls.isMultiWith, Run.from?_bind_ok (Run.from?_sequence ..), flag]
    cases body : (store.sequence id).body <;> first | rfl | simp [body, Body.isGround] at ground
  | @passage id below ids pass tower steps input passes body bound apart rest ih =>
    obtain ⟨n, rfl⟩ : ∃ m, n = m + 1 := ⟨n - 1, by simp [Tower.height] at deep; omega⟩
    change ((calls n).isMultiWith id).from? store = _
    rw [Calls.isMultiWith, Run.from?_bind_ok (Run.from?_sequence ..), body]
    simp only [bound]
    exact ih (by simpa [Tower.height] using deep)
  | @filter id below ids pass tower rule key limit seen passes flag body sound data rule_eq apart rest ih =>
    obtain ⟨n, rfl⟩ : ∃ m, n = m + 1 := ⟨n - 1, by simp [Tower.height] at deep; omega⟩
    change ((calls n).isMultiWith id).from? store = _
    rw [Calls.isMultiWith, Run.from?_bind_ok (Run.from?_sequence ..), body, flag]
    rfl

/-- The size of a sequence is that of its tower. -/
theorem size_stands {store : Store} {id : SequenceId} {ids : List SequenceId} {tower : Tower}
    (h : store.Stands D aside multi id ids tower) {n : Nat} (deep : tower.height ≤ n) :
    ((calls n).size id).from? store = (tower.size.mapError Halt.fault, store) := by
  induction h generalizing n with
  | @ground id pass origin passes flag backs =>
    obtain ⟨n, rfl⟩ : ∃ m, n = m + 1 := ⟨n - 1, by simp [Tower.height] at deep; omega⟩
    have ground := backs.ground
    have size := backs.size store (.refl store)
    change ((calls n).sizeWith id).from? store = _
    rw [Calls.sizeWith, Run.from?_bind_ok (Run.from?_sequence ..)]
    cases body : (store.sequence id).body <;> rw [body] at size <;>
      first | exact size | simp [body, Body.isGround] at ground
  | @passage id below ids pass tower steps input passes body bound apart rest ih =>
    obtain ⟨n, rfl⟩ : ∃ m, n = m + 1 := ⟨n - 1, by simp [Tower.height] at deep; omega⟩
    change ((calls n).sizeWith id).from? store = _
    rw [Calls.sizeWith, Run.from?_bind_ok (Run.from?_sequence ..), body]
    exact ih (by simpa [Tower.height] using deep)
  | @filter id below ids pass tower rule key limit seen passes flag body sound data rule_eq apart rest ih =>
    obtain ⟨n, rfl⟩ : ∃ m, n = m + 1 := ⟨n - 1, by simp [Tower.height] at deep; omega⟩
    change ((calls n).sizeWith id).from? store = _
    rw [Calls.sizeWith, Run.from?_bind_ok (Run.from?_sequence ..), body]
    rfl

end Store

end FirstSeen
