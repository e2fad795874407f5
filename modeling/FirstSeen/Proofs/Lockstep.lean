import FirstSeen.Proofs.Touring

/-!
# Pipelines in lockstep

A pipeline of distinct stages over data is made, and then asked for whatever may be asked of it and of its streams, in any
order, where recording a key never signals an end. As long as its chain was not built, it is at its beginning. Once the chain is
built, all its sequences, from the pipeline down to the ground, agree on whether they were started and whether they have met
their end, and an element waits at none of them but the pipeline.
-/

set_option autoImplicit false

namespace FirstSeen

/-- The sequence that a sequence of this body draws from, if it was built. -/
def Body.supply? : Body → Option SequenceId
  | .distinct supply .. => some supply
  | .pipeline _ _ (.object (.sequence output)) => some output
  | _ => none

/-- Whether each sequence of a list draws from the next one, and the last one from data or from a factory. -/
def Store.IsChain (store : Store) : List SequenceId → Prop
  | [] => False
  | [id] => (store.sequence id).body.kind = .iterable ∨ (store.sequence id).body.kind = .produced
  | id :: supply :: rest => (store.sequence id).body.supply? = some supply ∧ store.IsChain (supply :: rest)

/-- What the sequences of a chain tell of laps: each of them from the ground to the top, and one upon the other, from where an
end is met, or not, to where it is met, or not. -/
structure Store.TellsLaps (store : Store) (chain : List SequenceId) (laps : List Lap) (exhausted exhausted' : Bool)
    (after : Store) : Prop where
  follows : Lap.follow exhausted laps = some exhausted'
  told : after.milestones chain = store.milestones chain ++ laps.flatMap fun lap => lap.all chain

open Run Store Calls

theorem Store.Stack.isChain {ids chain : List SequenceId} {streams : List CursorId} {store : Store}
    (stack : store.Stack ids streams chain) : store.IsChain chain := by
  induction stack with
  | iterable form => exact .inl (by rw [form]; rfl)
  | produced form => exact .inr (by rw [form]; rfl)
  | distinct form _ _ ih => exact ⟨by rw [form]; rfl, ih⟩
  | pipeline form _ ih => exact ⟨by rw [form]; rfl, ih⟩

variable {p : SequenceId} {steps : ListId} {data : Value} {many n : Nat} {streams : List CursorId} {site : Site}

/-! ## One operation -/

/-- What is asked of a pipeline and its streams takes it from site to site. -/
theorem tours_op {op : Op} (rewinds : op ≠ .rewind) (begins : op ≠ .stream) :
    (op.run (quiet n) p streams).Tours p steps data many streams fun answered => answered.2 = streams := by
  cases op with
  | next => exact (tours_next n).bind fun _ _ => tours_pure rfl
  | peek => exact (tours_peek n).bind fun _ _ => tours_pure rfl
  | force | collect => exact (tours_force n).bind fun _ _ => tours_pure rfl
  | size => exact (tours_size n).bind fun _ _ => tours_pure rfl
  | multiValue => exact (tours_isMulti n).bind fun _ _ => tours_pure rfl
  | rewind => exact absurd rfl rewinds
  | stream => exact absurd rfl begins
  | pull i =>
    cases found : streams[i]? with
    | none =>
      simp only [Op.run, found]
      exact tours_pure rfl
    | some k =>
      simp only [Op.run, found]
      exact (tours_advance (List.mem_of_getElem? found) n).bind fun _ _ => tours_pure rfl
  | drain i =>
    cases found : streams[i]? with
    | none =>
      simp only [Op.run, found]
      exact tours_pure rfl
    | some k =>
      simp only [Op.run, found]
      exact (tours_drainStream (List.mem_of_getElem? found) n).bind fun _ _ => tours_pure rfl

/-- Taking back a pipeline that was not built yet leaves it at its beginning. -/
theorem rewind_planned {store after : Store} {ended : Except Halt Unit} (plans : store.Planned p streams steps data)
    (length : (store.list steps).length = many) (attends : store.Attends p streams)
    (ends : ((quiet n).rewind p).from? store = (ended, after)) (enough : ended ≠ .error .outOfFuel) :
    after.AtSite p steps data many streams {} := by
  cases n with
  | zero =>
    cases ends
    exact absurd rfl enough
  | succ n =>
    have resets : ((quiet n).reset p).from? store = (.ok (), store) := by
      rw [Calls.reset, from?_bind_ok (from?_sequence ..), plans.form]
      rfl
    change ((quiet n).rewindWith p).from? store = _ at ends
    rw [rewindWith, from?_bind_ok resets, from?_bind_ok (from?_updateSequence ..), from?_bind_ok (from?_sequence ..)] at ends
    have begins := plans.updated (f := fun state => { state with started := false, exhausted := false, peeked := none }) rfl
      (by simp)
    have state : (store.updated p fun state => { state with started := false, exhausted := false, peeked := none }).sequence p =
        { store.sequence p with started := false, exhausted := false, peeked := none } :=
      sequence_updated (plans.encloses.hides.sequenceThere p (List.mem_singleton.mpr rfl))
    cases ends
    refine .planned ⟨begins.encloses.told _, begins.form, begins.usable.outward rfl rfl, begins.avoids, begins.stages⟩ length ?_
      attends
    change ((store.updated p fun state => { state with started := false, exhausted := false, peeked := none }).sequence p).IsAt
      false false
    rw [state]
    exact ⟨rfl, rfl, rfl⟩

/-- A new stream of a pipeline leaves it where it is. -/
theorem Store.AtSite.streaming {store : Store} (stands : store.AtSite p steps data many streams site) :
    ({ store with cursors := store.cursors.push (.streaming p .null .fresh) } : Store).AtSite p steps data many
      (streams ++ [⟨store.cursors.size⟩]) site := by
  let after : Store := { store with cursors := store.cursors.push (.streaming p .null .fresh) }
  have cursor : ∀ k : CursorId, after.cursor k =
      if k.index = store.cursors.size then .streaming p .null .fresh else store.cursor k := fun k =>
    getD_push store.cursors (.streaming p .null .fresh) default k.index
  have attends : (∀ k ∈ streams, k.index < store.cursors.size) → store.Attends p streams →
      after.Attends p (streams ++ [⟨store.cursors.size⟩]) := by
    intro there attends k member
    rcases List.mem_append.mp member with member | member
    · rw [cursor, if_neg (Nat.ne_of_lt (there k member))]
      exact attends k member
    · rw [List.mem_singleton.mp member, cursor, if_pos rfl]
      exact ⟨.fresh, rfl, fun _ same => by cases same⟩
  have known : p.index < store.sequences.size → (Cursor.streaming p .null .fresh).Avoids store.Lacks := fun there =>
    ⟨Nat.not_le_of_lt there, Value.avoids_of_refs_nil rfl, trivial⟩
  have new : ∀ {ids : List SequenceId} (ref : Ref), Ref.Among ids (streams ++ [⟨store.cursors.size⟩]) ref →
      Ref.Among ids streams ref ∨ store.Lacks ref := by
    intro ids ref held
    cases ref with
    | sequence id => exact .inl held
    | cursor k =>
      rcases List.mem_append.mp held with held | held
      · exact .inl held
      · rw [List.mem_singleton.mp held]
        exact .inr (Nat.le_refl _)
    | _ => exact held.elim
  cases stands with
  | planned plans length top attended =>
    have there := plans.encloses.hides.sequenceThere p (List.mem_singleton.mpr rfl)
    have data' : (Body.pipeline steps data .null).Avoids store.Lacks :=
      plans.form ▸ (plans.encloses.whole.sequence p).body
    exact .planned ⟨(plans.encloses.streaming (known there)).1, plans.form, plans.usable.outward rfl rfl,
      plans.avoids.both new data'.2.1, plans.stages⟩ length top (attends plans.encloses.hides.cursorThere attended)
  | built form column length starts ends abreast attended =>
    have there := column.inside (show p ∈ p :: _ from List.mem_cons_self)
    exact .built form ⟨(column.encloses.streaming (known there)).1, column.stack.wider column.encloses.whole new fun _ _ => rfl,
      column.nodup, column.members⟩ length starts ends (Abreast.congr abreast fun _ _ => rfl)
      (attends column.encloses.hides.cursorThere attended)

/-! ## Histories -/

namespace Session

/-- Whether recording a key never signals an end in any of these operations. -/
def isQuiet (n : Nat) (p : SequenceId) : List Op → Session → Bool
  | [], _ => true
  | op :: rest, session =>
    !isSpent ((op.run (quiet n) p session.streams).from? session.store).1 &&
      match session.perform n p op with
      | none => true
      | some (_, later) => isQuiet n p rest later

/-- What an operation takes a session to. -/
theorem perform_goes {session later : Session} {op : Op} {outcome : Outcome}
    (stands : session.store.AtSite p steps data many session.streams site)
    (quietly : isSpent ((op.run (quiet n) p session.streams).from? session.store).1 = false)
    (performs : session.perform n p op = some (outcome, later)) :
    ∃ site', later.store.AtSite p steps data many later.streams site' ∧ (site'.below ≠ [] → ∃ laps,
      session.store.TellsLaps (p :: site'.below) laps site.exhausted site'.exhausted later.store ∧
        (op = .rewind → (∃ answer, outcome.answer = .ok answer) → laps = [.rewound])) := by
  have enough : ((op.run (quiet n) p session.streams).from? session.store).1 ≠ .error .outOfFuel := fun same => by
    rw [same] at quietly
    cases quietly
  have same := Quietly.leaves (widens_op op p session.streams) enough
  rcases session with ⟨store, streams⟩
  rcases ends : (op.run (quiet n) p streams).from? store with ⟨ended, after⟩
  simp only at stands same enough
  simp only [perform, same, ends] at performs
  rw [ends] at enough
  by_cases begins : op = .stream
  · subst begins
    cases ends
    cases performs
    exact ⟨site, stands.streaming, fun _ => ⟨[], ⟨rfl, (List.append_nil _).symm⟩, fun same => by cases same⟩⟩
  by_cases rewinds : op = .rewind
  · subst rewinds
    rcases bind_ends ends with ⟨halt, stops, rfl⟩ | ⟨_, left, rewound, ends⟩
    · have enough' : (.error halt : Except Halt Unit) ≠ .error .outOfFuel := fun same => enough (by cases same; rfl)
      cases stands with
      | planned plans length top attends =>
        have again := rewind_planned plans length attends stops enough'
        cases halt with
        | outOfFuel => exact absurd rfl enough
        | fault =>
          cases performs
          exact ⟨{}, again, fun isBuilt => absurd rfl isBuilt⟩
      | built form column length starts ends' abreast attends =>
        have isBuilt := List.ne_nil_of_length_eq_add_one length
        rcases rewind_goes (.built form column length starts ends' abreast attends) isBuilt stops enough' with
          ⟨same, -⟩ | ⟨fault, same, goes⟩
        · cases same
        · cases same
          cases performs
          refine ⟨_, goes.arrives, fun _ => ⟨_, ⟨goes.follows, goes.told⟩, fun _ returns => by cases returns.choose_spec⟩⟩
    · cases ends
      cases performs
      cases stands with
      | planned plans length top attends =>
        exact ⟨{}, rewind_planned plans length attends rewound (by simp), fun isBuilt => absurd rfl isBuilt⟩
      | built form column length starts ends' abreast attends =>
        have isBuilt := List.ne_nil_of_length_eq_add_one length
        rcases rewind_goes (.built form column length starts ends' abreast attends) isBuilt rewound (by simp) with
          ⟨-, goes⟩ | ⟨fault, same, -⟩
        · exact ⟨_, goes.arrives, fun _ => ⟨_, ⟨goes.follows, goes.told⟩, fun _ _ => rfl⟩⟩
        · cases same
  · have tours := tours_op rewinds begins site store stands (by rwa [ends])
    rw [ends] at tours
    obtain ⟨⟨site', laps, goes⟩, fine⟩ := tours
    have told : site'.below ≠ [] → ∃ laps, store.TellsLaps (p :: site'.below) laps site.exhausted site'.exhausted after ∧
        (op = .rewind → (∃ answer, outcome.answer = .ok answer) → laps = [.rewound]) :=
      fun _ => ⟨laps, ⟨goes.follows, goes.told⟩, fun same => absurd same rewinds⟩
    rcases ended with (fault | _) | ⟨answer, streams'⟩
    · cases performs
      exact ⟨site', goes.arrives, told⟩
    · exact absurd rfl enough
    · cases performs
      cases fine _ rfl
      exact ⟨site', goes.arrives, told⟩

/-- What a history takes a session to. -/
theorem play_goes {session later : Session} {ops : List Op} {outcomes : List Outcome}
    (stands : session.store.AtSite p steps data many session.streams site) (quietly : session.isQuiet n p ops = true)
    (plays : session.play n p ops = some (outcomes, later)) :
    ∃ site', later.store.AtSite p steps data many later.streams site' := by
  induction ops generalizing session site outcomes with
  | nil =>
    cases plays
    exact ⟨site, stands⟩
  | cons op rest ih =>
    simp only [isQuiet, Bool.and_eq_true, Bool.not_eq_true'] at quietly
    rw [play] at plays
    cases performs : session.perform n p op with
    | none => simp [performs] at plays
    | some performed =>
      obtain ⟨outcome, between⟩ := performed
      simp only [performs] at plays quietly
      obtain ⟨site', arrives, -⟩ := perform_goes stands quietly.1 performs
      cases others : between.play n p rest with
      | none => simp [others] at plays
      | some played =>
        obtain ⟨outcomes', last⟩ := played
        simp only [others] at plays
        cases plays
        exact ih arrives quietly.2 others

end Session

/-! ## The theorem -/

/-- Whether a pipeline of distinct stages on data is made where no reference leads nowhere. -/
structure Store.Founds (store : Store) (steps : ListId) (data : Value) (multi : Bool) (p : SequenceId) (made : Store) : Prop where
  whole : store.Whole
  listed : steps.index < store.lists.size
  stages : ∀ step ∈ store.list steps, store.IsDistinct step
  known : store.Knows data
  usable : store.Usable data
  makes : (Run.newPipeline (.object (.list steps)) data (.bool multi)).from? store = (.ok p, made)

/-- A pipeline that was just made is at its beginning, and not built. -/
theorem Store.Founds.atSite {store made : Store} {multi : Bool} (founds : store.Founds steps data multi p made) :
    made.AtSite p steps data (store.list steps).length [] {} := by
  obtain ⟨whole, listed, stages, known, usable, ends⟩ := founds
  have are : ∀ step ∈ store.list steps, store.isStep step = true := by
    intro step member
    obtain ⟨s, key, limit, rfl, found⟩ := stages step member
    simp only [Store.isStep, found]
  rw [from?_newPipeline are] at ends
  cases ends
  have avoids : data.Avoids (Ref.Among [⟨store.sequences.size⟩] []) := by
    refine Value.Avoids.less (fun ref held => ?_) known
    cases ref with
    | sequence id =>
      rw [List.mem_singleton.mp held]
      exact Nat.le_refl _
    | _ => cases held
  have held : (Body.pipeline steps data .null).Avoids store.Lacks :=
    ⟨Nat.not_le_of_lt listed, known, Value.avoids_of_refs_nil rfl⟩
  refine .planned ⟨?_, ?_, usable.outward rfl rfl, avoids, stages⟩ rfl ?_ fun _ member => by cases member
  · exact ((encloses_nothing whole).joined ⟨held, by simp⟩ fun id => by simp).1
  · rw [sequence_joined_new]
  · rw [sequence_joined_new]
    exact ⟨rfl, rfl, rfl⟩

/-- Whether a pipeline of so many stages, with its output, is in lockstep with its chain: at its beginning as long as there is no
output, and else made of so many stages and a ground that stand where it stands. -/
structure Store.InLockstep (store : Store) (p : SequenceId) (many : Nat) (output : Value) : Prop where
  unbuilt : output.isNull = true → (store.sequence p).IsAt false false
  built : output.isNull = false → ∃ below, below.length = many + 1 ∧ store.IsChain (p :: below) ∧
    store.Abreast below (store.sequence p).started (store.sequence p).exhausted

theorem Store.AtSite.inLockstep {store : Store} (stands : store.AtSite p steps data many streams site) :
    ∃ output, (store.sequence p).body = .pipeline steps data output ∧ store.InLockstep p many output := by
  cases stands with
  | planned plans length top attends => exact ⟨_, plans.form, fun _ => top, fun built => by cases built⟩
  | built form column length starts ends abreast attends =>
    refine ⟨_, form, fun none => ?_, fun _ => ⟨_, length, column.stack.isChain, by rw [starts, ends]; exact abreast⟩⟩
    cases stack : column.stack with
    | pipeline form' =>
      rw [form'] at form
      cases form
      cases none
    | _ => simp_all

/-- Whatever is asked of a pipeline of distinct stages over data, and of its streams, its chain remains in lockstep, where
recording a key never signals an end. -/
theorem flags_in_lockstep {store made : Store} {multi : Bool} {ops : List Op} {outcomes : List Outcome} {session : Session}
    (founds : store.Founds steps data multi p made) (quietly : Session.isQuiet n p ops ⟨made, []⟩ = true)
    (plays : Session.play n p ops ⟨made, []⟩ = some (outcomes, session)) :
    ∃ output, (session.store.sequence p).body = .pipeline steps data output ∧
      session.store.InLockstep p (store.list steps).length output := by
  obtain ⟨site, stands⟩ := Session.play_goes founds.atSite quietly plays
  exact stands.inLockstep

/-- A store with a list of two distinct steps and the list `[1, 2, 1]`. -/
def Store.material : Store where
  lists := #[[.object (.step ⟨0⟩), .object (.step ⟨0⟩)], [.int 1, .int 2, .int 1]]
  steps := #[.distinct .null (.int 10000)]

theorem Store.whole_material : material.Whole := by
  have plain : ∀ {v : Value}, v.refs = [] → material.Knows v := Value.avoids_of_refs_nil
  refine whole_of_each (by simp [material]) (by simp [material]) (by simp [material]) ?_ (by simp [material])
    (by simp [material]) ?_
  · intro items member v held
    rcases List.mem_pair.mp (List.mem_toArray.mp member) with rfl | rfl
    · obtain rfl : v = .object (.step ⟨0⟩) := by simpa using held
      intro ref same
      rw [List.mem_singleton.mp same]
      exact Nat.not_le_of_lt Nat.zero_lt_one
    · simp only [List.mem_cons, List.not_mem_nil, or_false] at held
      rcases held with rfl | rfl | rfl <;> exact plain rfl
  · intro step member
    rw [List.mem_singleton.mp (List.mem_toArray.mp member)]
    exact plain rfl

theorem Store.founds_material : material.Founds ⟨0⟩ (.object (.list ⟨1⟩)) false ⟨0⟩
    (material.joined { body := .pipeline ⟨0⟩ (.object (.list ⟨1⟩)) .null }) where
  whole := whole_material
  listed := Nat.zero_lt_two
  stages step member := ⟨⟨0⟩, .null, .int 10000, by simpa [material, Store.list] using member, rfl⟩
  known ref same := by
    rw [List.mem_singleton.mp same]
    exact Nat.not_le_of_lt Nat.one_lt_two
  usable := ⟨fun _ same => (by cases same), .inl rfl⟩
  makes := by rfl

/-- An element was peeked at, a stream was begun, the pipeline was taken back, and all its elements were collected. -/
theorem flags_in_lockstep_material :
    ∃ outcomes session output, Session.play 20 ⟨0⟩ [.peek, .stream, .pull 0, .next, .rewind, .multiValue, .collect]
        ⟨material.joined { body := .pipeline ⟨0⟩ (.object (.list ⟨1⟩)) .null }, []⟩ = some (outcomes, session) ∧
      (session.store.sequence ⟨0⟩).body = .pipeline ⟨0⟩ (.object (.list ⟨1⟩)) output ∧
      session.store.InLockstep ⟨0⟩ 2 output := by
  obtain ⟨⟨outcomes, session⟩, plays⟩ := Option.isSome_iff_exists.mp (show (Session.play 20 ⟨0⟩
    [.peek, .stream, .pull 0, .next, .rewind, .multiValue, .collect]
    ⟨material.joined { body := .pipeline ⟨0⟩ (.object (.list ⟨1⟩)) .null }, []⟩).isSome = true by decide +kernel)
  obtain ⟨output, form, lockstep⟩ := flags_in_lockstep founds_material (by decide +kernel) plays
  exact ⟨outcomes, session, output, plays, form, lockstep⟩

end FirstSeen
