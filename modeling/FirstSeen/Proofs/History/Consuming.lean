import FirstSeen.Proofs.History.Session
import FirstSeen.Proofs.Tower.Waking

/-!
# What a session takes in a pass

Elements are asked for one by one, or looked at ahead, and questions are asked in between. At any time the source was
moved on just up to the last element that was told, or past its end, and key functions were asked for no more than the
elements that their stages got. An element that is looked at ahead counts when it is, and not again when it is handed
out.
-/

set_option autoImplicit false

namespace FirstSeen

/-! ## What operations pull -/

namespace Op

/-- Whether an operation takes one element at most, and begins nothing again. -/
def isSingle : Op → Bool
  | next | peek | size | multiValue => true
  | _ => false

/-- Whether an operation asks for an element. -/
def wants : Op → Bool
  | next | peek => true
  | _ => false

/-- What an operation with this answer pulled, given whether an element was ahead, and whether one is then. An end is
not counted. -/
def pulled (op : Op) (ahead : Bool) (answer : Except Fault (Answer Value)) : List (Except Fault Value) × Bool :=
  match op, answer with
  | next, .ok (.element v) => (if ahead then [] else [.ok v], false)
  | peek, .ok (.element v) => (if ahead then [] else [.ok v], true)
  | next, .error fault | peek, .error fault => (if fault.isEnd then [] else [.error fault], ahead)
  | _, _ => ([], ahead)

end Op

/-- What operations with these outcomes pulled, in order. An element that was looked at ahead counts then. -/
def pulls : Bool → List Op → List Outcome → List (Except Fault Value)
  | ahead, op :: ops, seen :: outcomes =>
    (op.pulled ahead seen.answer).1 ++ pulls (op.pulled ahead seen.answer).2 ops outcomes
  | _, _, _ => []

/-- Whether an operation that asks for an element met the end. -/
def MetEnd (ops : List Op) (outcomes : List Outcome) : Prop :=
  ∃ op seen, (op, seen) ∈ ops.zip outcomes ∧ op.wants = true ∧ seen.answer = .error .ended

/-! ## The state of a pass -/

/-- Whether a calm tower draws from a tape without faults, whose elements its stages judge by tame keys. -/
structure Tower.Draws (E : Item → Prop) (tower : Tower) (tape : Tape) : Prop where
  calm : tower.Calm
  source : tower.source = some tape
  free : tape.ErrorFree
  within : tape.Within E
  tame : Stage.Tame E tower.stages

/-- A tower goes on drawing from its tape. -/
theorem Tower.Draws.left {E : Item → Prop} {tower left : Tower} {tape last : Tape} {items : List Item}
    (draws : tower.Draws E tape) (reaches : tape.Reaches items last)
    (leaves : left.LeftBy tower last (Stage.sieveAll tower.stages items)) : left.Draws E last := by
  obtain ⟨within, domain⟩ := draws.within.reached reaches
  refine ⟨leaves.calm, leaves.source, ?_, within, ?_⟩
  · rw [Tape.ErrorFree, reaches.script]
    exact draws.free
  · rw [leaves.stages]
    exact draws.tame.sieveAll domain

/-- Where a pass begins: a store, and the tower that a pipeline over data stands as in it. -/
structure Intake (E : Item → Prop) where
  store : Store
  tower : Tower
  tape : Tape
  ground : Body
  keyAt : Nat → Value
  multi : Bool
  grounds : store.Grounds ground
  draws : tower.Draws E tape

namespace Intake

variable {E : Item → Prop} (intake : Intake E) (D : Item → Prop) (aside : Option CursorId) (p : SequenceId)

/-- Whether deeds lead from where a pass begins to a store. -/
def Leads (deeds : List Deed) (held : Option CursorId) (after : Store) : Prop :=
  Tap.Leads intake.ground.opener intake.multi intake.keyAt ⟨intake.store, none⟩ deeds ⟨after, held⟩

/-- Whether a pass that goes on has taken these elements, of which the last one was told. -/
structure Going (store : Store) (tower : Tower) (items : List Item) (last : Tape) : Prop where
  grows : intake.store.Grows store
  reaches : intake.tape.Reaches items last
  takes : ∃ held, store.Prepared D aside intake.multi intake.ground intake.keyAt held p tower ∧
    intake.Leads (Stage.deeds intake.tower.heights intake.tower.stages items) held store
  leaves : (tower.withPass { tower.pass with peeked := none }).LeftBy intake.tower last
    (Stage.sieveAll intake.tower.stages items)
  settled : ∀ k < items.length,
    (Stage.told intake.tower.stages (items.take k)).length < (Stage.told intake.tower.stages items).length

/-- Whether a pass is over after these elements, which are all that there are. -/
structure Over (store : Store) (tower : Tower) (items : List Item) (last : Tape) : Prop where
  reaches : intake.tape.Reaches items last
  ended : last.Ended
  awake : store.Awake D aside intake.multi p tower
  exhausted : tower.pass.exhausted = true
  unpeeked : tower.pass.peeked = none
  high : tower.height = intake.tower.height
  takes : ∃ held, intake.Leads (Stage.deeds intake.tower.heights intake.tower.stages items ++ [.drew]) held store

/-- Whether a pass has taken these elements. -/
def Taken (store : Store) (tower : Tower) (items : List Item) (last : Tape) : Prop :=
  intake.Going D aside p store tower items last ∨ intake.Over D aside p store tower items last

/-- What comes of asking for an element in a pass that goes on: something is told, or the pass is over. -/
inductive Asked (items : List Item) (after : Store) (told : Draw) (left : Tower) : Prop
  | told {more : List Item} {last : Tape} (going : intake.Going D aside p after left (items ++ more) last)
      (unpeeked : left.pass.peeked = none) (started : left.pass.started = true)
      (tells : Stage.told (Stage.sieveAll intake.tower.stages items) more = [told]) (noEnd : NoEnd told)
  | spent {more : List Item} {last : Tape} (spent : intake.Over D aside p after left (items ++ more) last)
      (silent : Stage.told (Stage.sieveAll intake.tower.stages items) more = []) (signals : told = .error .ended)

variable {intake D aside p}

/-- A pass begins with no element taken. -/
theorem begins (prepared : intake.store.Prepared D aside intake.multi intake.ground intake.keyAt none p intake.tower) :
    intake.Going D aside p intake.store intake.tower [] intake.tape := by
  have calm := intake.draws.calm
  have same : { intake.tower.pass with peeked := none } = intake.tower.pass := by rw [← calm.pass.1]
  refine ⟨.refl _, rfl, ⟨none, prepared, .still none rfl⟩, ?_, by rintro _ ⟨⟩⟩
  rw [same, Tower.withPass_pass]
  exact ⟨intake.draws.source, rfl, rfl, rfl, calm⟩

/-- Fewer elements than those up to the first that is told are not told of. -/
theorem told_take {stages : List Stage} {items more front : List Item} {item : Item} {told : Draw}
    (settled : ∀ k < items.length, (Stage.told stages (items.take k)).length < (Stage.told stages items).length)
    (split : more = front ++ [item]) (silent : Stage.told (Stage.sieveAll stages items) front = [])
    (tells : Stage.told (Stage.sieveAll stages items) more = [told]) (k : Nat) (less : k < (items ++ more).length) :
    (Stage.told stages ((items ++ more).take k)).length < (Stage.told stages (items ++ more)).length := by
  rw [Stage.told_append, tells, List.length_append, List.length_singleton, List.take_append]
  by_cases few : k < items.length
  · have none : more.take (k - items.length) = [] := by rw [Nat.sub_eq_zero_of_le (Nat.le_of_lt few), List.take_zero]
    rw [none, List.append_nil]
    exact Nat.lt_succ_of_lt (settled k few)
  · rw [List.take_of_length_le (Nat.le_of_not_lt few), Stage.told_append, List.length_append]
    have within : more.take (k - items.length) = front.take (k - items.length) := by
      rw [split, List.take_append_of_le_length]
      rw [split, List.length_append, List.length_append, List.length_singleton] at less
      omega
    -- What is told of the elements before the last one is told of all of them.
    have quiet : Stage.told (Stage.sieveAll stages items) (front.take (k - items.length)) = [] := by
      have both := Stage.told_append (Stage.sieveAll stages items) (front.take (k - items.length))
        (front.drop (k - items.length))
      rw [List.take_append_drop, silent] at both
      exact (List.append_eq_nil_iff.mp both.symm).1
    rw [within, quiet, List.length_nil]
    omega

/-- Asking for an element takes those up to the first that is told, or all of them and the end. -/
theorem Going.ask {store : Store} {tower : Tower} {items : List Item} {last : Tape} {n : Nat}
    (going : intake.Going D aside p store tower items last) (unpeeked : tower.pass.peeked = none)
    (deep : 4 * tower.height ≤ n) :
    match tower.next n with
    | none => (((calls n).next p).from? store).1 = .error .outOfFuel
    | some (told, left) => (((calls n).next p).from? store).2.Delivers D (((calls n).next p).from? store).1 told ∧
        Asked intake D aside p items (((calls n).next p).from? store).2 told left := by
  obtain ⟨grows, reaches, ⟨held, prepared, leads⟩, leaves, settled⟩ := going
  have same : { tower.pass with peeked := none } = tower.pass := by rw [← unpeeked]
  rw [same, Tower.withPass_pass] at leaves
  have draws := intake.draws.left reaches leaves
  have asked := Store.next_prepared intake.grounds grows prepared leaves.calm deep
  cases ends : tower.next n with
  | none =>
    rw [ends] at asked
    exact asked
  | some pair =>
    obtain ⟨told, left⟩ := pair
    rw [ends] at asked
    obtain ⟨deeds, surfaces, delivers, ⟨ids, stands⟩, grown, held', leads', threads⟩ := asked
    refine ⟨delivers, ?_⟩
    obtain ⟨more, moved, told' | spent⟩ := surfaces.items leaves.calm draws.source draws.free draws.within draws.tame
    · obtain ⟨reaches', rfl, tells, ⟨front, item, split, silent⟩, leaves', noEnd⟩ := told'
      have all := leads.trans leads'
      rw [leaves.heights, leaves.stages, ← Stage.deeds_append] at all
      rw [leaves.stages] at tells silent leaves'
      have calm := leaves'.calm.pass
      have still : { left.pass with peeked := none } = left.pass := by rw [← calm.1]
      refine .told ⟨grows.trans grown, reaches.append reaches',
        ⟨held', .inl (threads noEnd), all⟩, ?_, told_take settled split silent tells⟩ calm.1 ?_ tells noEnd
      · rw [still, Tower.withPass_pass, Stage.sieveAll_append]
        exact ⟨leaves'.source, leaves'.stages, leaves'.heights.trans leaves.heights,
          leaves'.height.trans leaves.height, leaves'.calm⟩
      · rcases Tower.started_next ends with started | ⟨-, peeked | ⟨spent, -⟩⟩
        · exact started
        · exact absurd unpeeked peeked
        · rw [leaves.calm.pass.2] at spent
          cases spent
    · obtain ⟨reaches', ended, rfl, silent, rfl, unpeeked', spent⟩ := spent
      have all := leads.trans leads'
      rw [leaves.heights, leaves.stages, ← List.append_assoc, ← Stage.deeds_append] at all
      rw [leaves.stages] at silent
      exact .spent ⟨reaches.append reaches', ended, ⟨ids, stands⟩, spent, unpeeked',
        (Tower.height_next ends).trans leaves.height, held', all⟩ silent rfl

end Intake

/-! ## Operations -/

/-- What an operation that asks for an element comes to. -/
theorem Session.perform_element {n : Nat} {p : SequenceId} {op : Op} {session : Session} (run : Run Value)
    (form : op.run (calls n) p session.streams = (do return (.element (← run), session.streams))) :
    session.perform n p op =
      match run.from? session.store with
      | (.error .outOfFuel, _) => none
      | (.error (.fault fault), left) =>
        some (⟨.error fault, (left.sequence p).started, (left.sequence p).exhausted⟩, ⟨left, session.streams⟩)
      | (.ok v, left) => some (⟨.ok (.element (left.contents v)), (left.sequence p).started,
          (left.sequence p).exhausted⟩, ⟨left, session.streams⟩) := by
  rw [Session.perform, form, Run.from?_bind]
  rcases run.from? session.store with ⟨(fault | _) | v, left⟩ <;> rfl

namespace Intake

variable {E : Item → Prop} {intake : Intake E} {D : Item → Prop} {aside : Option CursorId} {p : SequenceId}

variable (intake D aside p) in
/-- What one operation of a pass comes to. -/
structure Advanced (op : Op) (tower : Tower) (items : List Item) (seen : Outcome) (after : Store) (left : Tower)
    (more : List Item) (moved : Tape) : Prop where
  taken : intake.Taken D aside p after left (items ++ more) moved
  pulled : op.pulled tower.pass.peeked.isSome seen.answer =
    ((Stage.told (Stage.sieveAll intake.tower.stages items) more).map (Except.map Item.contents),
      left.pass.peeked.isSome)
  exhausted : left.pass.exhausted = true ↔
    tower.pass.exhausted = true ∨ op.wants = true ∧ seen.answer = .error .ended

/-- An operation that takes nothing. -/
theorem Advanced.idle {op : Op} {tower : Tower} {items : List Item} {seen : Outcome} {after : Store} {left : Tower}
    {last : Tape} (taken : intake.Taken D aside p after left items last)
    (pulled : op.pulled tower.pass.peeked.isSome seen.answer = ([], left.pass.peeked.isSome))
    (exhausted : left.pass.exhausted = true ↔
      tower.pass.exhausted = true ∨ op.wants = true ∧ seen.answer = .error .ended) :
    Advanced intake D aside p op tower items seen after left [] last :=
  ⟨by rwa [List.append_nil], pulled, exhausted⟩

/-- A pass goes on after what changed only where the pass of the topmost sequence is. -/
theorem Going.moved {store after : Store} {tower left : Tower} {items : List Item} {last : Tape} 
    (going : intake.Going D aside p store tower items last) (same : after.beneath = store.beneath)
    (form : left.withPass { left.pass with peeked := none } = tower.withPass { tower.pass with peeked := none })
    (threads : ∀ held, store.Prepared D aside intake.multi intake.ground intake.keyAt held p tower →
      after.Threads D aside intake.multi intake.ground intake.keyAt held p left) :
    intake.Going D aside p after left items last := by
  obtain ⟨grows, reaches, ⟨held, prepared, leads⟩, leaves, settled⟩ := going
  exact ⟨grows.of_beneath same, reaches, ⟨held, .inl (threads held prepared), leads.then same⟩, by rwa [form], settled⟩

theorem Going.going {store : Store} {tower : Tower} {items : List Item} {last : Tape}
    (going : intake.Going D aside p store tower items last) : tower.pass.exhausted = false := by
  have calm := going.leaves.calm.pass.2
  rwa [Tower.pass_withPass] at calm

theorem Going.passes {store : Store} {tower : Tower} {items : List Item} {last : Tape}
    (going : intake.Going D aside p store tower items last) : store.Passes D p tower.pass := by
  obtain ⟨held, prepared, -⟩ := going.takes
  exact prepared.passes

theorem Taken.passes {store : Store} {tower : Tower} {items : List Item} {last : Tape}
    (taken : intake.Taken D aside p store tower items last) : store.Passes D p tower.pass := by
  rcases taken with going | spent
  · exact going.passes
  · obtain ⟨ids, stands⟩ := spent.awake
    exact stands.passes

/-- A tower stays as high as it was when the pass began. -/
theorem Taken.height {store : Store} {tower : Tower} {items : List Item} {last : Tape}
    (taken : intake.Taken D aside p store tower items last) : tower.height = intake.tower.height := by
  rcases taken with going | spent
  · have height := going.leaves.height
    rwa [Tower.height_withPass] at height
  · exact spent.high

/-- A sequence has an element ahead if its tower has. -/
theorem peeked_of_passes {store : Store} {pass : Pass} (passes : store.Passes D p pass) :
    (pass.peeked = none ∧ (store.sequence p).peeked = none) ∨
      ∃ item v, pass.peeked = some item ∧ (store.sequence p).peeked = some v ∧ store.Shows D item v := by
  have peeks := passes.peeked
  cases held : (store.sequence p).peeked <;> cases ahead : pass.peeked <;> rw [held, ahead] at peeks
  · exact .inl ⟨rfl, rfl⟩
  · exact peeks.elim
  · exact peeks.elim
  · exact .inr ⟨_, _, rfl, rfl, peeks⟩

/-- What was told in a pass that was asked for an element counts as pulled. -/
theorem Asked.pulled (op : Op) {items : List Item} {after : Store} {told : Draw} {left : Tower}
    {answer : Except Fault (Answer Value)}
    (asked : Asked intake D aside p items after told left)
    (wants : op.wants = true) (answers : answer = told.map fun item => .element item.contents) :
    ∃ more moved, intake.Taken D aside p after left (items ++ more) moved ∧
      (op.pulled false answer).1 =
        (Stage.told (Stage.sieveAll intake.tower.stages items) more).map (Except.map Item.contents) ∧
      (left.pass.exhausted = true ↔ op.wants = true ∧ answer = .error .ended) ∧ left.pass.peeked = none ∧
      (op.pulled false answer).2 = (answer.toOption.isSome && op == .peek) ∧
      (∀ item, told = .ok item → left.pass.started = true ∧ intake.Going D aside p after left (items ++ more) moved) := by
  have kinds : op = .next ∨ op = .peek := by cases op <;> simp_all [Op.wants]
  subst answers
  cases asked with
  | @told more moved going unpeeked started tells noEnd =>
    refine ⟨more, moved, .inl going, ?_, ?_, unpeeked, ?_, fun _ _ => ⟨started, going⟩⟩
    · rw [tells]
      rcases told with fault | item
      · have signals := noEnd fault rfl
        rcases kinds with rfl | rfl <;> simp [Op.pulled, Except.map, signals]
      · rcases kinds with rfl | rfl <;> rfl
    · rw [going.going]
      refine ⟨by rintro ⟨⟩, ?_⟩
      rintro ⟨-, same⟩
      rcases told with fault | item
      · obtain rfl : fault = .ended := Except.error.inj same
        exact absurd (noEnd _ rfl) (by decide)
      · cases same
    · rcases told with fault | item <;> rcases kinds with rfl | rfl <;> rfl
  | @spent more moved spent silent signals =>
    subst signals
    refine ⟨more, moved, .inr spent, ?_, ?_, spent.unpeeked, ?_, by rintro _ ⟨⟩⟩
    · rw [silent]
      rcases kinds with rfl | rfl <;> rfl
    · exact ⟨fun _ => ⟨wants, rfl⟩, fun _ => spent.exhausted⟩
    · rcases kinds with rfl | rfl <;> rfl

/-- Asking for the next element advances a pass that goes on. -/
theorem Going.next {session after : Session} {tower : Tower} {items : List Item} {last : Tape} {n : Nat}
    {seen : Outcome} (going : intake.Going D aside p session.store tower items last) (deep : 4 * tower.height ≤ n)
    (ends : session.perform n p .next = some (seen, after)) :
    ∃ left more moved, Advanced intake D aside p .next tower items seen after.store left
      more moved := by
  rw [Session.perform_element ((calls n).next p) rfl] at ends
  rcases peeked_of_passes going.passes with ⟨unpeeked, -⟩ | ⟨item, v, ahead, held, shows'⟩
  · have asked := going.ask unpeeked deep
    rcases run : ((calls n).next p).from? session.store with ⟨ended, store⟩
    rw [run] at asked ends
    cases asks : tower.next n with
    | none =>
      rw [asks] at asked
      obtain rfl : ended = .error .outOfFuel := asked
      cases ends
    | some pair =>
      obtain ⟨told, left⟩ := pair
      rw [asks] at asked
      obtain ⟨delivers, asked⟩ := asked
      obtain ⟨answer, same⟩ : (seen.answer = told.map fun item => .element item.contents) ∧ after.store = store := by
        rcases told with fault | item <;> rcases ended with halt | v <;> try exact delivers.elim
        · obtain rfl : halt = .fault fault := delivers
          cases ends
          exact ⟨rfl, rfl⟩
        · cases ends
          exact ⟨by rw [delivers.contents]; rfl, rfl⟩
      subst same
      obtain ⟨more, moved, taken, pulled, exhausted, unpeeked', ahead, -⟩ := asked.pulled .next rfl answer
      refine ⟨left, more, moved, taken, ?_, ?_⟩
      · rw [unpeeked]
        exact Prod.ext pulled (ahead.trans (by rw [unpeeked']; simp))
      · rw [going.going]
        exact ⟨fun spent => .inr (exhausted.mp spent), fun met => exhausted.mpr (met.resolve_left (by simp))⟩
  · -- The element that was looked at ahead is handed out.
    obtain ⟨n, rfl⟩ : ∃ k, n = k + 1 := ⟨n - 1, by have := tower.height_pos; omega⟩
    let give (state : SequenceState) : SequenceState := { state with peeked := none }
    have run : ((calls (n + 1)).next p).from? session.store = (.ok v, session.store.updated p give) := by
      change ((calls n).nextWith p).from? session.store = _
      rw [Calls.nextWith, Run.from?_bind_ok (Run.from?_sequence ..), held]
      rfl
    rw [run] at ends
    cases ends
    obtain ⟨inside, started, exhausted, -⟩ := going.passes
    have there := Store.sequence_updated (f := give) inside
    have passes : (session.store.updated p give).Passes D p { tower.pass with peeked := none } :=
      ⟨by simpa using inside, by rw [there]; exact started, by rw [there]; exact exhausted, by rw [there]; trivial⟩
    have busy : tower.pass ≠ {} := fun same => by rw [same] at ahead; cases ahead
    have going' : intake.Going D aside p (session.store.updated p give)
        (tower.withPass { tower.pass with peeked := none }) items last := by
      refine going.moved rfl (by simp) fun held' prepared => ?_
      exact (prepared.threads busy).repass _ intake.grounds.base (fun _ => rfl) (fun _ => rfl) passes
    refine ⟨_, [], last, .idle (.inl going') ?_ ?_⟩
    · rw [ahead]
      simp [Op.pulled, Tower.pass_withPass]
    · rw [Tower.pass_withPass, going.going]
      simp

/-- Looking ahead advances a pass that goes on. -/
theorem Going.peek {session after : Session} {tower : Tower} {items : List Item} {last : Tape} {n : Nat}
    {seen : Outcome} (going : intake.Going D aside p session.store tower items last) (deep : 4 * tower.height ≤ n)
    (ends : session.perform n p .peek = some (seen, after)) :
    ∃ left more moved, Advanced intake D aside p .peek tower items seen after.store left
      more moved := by
  rw [Session.perform_element ((calls n).peek p) rfl] at ends
  rcases peeked_of_passes going.passes with ⟨unpeeked, held⟩ | ⟨item, v, ahead, held, shows'⟩
  · have asked := going.ask unpeeked deep
    rw [Calls.peek, Run.from?_bind_ok (Run.from?_sequence ..), held] at ends
    simp only [Run.from?_bind] at ends
    rcases run : ((calls n).next p).from? session.store with ⟨ended, store⟩
    rw [run] at asked ends
    cases asks : tower.next n with
    | none =>
      rw [asks] at asked
      obtain rfl : ended = .error .outOfFuel := asked
      cases ends
    | some pair =>
      obtain ⟨told, left⟩ := pair
      rw [asks] at asked
      obtain ⟨delivers, asked⟩ := asked
      obtain ⟨more, moved, taken, pulled, exhausted, unpeeked', ahead, further⟩ := asked.pulled .peek rfl rfl
      rcases told with fault | item <;> rcases ended with halt | v <;> try exact delivers.elim
      · obtain rfl : halt = .fault fault := delivers
        cases ends
        refine ⟨left, more, moved, taken, ?_, ?_⟩
        · rw [unpeeked]
          exact Prod.ext pulled (ahead.trans (by rw [unpeeked']; rfl))
        · rw [going.going]
          exact ⟨fun spent => .inr (exhausted.mp spent), fun met => exhausted.mpr (met.resolve_left (by simp))⟩
      · cases ends
        obtain ⟨started, going'⟩ := further item rfl
        let keep (state : SequenceState) : SequenceState := { state with peeked := some v }
        obtain ⟨inside, started', exhausted', -⟩ := going'.passes
        have there := Store.sequence_updated (f := keep) inside
        have grows := Store.grows_updated store p keep
        have shows' := grows.shows delivers
        have passes : (store.updated p keep).Passes D p { left.pass with peeked := some item } :=
          ⟨by simpa using inside, by rw [there]; exact started', by rw [there]; exact exhausted', by
            rw [there]; exact shows'⟩
        have busy : left.pass ≠ {} := fun same => by rw [same] at started; cases started
        have going'' : intake.Going D aside p (store.updated p keep)
            (left.withPass { left.pass with peeked := some item }) (items ++ more) moved := by
          refine going'.moved rfl (by simp) fun held' prepared => ?_
          exact (prepared.threads busy).repass _ intake.grounds.base (fun _ => rfl) (fun _ => rfl) passes
        refine ⟨_, more, moved, .inl going'', ?_, ?_⟩
        · rw [unpeeked, ← pulled]
          have same : (store.updated p keep).contents v = item.contents := shows'.contents
          simp only [Op.pulled, Tower.pass_withPass]
          refine Prod.ext ?_ rfl
          change [Except.ok ((store.updated p keep).contents v)] = [Except.ok item.contents]
          rw [same]
        · rw [Tower.pass_withPass, going.going]
          have going := going'.going
          simp [going]
  · have run : ((calls n).peek p).from? session.store = (.ok v, session.store) := by
      rw [Calls.peek, Run.from?_bind_ok (Run.from?_sequence ..), held]
      rfl
    rw [run] at ends
    cases ends
    refine ⟨tower, [], last, .idle (.inl going) ?_ ?_⟩
    · rw [ahead]
      rfl
    · simp

/-- A question takes nothing. -/
theorem Going.question {session after : Session} {tower : Tower} {items : List Item} {last : Tape} {n : Nat}
    {op : Op} {seen : Outcome} (going : intake.Going D aside p session.store tower items last)
    (asks : op = .size ∨ op = .multiValue) (deep : 4 * tower.height ≤ n)
    (ends : session.perform n p op = some (seen, after)) :
    ∃ left more moved, Advanced intake D aside p op tower items seen after.store left
      more moved := by
  have silent : ∀ ahead answer, op.pulled ahead answer = ([], ahead) := by
    rcases asks with rfl | rfl <;> exact fun _ _ => rfl
  have wants : op.wants = false := by rcases asks with rfl | rfl <;> rfl
  obtain ⟨held, prepared, -⟩ := going.takes
  -- Either question is told by the tower, which stays where it is.
  have stays : ∃ store, after.store = store ∧ store.beneath = session.store.beneath ∧
      ∀ held, session.store.Prepared D aside intake.multi intake.ground intake.keyAt held p tower →
        store.Threads D aside intake.multi intake.ground intake.keyAt held p tower := by
    rcases asks with rfl | rfl
    · obtain ⟨store, run, -, beneath⟩ := Store.size_prepared prepared deep
      refine ⟨store, ?_, beneath, fun held' prepared' => ?_⟩
      · rw [Session.perform, Op.run, Run.from?_bind, run] at ends
        rcases size : tower.size with fault | v <;> rw [size] at ends <;> cases ends <;> rfl
      · obtain ⟨store', run', threads, -⟩ := Store.size_prepared prepared' deep
        obtain rfl : store = store' := congrArg Prod.snd (run.symm.trans run')
        exact threads
    · obtain ⟨store, run, -, beneath⟩ := Store.isMulti_prepared prepared deep
      refine ⟨store, ?_, beneath, fun held' prepared' => ?_⟩
      · rw [Session.perform, Op.run, Run.from?_bind, run] at ends
        cases ends
        rfl
      · obtain ⟨store', run', threads, -⟩ := Store.isMulti_prepared prepared' deep
        obtain rfl : store = store' := congrArg Prod.snd (run.symm.trans run')
        exact threads
  obtain ⟨store, rfl, beneath, threads⟩ := stays
  refine ⟨tower, [], last, .idle (.inl (going.moved beneath rfl threads)) (silent _ _) ?_⟩
  rw [wants]
  simp

/-- A pass that is over signals its end to whoever asks for an element, and changes nothing then. -/
theorem Over.ends {session : Session} {tower : Tower} {items : List Item} {last : Tape} {n : Nat} (op : Op)
    (spent : intake.Over D aside p session.store tower items last) (wants : op.wants = true) (deep : 4 * tower.height ≤ n) :
    ∃ seen after, session.perform n p op = some (seen, after) ∧ seen.answer = .error .ended ∧
      after.store = session.store := by
  obtain ⟨n, rfl⟩ : ∃ k, n = k + 1 := ⟨n - 1, by have := tower.height_pos; omega⟩
  obtain ⟨ids, stands⟩ := spent.awake
  obtain ⟨inside, -, exhausted, -⟩ := stands.passes
  have held : (session.store.sequence p).peeked = none := by
    rcases peeked_of_passes stands.passes with ⟨-, held⟩ | ⟨item, v, ahead, -⟩
    · exact held
    · rw [spent.unpeeked] at ahead
      cases ahead
  have next : ((calls (n + 1)).next p).from? session.store = (.error (.fault .ended), session.store) := by
    change ((calls n).nextWith p).from? session.store = _
    rw [Calls.nextWith, Run.from?_bind_ok (Run.from?_sequence ..), held, exhausted, spent.exhausted]
    rfl
  cases op with
  | next =>
    rw [Session.perform_element ((calls (n + 1)).next p) rfl, next]
    exact ⟨_, _, rfl, rfl, rfl⟩
  | peek =>
    have peek : ((calls (n + 1)).peek p).from? session.store = (.error (.fault .ended), session.store) := by
      rw [Calls.peek, Run.from?_bind_ok (Run.from?_sequence ..), held]
      exact Run.from?_bind_error next
    rw [Session.perform_element ((calls (n + 1)).peek p) rfl, peek]
    exact ⟨_, _, rfl, rfl, rfl⟩
  | _ => cases wants

/-- A pass that is over takes nothing more. -/
theorem Over.perform {session after : Session} {tower : Tower} {items : List Item} {last : Tape} {n : Nat}
    {op : Op} {seen : Outcome} (spent : intake.Over D aside p session.store tower items last)
    (single : op.isSingle = true) (deep : 4 * tower.height ≤ n)
    (ends : session.perform n p op = some (seen, after)) :
    ∃ left more moved, Advanced intake D aside p op tower items seen after.store left more moved := by
  have idle : after.store = session.store → op.pulled false seen.answer = ([], false) →
      ∃ left more moved, Advanced intake D aside p op tower items seen after.store left more moved := by
    intro same silent
    refine ⟨tower, [], last, .idle (.inr (same ▸ spent)) ?_ ?_⟩
    · rw [spent.unpeeked]
      exact silent
    · simp [spent.exhausted]
  obtain ⟨ids, stands⟩ := spent.awake
  have low := tower.height_pos
  by_cases wants : op.wants = true
  · obtain ⟨seen', after', ends', answer, same⟩ := spent.ends op wants deep
    rw [ends] at ends'
    cases ends'
    refine idle same ?_
    rw [answer]
    cases op <;> rfl
  · cases op with
    | size =>
      rw [Session.perform, Op.run, Run.from?_bind, Store.size_stands stands (by omega)] at ends
      rcases size : tower.size with fault | v <;> rw [size] at ends <;> cases ends <;> exact idle rfl rfl
    | multiValue =>
      rw [Session.perform, Op.run, Run.from?_bind, Store.isMulti_stands stands (by omega)] at ends
      cases ends
      exact idle rfl rfl
    | next | peek => exact absurd rfl wants
    | _ => cases single

/-- Each operation that takes one element at most advances a pass. -/
theorem Taken.perform {session after : Session} {tower : Tower} {items : List Item} {last : Tape} {n : Nat} {op : Op}
    {seen : Outcome} (taken : intake.Taken D aside p session.store tower items last) (single : op.isSingle = true)
    (deep : 4 * intake.tower.height ≤ n) (ends : session.perform n p op = some (seen, after)) :
    ∃ left more moved, Advanced intake D aside p op tower items seen after.store left
      more moved := by
  rw [← taken.height] at deep
  rcases taken with going | spent
  · cases op with
    | next => exact going.next deep ends
    | peek => exact going.peek deep ends
    | size => exact going.question (.inl rfl) deep ends
    | multiValue => exact going.question (.inr rfl) deep ends
    | _ => cases single
  · exact spent.perform single deep ends

/-- Operations that take one element each at most take, in a pass, what they pulled and no more. -/
theorem Taken.play {session after : Session} {tower : Tower} {items : List Item} {last : Tape} {n : Nat} {ops : List Op}
    {outcomes : List Outcome} (taken : intake.Taken D aside p session.store tower items last)
    (single : ∀ op ∈ ops, op.isSingle = true) (deep : 4 * intake.tower.height ≤ n)
    (ends : session.play n p ops = some (outcomes, after)) :
    ∃ left more moved, intake.Taken D aside p after.store left (items ++ more) moved ∧
      pulls tower.pass.peeked.isSome ops outcomes =
        (Stage.told (Stage.sieveAll intake.tower.stages items) more).map (Except.map Item.contents) ∧
      (left.pass.exhausted = true ↔ tower.pass.exhausted = true ∨ MetEnd ops outcomes) := by
  induction ops generalizing session tower items last outcomes with
  | nil =>
    cases ends
    refine ⟨tower, [], last, by rwa [List.append_nil], rfl, ?_⟩
    simp [MetEnd]
  | cons op rest ih =>
    rw [Session.play] at ends
    rcases performed : session.perform n p op with _ | ⟨seen, between⟩
    · simp [performed] at ends
    · rcases played : between.play n p rest with _ | ⟨others, final⟩
      · simp [performed, played] at ends
      · simp only [performed, played, Option.some.injEq, Prod.mk.injEq] at ends
        obtain ⟨rfl, rfl⟩ := ends
        obtain ⟨here, others'⟩ := List.forall_mem_cons.mp single
        obtain ⟨left, more, moved, taken', pulled, exhausted⟩ := taken.perform here deep performed
        obtain ⟨left', more', moved', taken'', pulled', exhausted'⟩ := ih taken' others' played
        refine ⟨left', more ++ more', moved', by rwa [← List.append_assoc], ?_, ?_⟩
        · rw [pulls, pulled, pulled', ← List.map_append, Stage.told_append, Stage.sieveAll_append]
        · rw [exhausted', exhausted, or_assoc]
          refine or_congr_right ?_
          simp [MetEnd, List.zip_cons_cons, or_and_right, exists_or]

/-! ## What is ahead -/

/-- What an operation that asks for an element answers, at any depth, is what the tower tells at that depth. -/
theorem Going.answers {session : Session} {tower : Tower} {items : List Item} {last : Tape} {n : Nat} {op : Op}
    (going : intake.Going D aside p session.store tower items last) (unpeeked : tower.pass.peeked = none)
    (wants : op.wants = true) (deep : 4 * tower.height ≤ n) :
    (session.perform n p op).map (fun performed => performed.1.answer) =
      (tower.next n).map fun drawn => drawn.1.map fun item => .element item.contents := by
  have asked := going.ask unpeeked deep
  have held : (session.store.sequence p).peeked = none := by
    rcases peeked_of_passes going.passes with ⟨-, held⟩ | ⟨item, v, ahead, -⟩
    · exact held
    · rw [unpeeked] at ahead
      cases ahead
  -- Looking ahead answers as asking for the next element.
  have run : (session.perform n p op).map (fun performed => performed.1.answer) =
      match ((calls n).next p).from? session.store with
      | (.error .outOfFuel, _) => none
      | (.error (.fault fault), _) => some (.error fault)
      | (.ok v, left) => some (.ok (.element (left.contents v))) := by
    cases op with
    | next =>
      rw [Session.perform_element ((calls n).next p) rfl]
      rcases ((calls n).next p).from? session.store with ⟨(fault | _) | v, left⟩ <;> rfl
    | peek =>
      rw [Session.perform_element ((calls n).peek p) rfl, Calls.peek, Run.from?_bind_ok (Run.from?_sequence ..),
        held]
      simp only [Run.from?_bind]
      rcases ((calls n).next p).from? session.store with ⟨(fault | _) | v, left⟩
      · rfl
      · rfl
      · have same := Store.contents_of_beneath (left.updated p fun state => { state with peeked := some v }) left rfl v
        exact congrArg (fun v => some (Except.ok (Answer.element v))) same
    | _ => cases wants
  rw [run]
  rcases ends : ((calls n).next p).from? session.store with ⟨ended, left⟩
  rw [ends] at asked
  cases asks : tower.next n with
  | none =>
    rw [asks] at asked
    obtain rfl : ended = .error .outOfFuel := asked
    rfl
  | some pair =>
    obtain ⟨told, tower'⟩ := pair
    rw [asks] at asked
    obtain ⟨delivers, -⟩ := asked
    rcases told with fault | item <;> rcases ended with halt | v <;> try exact delivers.elim
    · obtain rfl : halt = .fault fault := delivers
      rfl
    · have same : left.contents v = item.contents := delivers.contents
      simp only [Option.map_some, Except.map, same]

/-- Asking for an element, deep enough, gives one exactly if one is told first of what is ahead, and signals the end
exactly if nothing is told of all that is ahead. -/
theorem Going.ahead {session : Session} {tower : Tower} {items : List Item} {last : Tape} {n : Nat} {op : Op}
    (going : intake.Going D aside p session.store tower items last) (unpeeked : tower.pass.peeked = none)
    (wants : op.wants = true) (deep : 4 * tower.height ≤ n) :
    (∀ v, (∃ m seen after, n ≤ m ∧ session.perform m p op = some (seen, after) ∧ seen.answer = .ok (.element v)) ↔
      ∃ more moved item others, last.Reaches more moved ∧ item.contents = v ∧
        Stage.told (Stage.sieveAll intake.tower.stages items) more = .ok item :: others) ∧
    ((∃ m seen after, n ≤ m ∧ session.perform m p op = some (seen, after) ∧ seen.answer = .error .ended) ↔
      ∃ more spent, last.Reaches more spent ∧ spent.Ended ∧
        Stage.told (Stage.sieveAll intake.tower.stages items) more = []) := by
  have leaves := going.leaves
  have same : { tower.pass with peeked := none } = tower.pass := by rw [← unpeeked]
  rw [same, Tower.withPass_pass] at leaves
  have draws := intake.draws.left going.reaches leaves
  rw [← leaves.stages]
  -- An answer is what surfaces, and what surfaces is an answer at some depth.
  have answers : ∀ told : Draw, (∃ m seen after, n ≤ m ∧ session.perform m p op = some (seen, after) ∧
      seen.answer = told.map fun item => .element item.contents) ↔
      ∃ told' deeds left, Tower.Surfaces tower deeds told' left ∧
        told'.map (fun item => Answer.element item.contents) = told.map fun item => .element item.contents := by
    intro told
    constructor
    · rintro ⟨m, seen, after, le, performed, answer⟩
      have told' := going.answers unpeeked wants (Nat.le_trans deep le)
      rw [performed] at told'
      obtain ⟨⟨drawn, left⟩, asks, same⟩ := Option.map_eq_some_iff.mp told'.symm
      obtain ⟨deeds, surfaces⟩ := Tower.next_surfaces draws.calm asks
      exact ⟨drawn, deeds, left, surfaces, same.trans answer⟩
    · rintro ⟨told', deeds, left, surfaces, same⟩
      obtain ⟨k, asks⟩ := Tower.surfaces_next draws.calm surfaces
      have told'' := going.answers unpeeked wants (Nat.le_trans deep (Nat.le_max_left n k))
      rw [Tower.next_mono (Nat.le_max_right n k) asks] at told''
      obtain ⟨⟨seen, after⟩, performed, answer⟩ := Option.map_eq_some_iff.mp told''
      exact ⟨_, seen, after, Nat.le_max_left n k, performed, answer.trans same⟩
  refine ⟨fun v => ?_, ?_⟩
  · have value := answers (.ok ⟨v, false, none⟩)
    refine value.trans ⟨?_, ?_⟩
    · rintro ⟨told, deeds, left, surfaces, same⟩
      obtain ⟨item, rfl, here⟩ : ∃ item, told = .ok item ∧ item.contents = v := by
        rcases told with fault | item <;> cases same
        exact ⟨item, rfl, rfl⟩
      obtain ⟨more, moved, told | spent⟩ := surfaces.items draws.calm draws.source draws.free draws.within draws.tame
      · exact ⟨more, moved, item, [], told.reaches, here, told.tells⟩
      · cases spent.signals
    · rintro ⟨more, moved, item, others, reaches, rfl, tells⟩
      obtain ⟨deeds, left, surfaces⟩ := Tower.surfaces_of_told draws.calm draws.source reaches draws.within draws.tame
        tells
      exact ⟨.ok item, deeds, left, surfaces, rfl⟩
  · refine (answers (.error .ended)).trans ⟨?_, ?_⟩
    · rintro ⟨told, deeds, left, surfaces, same⟩
      obtain rfl : told = .error .ended := by
        rcases told with fault | item <;> cases same
        rfl
      obtain ⟨more, moved, told | spent⟩ := surfaces.items draws.calm draws.source draws.free draws.within draws.tame
      · exact absurd (told.noEnd _ rfl) (by decide)
      · exact ⟨more, moved, spent.reaches, spent.ended, spent.dropped⟩
    · rintro ⟨more, spent, reaches, ended, silent⟩
      obtain ⟨deeds, left, surfaces⟩ := Tower.surfaces_of_end draws.calm draws.source reaches ended silent
      exact ⟨.error .ended, deeds, left, surfaces, rfl⟩

/-- The same holds once the pass is over: nothing is ahead then. -/
theorem Taken.ahead {session : Session} {tower : Tower} {items : List Item} {last : Tape} {n : Nat} {op : Op}
    (taken : intake.Taken D aside p session.store tower items last) (unpeeked : tower.pass.peeked = none)
    (wants : op.wants = true) (deep : 4 * intake.tower.height ≤ n) :
    (∀ v, (∃ m seen after, n ≤ m ∧ session.perform m p op = some (seen, after) ∧ seen.answer = .ok (.element v)) ↔
      ∃ more moved item others, last.Reaches more moved ∧ item.contents = v ∧
        Stage.told (Stage.sieveAll intake.tower.stages items) more = .ok item :: others) ∧
    ((∃ m seen after, n ≤ m ∧ session.perform m p op = some (seen, after) ∧ seen.answer = .error .ended) ↔
      ∃ more spent, last.Reaches more spent ∧ spent.Ended ∧
        Stage.told (Stage.sieveAll intake.tower.stages items) more = []) := by
  rw [← taken.height] at deep
  rcases taken with going | spent
  · exact going.ahead unpeeked wants deep
  · refine ⟨fun v => ⟨?_, ?_⟩, ⟨fun _ => ⟨[], last, rfl, spent.ended, rfl⟩, fun _ => ?_⟩⟩
    · rintro ⟨m, seen, after, le, performed, answer⟩
      obtain ⟨seen', after', ends, ended, -⟩ := spent.ends op wants (Nat.le_trans deep le)
      rw [performed] at ends
      cases ends
      rw [answer] at ended
      cases ended
    · rintro ⟨more, moved, item, others, reaches, -, tells⟩
      cases more with
      | nil => cases tells
      | cons first rest =>
        have ended := spent.ended
        rw [Tape.Ended, reaches.1] at ended
        cases ended
    · obtain ⟨seen, after, ends, answer, -⟩ := spent.ends op wants deep
      exact ⟨n, seen, after, Nat.le_refl n, ends, answer⟩

end Intake

end FirstSeen
