import FirstSeen.Proofs.Avoiding

/-!
# References that lead somewhere

A store *lacks* what a reference leads to if there is no such object. It is *whole* if no object of it refers to what it
lacks. Objects are only ever added, and what refers to an object is made after it. So operations on what is there leave a
whole store whole, and answer with what is there then.

In a whole store nothing refers yet to an object that is still to be made.
-/

set_option autoImplicit false

namespace FirstSeen

namespace Store

/-- Whether a reference leads to no object of a store. -/
def Lacks (store : Store) : Ref → Prop
  | .sequence id => store.sequences.size ≤ id.index
  | .cursor id => store.cursors.size ≤ id.index
  | .datum id => store.data.size ≤ id.index
  | .list id => store.lists.size ≤ id.index
  | .source id => store.sources.size ≤ id.index
  | .key id => store.keys.size ≤ id.index
  | .step id => store.steps.size ≤ id.index
  | .fault id => store.faults.size ≤ id.index

/-- Whether a value refers only to what is there. -/
abbrev Knows (store : Store) (v : Value) : Prop := v.Avoids store.Lacks

/-- Whether each object of a store refers only to what is there. -/
structure Whole (store : Store) : Prop where
  sequence : ∀ id, (store.sequence id).Avoids store.Lacks
  cursor : ∀ id, (store.cursor id).Avoids store.Lacks
  datum : ∀ id, store.Knows (store.datum id)
  list : ∀ id, ∀ v ∈ store.list id, store.Knows v
  source : ∀ id, (store.source id).Avoids store.Lacks
  key : ∀ id, (store.key id).Avoids store.Lacks
  step : ∀ id, (store.step id).Avoids store.Lacks

/-- Whether nothing is lacking that was there before. -/
def GrowsTo (before after : Store) : Prop := ∀ ref, after.Lacks ref → before.Lacks ref

end Store

/-! ## Avoiding more, and less -/

section

variable {hidden other part : Ref → Prop} (within : ∀ ref, part ref → hidden ref ∨ other ref)
include within

theorem Value.Avoids.both {v : Value} (avoids : v.Avoids hidden) (avoids' : v.Avoids other) : v.Avoids part :=
  fun ref held there => (within ref there).elim (avoids ref held) (avoids' ref held)

theorem Script.Avoids.both {script : Script} (avoids : script.Avoids hidden) (avoids' : script.Avoids other) :
    script.Avoids part := by
  intro i event told
  have held := avoids i event told
  have held' := avoids' i event told
  cases event with
  | fault => trivial
  | value v | made v => exact Value.Avoids.both within held held'

theorem Cursor.Avoids.both {cursor : Cursor} (avoids : cursor.Avoids hidden) (avoids' : cursor.Avoids other) :
    cursor.Avoids part := by
  cases cursor with
  | walking | generating => exact Script.Avoids.both within avoids avoids'
  | listing => exact fun there => (within _ there).elim avoids avoids'
  | ranging => trivial
  | streaming pipeline input phase =>
    refine ⟨fun there => (within _ there).elim avoids.1 avoids'.1, avoids.2.1.both within avoids'.2.1, ?_⟩
    have held := avoids.2.2
    have held' := avoids'.2.2
    cases phase with
    | delegating feed => exact fun there => (within _ there).elim held held'
    | _ => trivial

theorem Source.Avoids.both {source : Source} (avoids : source.Avoids hidden) (avoids' : source.Avoids other) :
    source.Avoids part := by
  refine ⟨fun opening found => ?_, fun product found => ?_⟩
  · have held := avoids.opening opening found
    have held' := avoids'.opening opening found
    cases opening with
    | refusal => trivial
    | walker script | generator script | indexed script => exact Script.Avoids.both within held held'
  · have held := avoids.product product found
    have held' := avoids'.product product found
    cases product with
    | value v => exact Value.Avoids.both within held held'
    | generator script | walker name script => exact Script.Avoids.both within held held'
    | items all => exact fun v member => (held v member).both within (held' v member)
    | shared cursor => exact fun there => (within _ there).elim held held'

theorem KeyFunction.Avoids.both {key : KeyFunction} (avoids : key.Avoids hidden) (avoids' : key.Avoids other) :
    key.Avoids part :=
  fun nameOf earlier v answered => (avoids nameOf earlier v answered).both within (avoids' nameOf earlier v answered)

theorem Step.Avoids.both {step : Step} (avoids : step.Avoids hidden) (avoids' : step.Avoids other) : step.Avoids part := by
  cases step with
  | distinct key limit => exact Value.Avoids.both within avoids avoids'
  | returning v => exact Value.Avoids.both within avoids avoids'
  | passing | positional | failing | bare | link => trivial

theorem Body.Avoids.both {body : Body} (avoids : body.Avoids hidden) (avoids' : body.Avoids other) : body.Avoids part := by
  cases body with
  | abstract => trivial
  | iterable data feed =>
    exact ⟨avoids.1.both within avoids'.1, fun f held there => (within _ there).elim (avoids.2 f held) (avoids'.2 f held)⟩
  | produced factory size feed =>
    exact ⟨avoids.1.both within avoids'.1, fun f held there => (within _ there).elim (avoids.2 f held) (avoids'.2 f held)⟩
  | distinct supply key limit seen =>
    exact ⟨fun there => (within _ there).elim avoids.1 avoids'.1, avoids.2.both within avoids'.2⟩
  | pipeline steps input output =>
    exact ⟨fun there => (within _ there).elim avoids.1 avoids'.1, avoids.2.1.both within avoids'.2.1,
      avoids.2.2.both within avoids'.2.2⟩
  | scripted cursor => exact fun there => (within _ there).elim avoids avoids'

theorem SequenceState.Avoids.both {state : SequenceState} (avoids : state.Avoids hidden) (avoids' : state.Avoids other) :
    state.Avoids part :=
  ⟨avoids.body.both within avoids'.body, fun v waiting => (avoids.peeked v waiting).both within (avoids'.peeked v waiting)⟩

end

section

variable {hidden part : Ref → Prop} (within : ∀ ref, part ref → hidden ref)
include within

theorem Value.Avoids.less {v : Value} (avoids : v.Avoids hidden) : v.Avoids part :=
  avoids.both (fun ref there => .inl (within ref there)) avoids

theorem Script.Avoids.less {script : Script} (avoids : script.Avoids hidden) : script.Avoids part :=
  avoids.both (fun ref there => .inl (within ref there)) avoids

theorem Cursor.Avoids.less {cursor : Cursor} (avoids : cursor.Avoids hidden) : cursor.Avoids part :=
  avoids.both (fun ref there => .inl (within ref there)) avoids

theorem Source.Avoids.less {source : Source} (avoids : source.Avoids hidden) : source.Avoids part :=
  avoids.both (fun ref there => .inl (within ref there)) avoids

theorem KeyFunction.Avoids.less {key : KeyFunction} (avoids : key.Avoids hidden) : key.Avoids part :=
  avoids.both (fun ref there => .inl (within ref there)) avoids

theorem Step.Avoids.less {step : Step} (avoids : step.Avoids hidden) : step.Avoids part :=
  avoids.both (fun ref there => .inl (within ref there)) avoids

theorem Body.Avoids.less {body : Body} (avoids : body.Avoids hidden) : body.Avoids part :=
  avoids.both (fun ref there => .inl (within ref there)) avoids

theorem SequenceState.Avoids.less {state : SequenceState} (avoids : state.Avoids hidden) : state.Avoids part :=
  avoids.both (fun ref there => .inl (within ref there)) avoids

end

namespace Store

theorem growsTo_refl (store : Store) : store.GrowsTo store := fun _ lacks => lacks

theorem GrowsTo.trans {store left after : Store} (first : store.GrowsTo left) (second : left.GrowsTo after) :
    store.GrowsTo after := fun ref lacks => first ref (second ref lacks)

/-- A store grows if there are no fewer objects of each sort. -/
theorem growsTo_of_sizes {before after : Store} (sequences : before.sequences.size ≤ after.sequences.size)
    (cursors : before.cursors.size ≤ after.cursors.size) (data : before.data.size ≤ after.data.size)
    (lists : before.lists.size ≤ after.lists.size) (sources : before.sources.size ≤ after.sources.size)
    (keys : before.keys.size ≤ after.keys.size) (steps : before.steps.size ≤ after.steps.size)
    (faults : before.faults.size ≤ after.faults.size) : before.GrowsTo after := by
  intro ref lacks
  cases ref <;> exact Nat.le_trans ‹_› lacks

/-- A store that grew is whole if what is new in it, or was changed, refers only to what is there. -/
theorem Whole.changed {before after : Store} (whole : before.Whole) (grows : before.GrowsTo after)
    (sequence : ∀ id, after.sequence id = before.sequence id ∨ (after.sequence id).Avoids after.Lacks)
    (cursor : ∀ id, after.cursor id = before.cursor id ∨ (after.cursor id).Avoids after.Lacks)
    (datum : ∀ id, after.datum id = before.datum id ∨ after.Knows (after.datum id))
    (list : ∀ id, after.list id = before.list id ∨ ∀ v ∈ after.list id, after.Knows v)
    (source : ∀ id, after.source id = before.source id)
    (key : ∀ id, (after.key id).respond = (before.key id).respond)
    (step : ∀ id, after.step id = before.step id) : after.Whole where
  sequence id := (sequence id).elim (fun same => same ▸ (whole.sequence id).less grows) fun new => new
  cursor id := (cursor id).elim (fun same => same ▸ (whole.cursor id).less grows) fun new => new
  datum id := (datum id).elim (fun same => same ▸ (whole.datum id).less grows) fun new => new
  list id := (list id).elim (fun same v member => (whole.list id v (same ▸ member)).less grows) fun new => new
  source id := source id ▸ (whole.source id).less grows
  key id nameOf earlier v answered := (whole.key id nameOf earlier v (key id ▸ answered)).less grows
  step id := step id ▸ (whole.step id).less grows

/-- A store is whole if each object that is there refers only to what is there. -/
theorem whole_of_each {store : Store} (sequence : ∀ state ∈ store.sequences, state.Avoids store.Lacks)
    (cursor : ∀ cursor ∈ store.cursors, cursor.Avoids store.Lacks) (datum : ∀ v ∈ store.data, store.Knows v)
    (list : ∀ items ∈ store.lists, ∀ v ∈ items, store.Knows v) (source : ∀ source ∈ store.sources, source.Avoids store.Lacks)
    (key : ∀ key ∈ store.keys, key.Avoids store.Lacks) (step : ∀ step ∈ store.steps, step.Avoids store.Lacks) :
    store.Whole := by
  -- What is not there refers to nothing.
  have either : ∀ {α : Type} (all : Array α) (fallback : α) (P : α → Prop) (i : Nat), (∀ a ∈ all, P a) → P fallback →
      P (all.getD i fallback) := by
    intro α all fallback P i here elsewhere
    by_cases there : i < all.size
    · simpa [Array.getD_eq_getD_getElem?, there] using here all[i] (Array.getElem_mem there)
    · simpa [Array.getD_eq_getD_getElem?, there] using elsewhere
  exact {
    sequence := fun _ => either _ _ (SequenceState.Avoids store.Lacks) _ sequence ⟨trivial, by rintro _ ⟨⟩⟩
    cursor := fun _ => either _ _ (Cursor.Avoids store.Lacks) _ cursor (by rintro _ _ ⟨⟩)
    datum := fun _ => either _ _ store.Knows _ datum (by rintro _ ⟨⟩)
    list := fun _ => either _ _ (fun items : List Value => ∀ v ∈ items, store.Knows v) _ list (by rintro _ ⟨⟩)
    source := fun _ => either _ _ (Source.Avoids store.Lacks) _ source ⟨by rintro _ ⟨⟩, by rintro _ ⟨⟩⟩
    key := fun _ => either _ _ (KeyFunction.Avoids store.Lacks) _ key (by rintro _ _ _ ⟨⟩)
    step := fun _ => either _ _ (Step.Avoids store.Lacks) _ step (by rintro _ ⟨⟩) }

/-- The contents of an object that is there, or of a value itself. -/
theorem Whole.plain {store : Store} (whole : store.Whole) {v : Value} (known : store.Knows v) :
    store.Knows (store.plain v) := by
  unfold Store.plain
  split
  · exact whole.datum _
  · exact known

end Store

/-- Whether a run, in whatever a store has grown to, leaves a whole store whole, and answers with something good. -/
def Run.Whole {α : Type} (base : Store) (good : Store → α → Prop) (run : Run α) : Prop :=
  ∀ store : Store, base.GrowsTo store → store.Whole →
    store.GrowsTo (run.from? store).2 ∧ (run.from? store).2.Whole ∧
      ∀ a, (run.from? store).1 = .ok a → good (run.from? store).2 a

namespace Run

variable {α β : Type} {base : Store}

/-! ## Putting runs together -/

theorem whole_pure {good : Store → α → Prop} {a : α} (fine : ∀ left, base.GrowsTo left → good left a) :
    (pure a : Run α).Whole base good :=
  fun store grows whole => ⟨store.growsTo_refl, whole, fun _ same => (by cases same; exact fine store grows)⟩

theorem whole_fail {good : Store → α → Prop} (fault : Fault) : (fail fault : Run α).Whole base good :=
  fun store _ whole => ⟨store.growsTo_refl, whole, fun _ same => (by cases same)⟩

theorem whole_outOfFuel {good : Store → α → Prop} : (throw .outOfFuel : Run α).Whole base good :=
  fun store _ whole => ⟨store.growsTo_refl, whole, fun _ same => (by cases same)⟩

theorem whole_view {good : Store → α → Prop} {f : Store → α}
    (fine : ∀ left : Store, base.GrowsTo left → left.Whole → good left (f left)) : (view f).Whole base good :=
  fun store grows whole => ⟨store.growsTo_refl, whole, fun _ same => (by cases same; exact fine store grows whole)⟩

/-- Nothing is asked of what is read. -/
theorem whole_reading {f : Store → α} : (view f).Whole base fun _ _ => True := whole_view fun _ _ _ => trivial

theorem Whole.bind {good : Store → α → Prop} {good' : Store → β → Prop} {run : Run α} {next : α → Run β}
    (first : run.Whole base good) (rest : ∀ left a, base.GrowsTo left → good left a → (next a).Whole left good') :
    (run >>= next).Whole base good' := by
  intro store grows whole
  obtain ⟨grows', whole', fine⟩ := first store grows whole
  rcases ends : run.from? store with ⟨halt | a, left⟩ <;> rw [ends] at grows' whole' fine
  · rw [from?_bind_error ends]
    exact ⟨grows', whole', fun _ same => (by cases same)⟩
  · rw [from?_bind_ok ends]
    obtain ⟨grows'', whole'', fine'⟩ := rest left a (grows.trans grows') (fine a rfl) left left.growsTo_refl whole'
    exact ⟨grows'.trans grows'', whole'', fine'⟩

theorem Whole.onFault {good : Store → α → Prop} {run : Run α} {handler : Fault → Run α} (first : run.Whole base good)
    (handled : ∀ left fault, base.GrowsTo left → (handler fault).Whole left good) :
    (onFault run handler).Whole base good := by
  intro store grows whole
  obtain ⟨grows', whole', fine⟩ := first store grows whole
  rw [from?_onFault]
  rcases ends : run.from? store with ⟨(fault | _) | a, left⟩ <;> rw [ends] at grows' whole' fine
  · obtain ⟨grows'', whole'', fine'⟩ := handled left fault (grows.trans grows') left left.growsTo_refl whole'
    exact ⟨grows'.trans grows'', whole'', fine'⟩
  · exact ⟨grows', whole', fun _ same => (by cases same)⟩
  · exact ⟨grows', whole', fine⟩

theorem Whole.imp {good good' : Store → α → Prop} {run : Run α} (keeps : run.Whole base good)
    (better : ∀ left a, base.GrowsTo left → good left a → good' left a) : run.Whole base good' := by
  intro store grows whole
  obtain ⟨grows', whole', fine⟩ := keeps store grows whole
  exact ⟨grows', whole', fun a same => better _ a (grows.trans grows') (fine a same)⟩

theorem Whole.ite {good : Store → α → Prop} {c : Prop} [Decidable c] {run other : Run α} (keeps : run.Whole base good)
    (keeps' : other.Whole base good) : (if c then run else other).Whole base good := by
  split
  · exact keeps
  · exact keeps'

/-- What may fail before the rest. -/
theorem Whole.unless {good : Store → α → Prop} {c : Prop} [Decidable c] {fault : Fault} {rest : Run α}
    (keeps : rest.Whole base good) :
    (if c then fail fault >>= fun _ : Unit => rest else rest).Whole base good := by
  refine .ite (fun store grows whole => ?_) keeps
  rw [from?_bind_error (from?_fail fault store)]
  exact ⟨store.growsTo_refl, whole, fun _ same => (by cases same)⟩

theorem Whole.map {good : Store → α → Prop} {good' : Store → β → Prop} {run : Run α} (keeps : run.Whole base good)
    {f : α → β} (fine : ∀ left after a, left.GrowsTo after → good left a → good' after (f a)) :
    (f <$> run).Whole base good' :=
  keeps.bind fun left a _ held => whole_pure fun after grows => fine left after a grows held

/-- A failure may look around first. -/
theorem whole_failing {good : Store → β → Prop} {f : Store → α} (fault : α → Fault) :
    (view f >>= fun a => (fail (fault a) : Run β)).Whole base good :=
  whole_reading.bind fun _ _ _ _ => whole_fail _

theorem whole_ofExcept {good : Store → α → Prop} {result : Except Fault α}
    (fine : ∀ left a, base.GrowsTo left → result = .ok a → good left a) : (ofExcept result).Whole base good := by
  cases result with
  | ok a => exact whole_pure fun left grows => fine left a grows rfl
  | error fault => exact whole_fail fault

/-! ## Reading -/

theorem whole_sequence (id : SequenceId) : (sequence id).Whole base fun left state => state.Avoids left.Lacks :=
  whole_view fun _ _ whole => whole.sequence id

theorem whole_cursor (id : CursorId) : (cursor id).Whole base fun left cursor => cursor.Avoids left.Lacks :=
  whole_view fun _ _ whole => whole.cursor id

theorem whole_list (id : ListId) : (list id).Whole base fun left items => ∀ v ∈ items, left.Knows v :=
  whole_view fun _ _ whole => whole.list id

theorem whole_plain {v : Value} (known : base.Knows v) : (plain v).Whole base Store.Knows :=
  whole_view fun _ grows whole => whole.plain (known.less grows)

theorem whole_failMissing {good : Store → α → Prop} (v : Value) (name : String) :
    (failMissing v name : Run α).Whole base good := whole_failing _

theorem whole_sequenceFor (name : String) {v : Value} (known : base.Knows v) :
    (sequenceFor name v).Whole base fun left id => ¬left.Lacks (.sequence id) := by
  unfold sequenceFor
  split
  · exact whole_pure fun _ grows => Value.avoids_object.mp (known.less grows)
  · exact whole_failMissing _ _

/-! ## Changing -/

/-- A change to counters, to what key functions were asked or to what was told. -/
theorem whole_modify {f : Store → Store} (sequences : ∀ store, (f store).sequences = store.sequences)
    (cursors : ∀ store, (f store).cursors = store.cursors) (data : ∀ store, (f store).data = store.data)
    (lists : ∀ store, (f store).lists = store.lists) (sources : ∀ store, (f store).sources = store.sources)
    (keys : ∀ store, (f store).keys.size = store.keys.size ∧ ∀ id, ((f store).key id).respond = (store.key id).respond)
    (steps : ∀ store, (f store).steps = store.steps) (faults : ∀ store, (f store).faults = store.faults) :
    (modify f : Run Unit).Whole base fun _ _ => True := by
  intro store _ whole
  change store.GrowsTo (f store) ∧ (f store).Whole ∧ _
  have size : ∀ {γ : Type} {all others : Array γ}, others = all → all.size ≤ others.size :=
    fun same => same ▸ Nat.le_refl _
  have grows : store.GrowsTo (f store) := Store.growsTo_of_sizes (size (sequences store)) (size (cursors store))
    (size (data store)) (size (lists store)) (size (sources store)) (Nat.le_of_eq (keys store).1.symm)
    (size (steps store)) (size (faults store))
  refine ⟨grows, whole.changed grows (fun id => .inl ?_) (fun id => .inl ?_) (fun id => .inl ?_) (fun id => .inl ?_)
    (fun id => ?_) (keys store).2 (fun id => ?_), fun _ _ => trivial⟩
  · rw [Store.sequence, sequences, Store.sequence]
  · rw [Store.cursor, cursors, Store.cursor]
  · rw [Store.datum, data, Store.datum]
  · rw [Store.list, lists, Store.list]
  · rw [Store.source, sources, Store.source]
  · rw [Store.step, steps, Store.step]

theorem whole_updateMeter (id : MeterId) (f : Meter → Meter) : (updateMeter id f).Whole base fun _ _ => True :=
  whole_modify (fun _ => rfl) (fun _ => rfl) (fun _ => rfl) (fun _ => rfl) (fun _ => rfl) (fun _ => ⟨rfl, fun _ => rfl⟩)
    (fun _ => rfl) fun _ => rfl

theorem whole_updateMeter? (id : Option MeterId) (f : Meter → Meter) :
    (updateMeter? id f).Whole base fun _ _ => True := by
  cases id with
  | none => exact whole_pure fun _ _ => trivial
  | some id => exact whole_updateMeter id f

theorem whole_tell (notice : Notice) : (tell notice).Whole base fun _ _ => True :=
  whole_modify (fun _ => rfl) (fun _ => rfl) (fun _ => rfl) (fun _ => rfl) (fun _ => rfl) (fun _ => ⟨rfl, fun _ => rfl⟩)
    (fun _ => rfl) fun _ => rfl

/-- A sequence takes another state that refers only to what is there. -/
theorem whole_updateSequence (id : SequenceId) {f : SequenceState → SequenceState}
    (known : ∀ (left : Store) (state : SequenceState), base.GrowsTo left → state.Avoids left.Lacks →
      (f state).Avoids left.Lacks) : (updateSequence id f).Whole base fun _ _ => True := by
  intro store grows whole
  have lacks : ((updateSequence id f).from? store).2.Lacks = store.Lacks := by
    funext ref
    cases ref <;> simp [Store.Lacks]
  have grows' : store.GrowsTo ((updateSequence id f).from? store).2 := fun ref => by rw [lacks]; exact fun held => held
  refine ⟨grows', whole.changed grows' (fun other => ?_) (fun _ => .inl rfl) (fun _ => .inl rfl) (fun _ => .inl rfl)
    (fun _ => rfl) (fun _ => rfl) (fun _ => rfl), fun _ _ => trivial⟩
  have there : ((updateSequence id f).from? store).2.sequence other =
      if id.index = other.index ∧ other.index < store.sequences.size then f (store.sequence other)
      else store.sequence other := Store.getD_modify store.sequences id.index f default other.index
  rw [there, lacks]
  split
  · exact .inr (known store _ grows (whole.sequence other))
  · exact .inl rfl

theorem whole_setBody (id : SequenceId) {body : Body} (known : body.Avoids base.Lacks) :
    (setBody id body).Whole base fun _ _ => True :=
  whole_updateSequence id fun _ _ grows held => ⟨known.less grows, held.peeked⟩

/-- A new sequence is there once it is made. -/
theorem whole_newSequence {state : SequenceState} (known : state.Avoids base.Lacks) :
    (newSequence state).Whole base fun left id => ¬left.Lacks (.sequence id) := by
  intro store grows whole
  have grows' : store.GrowsTo ((newSequence state).from? store).2 :=
    Store.growsTo_of_sizes (by simp) (Nat.le_refl _) (Nat.le_refl _) (Nat.le_refl _) (Nat.le_refl _) (Nat.le_refl _)
      (Nat.le_refl _) (Nat.le_refl _)
  refine ⟨grows', whole.changed grows' (fun id => ?_) (fun _ => .inl rfl) (fun _ => .inl rfl) (fun _ => .inl rfl)
    (fun _ => rfl) (fun _ => rfl) (fun _ => rfl), ?_⟩
  · have there : ((newSequence state).from? store).2.sequence id =
        if id.index = store.sequences.size then state else store.sequence id :=
      Store.getD_push store.sequences state default id.index
    rw [there]
    split
    · exact .inr (known.less (grows.trans grows'))
    · exact .inl rfl
  · rintro id ⟨⟩
    simp [Store.Lacks]

/-- An iterator is replaced. -/
theorem whole_setCursor (id : CursorId) {cursor : Cursor} (known : cursor.Avoids base.Lacks) :
    (setCursor id cursor).Whole base fun _ _ => True := by
  intro store grows whole
  have lacks : ((setCursor id cursor).from? store).2.Lacks = store.Lacks := by
    funext ref
    cases ref <;> simp [Store.Lacks]
  have grows' : store.GrowsTo ((setCursor id cursor).from? store).2 := fun ref => by rw [lacks]; exact fun held => held
  refine ⟨grows', whole.changed grows' (fun _ => .inl rfl) (fun other => ?_) (fun _ => .inl rfl) (fun _ => .inl rfl)
    (fun _ => rfl) (fun _ => rfl) (fun _ => rfl), fun _ _ => trivial⟩
  have there : ((setCursor id cursor).from? store).2.cursor other =
      if id.index = other.index ∧ other.index < store.cursors.size then cursor else store.cursor other :=
    Store.getD_modify store.cursors id.index (fun _ => cursor) default other.index
  rw [there, lacks]
  split
  · exact .inr (known.less grows)
  · exact .inl rfl

/-- A new iterator is there once it is made. -/
theorem whole_newCursor {cursor : Cursor} (known : cursor.Avoids base.Lacks) :
    (newCursor cursor).Whole base fun left id => ¬left.Lacks (.cursor id) := by
  intro store grows whole
  have grows' : store.GrowsTo ((newCursor cursor).from? store).2 :=
    Store.growsTo_of_sizes (Nat.le_refl _) (by simp) (Nat.le_refl _) (Nat.le_refl _) (Nat.le_refl _) (Nat.le_refl _)
      (Nat.le_refl _) (Nat.le_refl _)
  refine ⟨grows', whole.changed grows' (fun _ => .inl rfl) (fun id => ?_) (fun _ => .inl rfl) (fun _ => .inl rfl)
    (fun _ => rfl) (fun _ => rfl) (fun _ => rfl), ?_⟩
  · have there : ((newCursor cursor).from? store).2.cursor id =
        if id.index = store.cursors.size then cursor else store.cursor id :=
      Store.getD_push store.cursors cursor default id.index
    rw [there]
    split
    · exact .inr (known.less (grows.trans grows'))
    · exact .inl rfl
  · rintro id ⟨⟩
    simp [Store.Lacks]

/-- A new datum is there once it is made. -/
theorem whole_newDatum {v : Value} (known : base.Knows v) :
    (newDatum v).Whole base fun left id => ¬left.Lacks (.datum id) := by
  intro store grows whole
  have grows' : store.GrowsTo ((newDatum v).from? store).2 :=
    Store.growsTo_of_sizes (Nat.le_refl _) (Nat.le_refl _) (by simp) (Nat.le_refl _) (Nat.le_refl _) (Nat.le_refl _)
      (Nat.le_refl _) (Nat.le_refl _)
  refine ⟨grows', whole.changed grows' (fun _ => .inl rfl) (fun _ => .inl rfl) (fun id => ?_) (fun _ => .inl rfl)
    (fun _ => rfl) (fun _ => rfl) (fun _ => rfl), ?_⟩
  · have there : ((newDatum v).from? store).2.datum id = if id.index = store.data.size then v else store.datum id :=
      Store.getD_push store.data v .null id.index
    rw [there]
    split
    · exact .inr (known.less (grows.trans grows'))
    · exact .inl rfl
  · rintro id ⟨⟩
    simp [Store.Lacks]

/-- A new list is there once it is made. -/
theorem whole_newList {items : List Value} (known : ∀ v ∈ items, base.Knows v) :
    (newList items).Whole base fun left id => ¬left.Lacks (.list id) := by
  intro store grows whole
  have grows' : store.GrowsTo ((newList items).from? store).2 :=
    Store.growsTo_of_sizes (Nat.le_refl _) (Nat.le_refl _) (Nat.le_refl _) (by simp) (Nat.le_refl _) (Nat.le_refl _)
      (Nat.le_refl _) (Nat.le_refl _)
  refine ⟨grows', whole.changed grows' (fun _ => .inl rfl) (fun _ => .inl rfl) (fun _ => .inl rfl) (fun id => ?_)
    (fun _ => rfl) (fun _ => rfl) (fun _ => rfl), ?_⟩
  · have there : ((newList items).from? store).2.list id = if id.index = store.lists.size then items else store.list id :=
      Store.getD_push store.lists items [] id.index
    rw [there]
    split
    · exact .inr fun v member => (known v member).less (grows.trans grows')
    · exact .inl rfl
  · rintro id ⟨⟩
    simp [Store.Lacks]

theorem whole_newObject {v : Value} (known : base.Knows v) : (newObject v).Whole base Store.Knows :=
  .ite (whole_pure fun _ grows => known.less grows) ((whole_newDatum known).bind fun _ _ _ there =>
    whole_pure fun _ grows => (Value.avoids_object.mpr there).less grows)

/-! ## Calling and opening -/

theorem whole_installAll {items : List Value} (known : ∀ item ∈ items, base.Knows item)
    (each : ∀ item ∈ items, ∀ left : Store, left.Knows item → (install item).Whole left Store.Knows) :
    (installAll items).Whole base fun left held => ∀ v ∈ held, left.Knows v := by
  induction items generalizing base with
  | nil =>
    rw [installAll]
    exact whole_pure (by simp)
  | cons item rest ih =>
    rw [List.forall_mem_cons] at known each
    rw [installAll]
    exact (each.1 base known.1).bind fun left v grows fine =>
      (ih (fun item member => (known.2 item member).less grows) each.2).bind fun left' vs grows' fine' =>
        whole_pure fun after later => List.forall_mem_cons.mpr
          ⟨fine.less (grows'.trans later), fun v member => (fine' v member).less later⟩

theorem whole_installEntries {held : List (Value × Value)} (known : ∀ e ∈ held, base.Knows e.1 ∧ base.Knows e.2)
    (each : ∀ e ∈ held, ∀ left : Store, (left.Knows e.1 → (install e.1).Whole left Store.Knows) ∧
      (left.Knows e.2 → (install e.2).Whole left Store.Knows)) :
    (installEntries held).Whole base fun left held => ∀ e ∈ held, left.Knows e.1 ∧ left.Knows e.2 := by
  induction held generalizing base with
  | nil =>
    rw [installEntries]
    exact whole_pure (by simp)
  | cons e rest ih =>
    rw [List.forall_mem_cons] at known each
    rw [installEntries]
    exact ((each.1 base).1 known.1.1).bind fun left k grows fine =>
      ((each.1 left).2 (known.1.2.less grows)).bind fun left' v grows' fine' =>
        (ih (fun e member => ⟨(known.2 e member).1.less (grows.trans grows'), (known.2 e member).2.less (grows.trans grows')⟩)
          each.2).bind fun left'' vs grows'' fine'' => whole_pure fun after later => List.forall_mem_cons.mpr
            ⟨⟨fine.less (grows'.trans (grows''.trans later)), fine'.less (grows''.trans later)⟩,
              fun e member => ⟨(fine'' e member).1.less later, (fine'' e member).2.less later⟩⟩

theorem whole_install {v : Value} (known : base.Knows v) : (install v).Whole base Store.Knows := by
  induction v using Value.containerInduction generalizing base with
  | leaf v leaf =>
    have form : install v = newObject v := by
      cases v <;> first | rfl | simp [Value.isContainer] at leaf
    rw [form]
    exact whole_newObject known
  | list items ih =>
    rw [install]
    exact (whole_installAll (known.items rfl) fun item member _ => ih item member).bind fun _ _ _ fine =>
      (whole_newList fine).bind fun _ _ _ there => whole_pure fun _ later => (Value.avoids_object.mpr there).less later
  | tuple items ih | set items ih | frozenset items ih =>
    rw [install]
    exact (whole_installAll (known.items rfl) fun item member _ => ih item member).bind fun _ _ _ fine =>
      whole_newObject (Value.avoids_items rfl fine)
  | dict held ih =>
    rw [install]
    exact (whole_installEntries (Value.avoids_dict.mp known) fun e member _ => ⟨(ih e member).1, (ih e member).2⟩).bind
      fun _ _ _ fine => whole_newObject (Value.avoids_dict.mpr fine)

end Run

end FirstSeen
