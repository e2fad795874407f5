import FirstSeen.Proofs.Obeying
import FirstSeen.Proofs.Tower.Waking
import FirstSeen.Proofs.Value.Containers

/-!
# What remains of a store

Whatever is asked of sequences, iterators and steps, each sequence goes on being made of what it was made of: the same
data, the same supply by the same key, the same steps on the same input. Only how far it is changes, and what a pipeline
has built. Data, lists, sources and steps stay, key functions answer as before, and calls are counted upwards.

A pipeline over data that was built of distinct steps has stages with the keys of these steps, in order. This is settled
once the chain is built, and remains from then on.
-/

set_option autoImplicit false

namespace FirstSeen

namespace Body

/-- What a body is made of: all but how far it is, and what was built of it. -/
def shape : Body → Body
  | pipeline steps input _ => pipeline steps input .null
  | body => body.frame

/-- What a body other than that of a pipeline is made of is all but how far it is. -/
theorem frame_of_shape {body other : Body} (same : other.shape = body.shape) (apart : body.kind ≠ .pipeline) :
    other.frame = body.frame := by
  cases body with
  | pipeline => exact absurd rfl apart
  | _ =>
    cases other <;> cases same
    rfl

/-- Where a body is does not say of which sort it is. -/
theorem kind_of_frame {body other : Body} (same : body.frame = other.frame) : body.kind = other.kind := by
  cases body <;> cases other <;> cases same <;> rfl

theorem shape_of_frame {body other : Body} (same : body.frame = other.frame) : body.shape = other.shape := by
  cases body <;> cases other <;> cases same <;> rfl

end Body

namespace Store

/-- A store in which each sequence is made of what it was made of, and no call was uncounted. -/
structure Remains (before after : Store) : Prop where
  grows : before.Grows after
  size : before.sequences.size ≤ after.sequences.size
  shape : ∀ id : SequenceId, id.index < before.sequences.size →
    (after.sequence id).body.shape = (before.sequence id).body.shape
  flag : ∀ id : SequenceId, id.index < before.sequences.size →
    (after.sequence id).multiValue = (before.sequence id).multiValue
  calls : ∀ id, (before.meter id).calls ≤ (after.meter id).calls

theorem Remains.refl (store : Store) : store.Remains store :=
  ⟨.refl store, Nat.le_refl _, fun _ _ => rfl, fun _ _ => rfl, fun _ => Nat.le_refl _⟩

theorem Remains.trans {first second third : Store} (h : first.Remains second) (k : second.Remains third) :
    first.Remains third :=
  ⟨h.grows.trans k.grows, Nat.le_trans h.size k.size,
    fun id inside => (k.shape id (Nat.lt_of_lt_of_le inside h.size)).trans (h.shape id inside),
    fun id inside => (k.flag id (Nat.lt_of_lt_of_le inside h.size)).trans (h.flag id inside),
    fun id => Nat.le_trans (h.calls id) (k.calls id)⟩

/-! ## Chains of the steps of a pipeline -/

/-- Whether a sequence is the last of distinct stages with the keys of these steps, latest first, over a sequence of
some shape. -/
def Carries (store : Store) (ground : Body) : List Value → SequenceId → Prop
  | [], id => id.index < store.sequences.size ∧ (store.sequence id).body.shape = ground
  | step :: earlier, id => id.index < store.sequences.size ∧ ∃ supply limit,
      (store.sequence id).body.shape = .distinct supply (store.keyOfStep step) limit .empty ∧
        store.Carries ground earlier supply

theorem Carries.inside {store : Store} {ground : Body} {steps : List Value} {id : SequenceId}
    (carries : store.Carries ground steps id) : id.index < store.sequences.size := by
  cases steps <;> exact carries.1

theorem keyOfStep_congr {before after : Store} (same : after.steps = before.steps) (step : Value) :
    after.keyOfStep step = before.keyOfStep step := by
  simp only [keyOfStep, Store.step, same]

/-- Stages remain where they are. -/
theorem Carries.later {before after : Store} {ground : Body} {steps : List Value} {id : SequenceId}
    (carries : before.Carries ground steps id) (remains : before.Remains after) : after.Carries ground steps id := by
  induction steps generalizing id with
  | nil => exact ⟨Nat.lt_of_lt_of_le carries.1 remains.size, (remains.shape id carries.1).trans carries.2⟩
  | cons step earlier ih =>
    obtain ⟨inside, supply, limit, form, below⟩ := carries
    refine ⟨Nat.lt_of_lt_of_le inside remains.size, supply, limit, ?_, ih below⟩
    rw [remains.shape id inside, form, keyOfStep_congr remains.grows.steps]

/-- Whether a value is a step that removes duplicates. -/
def IsDistinct (store : Store) (step : Value) : Prop :=
  ∃ s key limit, step = .object (.step s) ∧ store.step s = .distinct key limit

/-- Whether a pipeline with distinct steps over data was not built yet, or was built of its steps. -/
structure Rooted (multi : Bool) (ground : Body) (steps : ListId) (d : Value) (p : SequenceId) (store : Store) :
    Prop where
  inside : p.index < store.sequences.size
  listed : steps.index < store.lists.size
  distinct : ∀ step ∈ store.list steps, store.IsDistinct step
  plain : ground.shape = ground
  taken : store.TakenFor multi d ground
  flag : (store.sequence p).multiValue = multi
  built : ∃ out, (store.sequence p).body = .pipeline steps d out ∧
    (out.isNull = true ∨ ∃ top, out = .ofSequence top ∧ store.Carries ground (store.list steps).reverse top)

variable {multi : Bool} {ground : Body} {steps : ListId} {d : Value} {p : SequenceId}

/-- A pipeline whose output stays remains built of its steps. -/
theorem Rooted.later {before after : Store} (rooted : before.Rooted multi ground steps d p)
    (remains : before.Remains after) (frame : (after.sequence p).body.frame = (before.sequence p).body.frame) :
    after.Rooted multi ground steps d p := by
  obtain ⟨inside, listed, distinct, plain, taken, flag, out, form, built⟩ := rooted
  have lists := remains.grows.list listed
  obtain ⟨more, more'⟩ := remains.grows.lists
  refine ⟨Nat.lt_of_lt_of_le inside remains.size, ?_, fun step member => ?_, plain,
    fun later grows => taken later (remains.grows.trans grows), (remains.flag p inside).trans flag, out, ?_,
    built.imp_right ?_⟩
  · rw [more', Array.size_append]
    exact Nat.lt_add_right _ listed
  · rw [lists] at member
    obtain ⟨s, key, limit, same, found⟩ := distinct step member
    exact ⟨s, key, limit, same, by rw [← found, Store.step, Store.step, remains.grows.steps]⟩
  · rw [form] at frame
    cases here : (after.sequence p).body <;> rw [here] at frame <;> cases frame
    rfl
  · rintro ⟨top, same, carries⟩
    rw [lists]
    exact ⟨top, same, carries.later remains⟩

variable (multi ground steps d p) in
/-- A store that remains, in which a pipeline remains built of its steps. -/
def Led (before after : Store) : Prop :=
  before.Remains after ∧ (before.Rooted multi ground steps d p → after.Rooted multi ground steps d p)

instance : IsPreorder Store (Led multi ground steps d p) where
  refl store := ⟨.refl store, id⟩
  trans _ _ _ h k := ⟨h.1.trans k.1, fun rooted => k.2 (h.2 rooted)⟩

/-- A store remains in which each sequence has the frame that it had. -/
theorem led_of_frame {before after : Store} (remains : before.Remains after)
    (frame : ∀ id : SequenceId, id.index < before.sequences.size →
      (after.sequence id).body.frame = (before.sequence id).body.frame) : Led multi ground steps d p before after :=
  ⟨remains, fun rooted => rooted.later remains (frame p rooted.inside)⟩

/-- A store remains in which no sequence changed. -/
theorem led_of_sequences {before after : Store} (grows : before.Grows after) (same : after.sequences = before.sequences)
    (calls : ∀ id, (before.meter id).calls ≤ (after.meter id).calls) : Led multi ground steps d p before after := by
  have here : ∀ id, after.sequence id = before.sequence id := fun id => by simp only [Store.sequence, same]
  exact led_of_frame ⟨grows, Nat.le_of_eq (by rw [same]), fun id _ => by rw [here], fun id _ => by rw [here], calls⟩
    fun id _ => by rw [here]

/-- A store remains in which one sequence is made of what it was made of. -/
theorem remains_updated (store : Store) (id : SequenceId) (f : SequenceState → SequenceState)
    (shape : (f (store.sequence id)).body.shape = (store.sequence id).body.shape)
    (flag : (f (store.sequence id)).multiValue = (store.sequence id).multiValue) :
    store.Remains (store.updated id f) := by
  have there : ∀ other : SequenceId, other.index < store.sequences.size →
      ((store.updated id f).sequence other).body.shape = (store.sequence other).body.shape ∧
        ((store.updated id f).sequence other).multiValue = (store.sequence other).multiValue := by
    intro other inside
    by_cases same : other = id
    · subst same
      rw [sequence_updated inside]
      exact ⟨shape, flag⟩
    · rw [sequence_updated_ne same]
      exact ⟨rfl, rfl⟩
  exact ⟨grows_updated store id f, by simp, fun other inside => (there other inside).1,
    fun other inside => (there other inside).2, fun _ => Nat.le_refl _⟩

/-- A store remains in which one sequence has moved. -/
theorem led_updated (store : Store) (id : SequenceId) (f : SequenceState → SequenceState)
    (frame : (f (store.sequence id)).body.frame = (store.sequence id).body.frame)
    (flag : (f (store.sequence id)).multiValue = (store.sequence id).multiValue) :
    Led multi ground steps d p store (store.updated id f) := by
  refine led_of_frame (remains_updated store id f (Body.shape_of_frame frame) flag) fun other inside => ?_
  by_cases same : other = id
  · subst same
    rw [sequence_updated inside]
    exact frame
  · rw [sequence_updated_ne same]

end Store

namespace Run

open Store

variable {α β : Type} {multi : Bool} {ground : Body} {steps : ListId} {d : Value} {p : SequenceId}

/-! ## What runs are made of -/

theorem led_newSequence (state : SequenceState) : (newSequence state).Keeps (Led multi ground steps d p) := by
  intro store
  have there : ∀ id : SequenceId, id.index < store.sequences.size →
      ((newSequence state).from? store).2.sequence id = store.sequence id := fun _ => sequence_joined
  exact led_of_frame ⟨grows_joined store state, by simp, fun id inside => by rw [there id inside],
    fun id inside => by rw [there id inside], fun _ => Nat.le_refl _⟩ fun id inside => by rw [there id inside]

theorem led_updateSequence (id : SequenceId) (f : SequenceState → SequenceState)
    (same : ∀ state, (f state).body.frame = state.body.frame ∧ (f state).multiValue = state.multiValue) :
    (updateSequence id f).Keeps (Led multi ground steps d p) := fun store =>
  led_updated store id f (same _).1 (same _).2

theorem led_setBody (store : Store) (id : SequenceId) (body : Body)
    (frame : body.frame = (store.sequence id).body.frame) :
    Led multi ground steps d p store ((setBody id body).from? store).2 :=
  led_updated store id _ frame rfl

theorem led_tell (notice : Notice) : (tell notice).Keeps (Led multi ground steps d p) := fun store =>
  led_of_sequences (still_journal store _).grows rfl fun _ => Nat.le_refl _

theorem led_newCursor (cursor : Cursor) : (newCursor cursor).Keeps (Led multi ground steps d p) := fun _ =>
  led_of_sequences ⟨⟨#[], by simp⟩, ⟨#[], by simp⟩, rfl, rfl, fun _ => rfl, rfl, Nat.le_refl _⟩ rfl
    fun _ => Nat.le_refl _

theorem led_setCursor (id : CursorId) (cursor : Cursor) : (setCursor id cursor).Keeps (Led multi ground steps d p) :=
  fun _ => led_of_sequences ⟨⟨#[], by simp⟩, ⟨#[], by simp⟩, rfl, rfl, fun _ => rfl, rfl, Nat.le_refl _⟩ rfl
    fun _ => Nat.le_refl _

theorem led_newDatum (v : Value) : (newDatum v).Keeps (Led multi ground steps d p) := fun _ =>
  led_of_sequences ⟨⟨#[v], by simp⟩, ⟨#[], by simp⟩, rfl, rfl, fun _ => rfl, rfl, Nat.le_refl _⟩ rfl
    fun _ => Nat.le_refl _

theorem led_newList (items : List Value) : (newList items).Keeps (Led multi ground steps d p) := fun _ =>
  led_of_sequences ⟨⟨#[], by simp⟩, ⟨#[items], by simp⟩, rfl, rfl, fun _ => rfl, rfl, Nat.le_refl _⟩ rfl
    fun _ => Nat.le_refl _

/-- Counting uses uncounts no call. -/
theorem led_updateMeter (id : MeterId) (f : Meter → Meter) (more : ∀ m : Meter, m.calls ≤ (f m).calls) :
    (updateMeter id f).Keeps (Led multi ground steps d p) := by
  intro store
  refine led_of_sequences (extends_of_meters (by simp)).grows rfl fun other => ?_
  simp only [from?_updateMeter, Store.meter, Array.getD_eq_getD_getElem?, Array.getElem?_modify]
  split
  · cases store.meters[other.index]? with
    | none => exact Nat.le_refl _
    | some m => exact more m
  · exact Nat.le_refl _

/-- A key function that keeps what it was asked answers as before. -/
theorem led_asked (id : KeyId) (args : List Value) : (modify fun store => { store with
    keys := store.keys.modify id.index fun key => { key with history := key.history.push args } } : Run Unit).Keeps
    (Led multi ground steps d p) := fun store => by
  refine led_of_sequences ⟨⟨#[], Array.append_empty.symm⟩, ⟨#[], Array.append_empty.symm⟩, rfl, rfl, fun other => ?_,
    rfl, Nat.le_refl _⟩ rfl fun _ => Nat.le_refl _
  change (Store.key { store with keys := store.keys.modify id.index _ } other).respond = _
  simp only [Store.key, Array.getD_eq_getD_getElem?, Array.getElem?_modify]
  split
  · cases store.keys[other.index]? <;> rfl
  · rfl

/-- A sequence can be put elsewhere later on if it then is made of what it was made of before. -/
theorem led_setBody_later {store left : Store} {id : SequenceId} (body : Body)
    (led : Led multi ground steps d p store left) (frame : body.frame = (store.sequence id).body.frame)
    (apart : body.kind ≠ .pipeline) (there : body.kind ≠ .abstract) :
    Led multi ground steps d p left ((setBody id body).from? left).2 := by
  have kind := Body.kind_of_frame frame
  have inside : id.index < store.sequences.size := by
    refine Decidable.byContradiction fun outside => there ?_
    rw [kind, sequence_outside outside]
    rfl
  exact led_setBody left id _ (frame.trans (Body.frame_of_shape (led.1.shape id inside) (kind ▸ apart)).symm)

instance : (Law.keeping (Led multi ground steps d p)).Elementary where
  handed id := led_updateSequence id _ fun _ => ⟨rfl, rfl⟩
  begun id := led_updateSequence id _ fun _ => ⟨rfl, rfl⟩
  ended id := led_updateSequence id _ fun _ => ⟨rfl, rfl⟩
  restarted id := (led_updateSequence id _ (by exact fun _ => ⟨rfl, rfl⟩)).bind fun _ => (keeps_view _).bind fun _ =>
    led_tell _
  body led ends frame apart there := by
    rw [Law.keeping, ends] at led
    exact led_setBody_later _ led frame apart there
  told notice _ := led_tell notice
  newSequence _ _ := led_newSequence _
  newCursor cursor _ := led_newCursor cursor
  setCursor id cursor _ := led_setCursor id cursor
  looked _ led := led
  entered {_ id _ store _ _ _ _} there _ same led := by
    rw [Law.keeping, from?_bind_ok (from?_cursor ..), there, same]
    exact Keeps.bind (led_setCursor _ _) (fun _ => led) store
  newDatum := led_newDatum
  newList := led_newList
  counted := led_updateMeter
  asked := led_asked

end Run

/-! ## Operations that call each other -/

namespace Calls

open Run Store

/-- Whether all operations leave what remains of a store, and applying distinct steps puts stages with their keys on a
chain. -/
structure Leads (multi : Bool) (ground : Body) (steps : ListId) (d : Value) (p : SequenceId) (c : Calls) : Prop
    extends c.Keeps (Led multi ground steps d p) where
  next : ∀ id, (c.next id).Keeps (Led multi ground steps d p)
  pull : ∀ id, (c.pull id).Keeps (Led multi ground steps d p)
  advance : ∀ id, (c.advance id).Keeps (Led multi ground steps d p)
  gather : ∀ feed earlier, (c.gather feed earlier).Keeps (Led multi ground steps d p)
  stages : ∀ (store after : Store) (step : Value) (supply : SequenceId) (earlier : List Value) (v : Value),
    store.IsDistinct step → store.Carries ground earlier supply →
    (c.apply step (.ofSequence supply)).from? store = (.ok v, after) →
    ∃ top, v = .ofSequence top ∧ after.Carries ground (step :: earlier) top

namespace Leads

variable {c : Calls} {multi : Bool} {ground : Body} {steps : ListId} {d : Value} {p : SequenceId}
  (leads : c.Leads multi ground steps d p)
include leads

/-- To leave what remains of a store is a law. -/
theorem obeys : c.Obeys (.keeping (Led multi ground steps d p)) :=
  { leads.toKeeps.builds with
    next := leads.next, pull := leads.pull, advance := leads.advance, gather := leads.gather }

/-! ### Building -/

/-- Applying distinct steps in turn puts stages with their keys on a chain. -/
theorem stagesAll {store after : Store} {items earlier : List Value} {supply : SequenceId} {v : Value}
    (distinct : ∀ step ∈ items, store.IsDistinct step) (carries : store.Carries ground earlier supply)
    (ends : (c.applyAll items (.ofSequence supply)).from? store = (.ok v, after)) :
    ∃ top, v = .ofSequence top ∧ after.Carries ground (items.reverse ++ earlier) top := by
  induction items generalizing store earlier supply with
  | nil =>
    cases ends
    exact ⟨supply, rfl, carries⟩
  | cons step rest ih =>
    obtain ⟨here, others⟩ := List.forall_mem_cons.mp distinct
    have led := leads.apply step (.ofSequence supply) store
    rw [Calls.applyAll, from?_bind] at ends
    rcases applied : (c.apply step (.ofSequence supply)).from? store with ⟨halt | w, left⟩ <;>
      rw [applied] at ends led
    · cases ends
    · obtain ⟨top, rfl, carries'⟩ := leads.stages store left step supply earlier w here carries applied
      obtain ⟨top', same, carries''⟩ := ih (fun other member => by
        obtain ⟨s, key, limit, same, found⟩ := others other member
        exact ⟨s, key, limit, same, by rw [← found, Store.step, Store.step, led.1.grows.steps]⟩) carries' ends
      refine ⟨top', same, ?_⟩
      rw [List.reverse_cons, List.append_assoc]
      exact carries''

/-- A pipeline over data is built of its steps. -/
theorem built {store after : Store} {v : Value} (rooted : store.Rooted multi ground steps d p)
    (ends : (c.buildFor p .null).from? store = (.ok v, after)) :
    ∃ top, v = .ofSequence top ∧ after.Carries ground (store.list steps).reverse top := by
  obtain ⟨inside, listed, distinct, plain, taken, flag, out, form, -⟩ := rooted
  rw [Calls.buildFor, from?_bind_ok (from?_sequence ..), form] at ends
  simp only at ends
  cases bound : d.isNull with
  | true =>
    have none : (ofExcept (inputOf .null d)).from? store = (.error (.fault .noInput), store) := by
      rw [from?_ofExcept, inputOf, bound]
      rfl
    rw [from?_bind_error none] at ends
    cases ends
  | false =>
    have given : (ofExcept (inputOf .null d)).from? store = (.ok d, store) := by
      rw [from?_ofExcept, inputOf, bound]
      rfl
    rw [from?_bind_ok given, flag, Calls.build, from?_bind_ok (taken store (.refl store))] at ends
    -- The data become a new sequence, which was not started.
    let state : SequenceState := { body := ground, multiValue := multi }
    change (Run.sequence ⟨store.sequences.size⟩ >>= _).from? (store.joined state) = _ at ends
    rw [from?_bind_ok (from?_sequence ..), sequence_joined_new] at ends
    have base : (store.joined state).Carries ground [] ⟨store.sequences.size⟩ := by
      refine ⟨by simp [Store.joined], ?_⟩
      rw [sequence_joined_new]
      exact plain
    have distinct' : ∀ step ∈ store.list steps, (store.joined state).IsDistinct step := distinct
    obtain ⟨top, same, carries⟩ := leads.stagesAll distinct' base ends
    rw [List.append_nil] at carries
    exact ⟨top, same, carries⟩

/-- What a pipeline builds is kept as its output. -/
theorem outputOf (id : SequenceId) (kept : Value) : (c.outputOf id kept).Keeps (Led multi ground steps d p) := by
  refine .ite ?_ (keeps_pure _)
  intro store
  have led : Led multi ground steps d p store _ := leads.obeys.buildFor id .null store
  rw [from?_bind]
  rcases ends : (c.buildFor id .null).from? store with ⟨halt | output, left⟩ <;> rw [ends] at led
  · exact led
  · let keep := SequenceState.keeping output
    have shape : ∀ state, (keep state).body.shape = state.body.shape ∧ (keep state).multiValue = state.multiValue := by
      rintro ⟨body, flag, started, exhausted, peeked⟩
      cases body <;> exact ⟨rfl, rfl⟩
    have remains := remains_updated left id keep (shape _).1 (shape _).2
    change Led multi ground steps d p store (left.updated id keep)
    refine ⟨led.1.trans remains, fun rooted => ?_⟩
    have rooted' : left.Rooted multi ground steps d p := led.2 rooted
    by_cases same : p = id
    · subst same
      obtain ⟨top, rfl, carries⟩ := leads.built rooted ends
      have lists := led.1.grows.list rooted.listed
      obtain ⟨inside, listed, distinct, plain, taken, flag, out, form, -⟩ := rooted'
      refine ⟨by simpa using inside, listed, distinct, plain, fun later grows => taken later (remains.grows.trans grows),
        (remains.flag p inside).trans flag, .ofSequence top, ?_, .inr ⟨top, rfl, ?_⟩⟩
      · rw [sequence_updated inside]
        exact congrArg SequenceState.body (SequenceState.keeping_pipeline form)
      · change (left.updated p keep).Carries ground (left.list steps).reverse top
        rw [lists]
        exact carries.later remains
    · refine rooted'.later remains ?_
      rw [sequence_updated_ne same]

end Leads

/-- Applying a distinct step puts a stage with its key on a chain. -/
theorem stages_applyWith {c : Calls} {multi : Bool} {ground : Body} {steps : ListId} {d : Value} {p : SequenceId}
    (leads : c.Leads multi ground steps d p) {store after : Store} {step v : Value} {supply : SequenceId}
    {earlier : List Value} (distinct : store.IsDistinct step) (carries : store.Carries ground earlier supply)
    (ends : (c.applyWith step (.ofSequence supply)).from? store = (.ok v, after)) :
    ∃ top, v = .ofSequence top ∧ after.Carries ground (step :: earlier) top := by
  obtain ⟨s, key, limit, rfl, found⟩ := distinct
  have led := leads.isMulti supply store
  rw [Calls.applyWith, from?_bind_ok (from?_view ..), found] at ends
  simp only [Calls.newDistinct, bind_assoc] at ends
  rw [from?_bind] at ends
  rcases asked : (c.isMulti supply).from? store with ⟨halt | flag, left⟩ <;> rw [asked] at ends led
  · cases ends
  · cases ends
    let state : SequenceState := { body := .distinct supply key limit .empty, multiValue := flag }
    have joined : Led multi ground steps d p left (left.joined state) := led_newSequence state left
    refine ⟨_, rfl, by simp, supply, limit, ?_, (carries.later led.1).later joined.1⟩
    change ((left.joined state).sequence ⟨left.sequences.size⟩).body.shape = _
    rw [sequence_joined_new]
    have key' : left.keyOfStep (.object (.step s)) = key := by
      rw [keyOfStep_congr led.1.grows.steps]
      simp only [keyOfStep, found]
    change Body.distinct supply key limit .empty = .distinct supply (left.keyOfStep (.object (.step s))) limit .empty
    rw [key']

/-- At every depth of calls, all operations leave what remains of a store. -/
theorem leads_calls (multi : Bool) (ground : Body) (steps : ListId) (d : Value) (p : SequenceId) (n : Nat) :
    (calls n).Leads multi ground steps d p := by
  induction n with
  | zero =>
    have refused : Calls.refused.Obeys (.keeping (Led multi ground steps d p)) := obeys_refused
    exact { refused with stages := by rintro _ _ _ _ _ _ _ _ ⟨⟩ }
  | succ n ih =>
    exact { obeys_succ ih.obeys ih.outputOf with
            stages := fun _ _ _ _ _ _ distinct carries ends => stages_applyWith ih distinct carries ends }

end Calls

end FirstSeen
