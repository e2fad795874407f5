import FirstSeen.Engine
import FirstSeen.Proofs.Composing
import FirstSeen.Proofs.Value.Containers

/-!
# Laws that all operations obey

All that operations do to a store is made of few changes: an element is handed out, a pass begins, ends or begins again,
a body goes on with what it was made of, an object is added, an iterator moves on, a counter is raised. A law that
these changes obey is obeyed by every operation at every depth of calls, if what a pipeline builds can be kept as its
output.
-/

set_option autoImplicit false

namespace FirstSeen

namespace Body

/-- A body without how far it is: what it holds of an iterator, and the keys that it has seen. -/
def frame : Body → Body
  | iterable data _ => iterable data none
  | produced factory size _ => produced factory size none
  | distinct supply key limit _ => distinct supply key limit .empty
  | body => body

end Body

/-- Whether an iterator is a stream that was not begun. -/
def Cursor.IsUnbegun (cursor : Cursor) : Prop := ∃ pipeline input, cursor = .streaming pipeline input .fresh

/-- Begins a sequence again in the eyes of others, and tells so. -/
def Run.restart (id : SequenceId) : Run Unit := do
  updateSequence id fun state => { state with started := false, exhausted := false, peeked := none }
  tell (.rewound id (← sequence id).body.kind)

/-- A law that the changes obey which operations make around sequences: to iterators, counters and key functions. -/
class Law.Ambient (law : Law) : Prop extends law.Makes where
  newCursor : ∀ cursor, ¬cursor.IsUnbegun → (Run.newCursor cursor).Obeys law
  setCursor : ∀ id cursor, ¬cursor.IsUnbegun → (Run.setCursor id cursor).Obeys law
  /-- An iterator may be looked at that is no stream, or was begun. -/
  looked : ∀ {β : Type} {id : CursorId} {next : Cursor → Run β} {store : Store}, ¬(store.cursor id).IsUnbegun →
    law β (next (store.cursor id)) store → law β (Run.cursor id >>= next) store
  /-- A stream that was not begun may be looked at if it is begun or closed then. -/
  entered : ∀ {β : Type} {id : CursorId} {next : Cursor → Run β} {store : Store} {pipeline : SequenceId} {input : Value}
    {phase : StreamPhase} {rest : Run β}, store.cursor id = .streaming pipeline input .fresh → phase ≠ .fresh →
    next (.streaming pipeline input .fresh) =
      (Run.setCursor id (.streaming pipeline input phase) >>= fun _ => rest) →
    rest.Obeys law → law β (Run.cursor id >>= next) store
  newDatum : ∀ v, (Run.newDatum v).Obeys law
  counted : ∀ id f, (∀ m : Meter, m.calls ≤ (f m).calls) → (Run.updateMeter id f).Obeys law
  asked : ∀ (id : KeyId) (args : List Value), (modify fun store => { store with
    keys := store.keys.modify id.index fun key => { key with history := key.history.push args } } : Run Unit).Obeys law

/-- A law that the changes obey of which operations are made. -/
class Law.Elementary (law : Law) : Prop extends law.Ambient where
  handed : ∀ id, (Run.updateSequence id fun state => { state with peeked := none }).Obeys law
  begun : ∀ id, (Run.updateSequence id fun state => { state with started := true }).Obeys law
  ended : ∀ id, (Run.updateSequence id fun state => { state with exhausted := true }).Obeys law
  restarted : ∀ id, (Run.restart id).Obeys law
  /-- A body can be put where one with its frame was at the start of a run before. -/
  body : ∀ {α : Type} {run : Run α} {store left : Store} {a : α} {id : SequenceId} {body : Body}, law α run store →
    run.from? store = (.ok a, left) → body.frame = (store.sequence id).body.frame →
    body.kind ≠ .pipeline → body.kind ≠ .abstract → law Unit (Run.setBody id body) left
  told : ∀ notice, (∀ id kind, notice ≠ .rewound id kind) → (Run.tell notice).Obeys law

/-- A law that is obeyed where the body of one sequence goes on with what it was made of, and where it is told what recording
a key had to tell. -/
structure Law.Bodies (law : Law) (id : SequenceId) : Prop where
  body : ∀ {α : Type} {run : Run α} {store left : Store} {a : α} {body : Body}, law α run store →
    run.from? store = (.ok a, left) → body.frame = (store.sequence id).body.frame →
    body.kind ≠ .pipeline → body.kind ≠ .abstract → law Unit (Run.setBody id body) left
  noted : ∀ notice : Notice, notice.subject = id → (∀ kind, notice ≠ .exhausted id kind) →
    (∀ kind, notice ≠ .rewound id kind) → (Run.tell notice).Obeys law

/-- A law that all changes to one sequence obey. -/
structure Law.Moves (law : Law) (id : SequenceId) : Prop extends law.Bodies id where
  handed : (Run.updateSequence id fun state => { state with peeked := none }).Obeys law
  begun : (Run.updateSequence id fun state => { state with started := true }).Obeys law
  ended : (Run.updateSequence id fun state => { state with exhausted := true }).Obeys law
  toldEnd : ∀ kind, (Run.tell (.exhausted id kind)).Obeys law
  restarted : (Run.restart id).Obeys law

/-- What holds of the changes to all sequences holds of those to one. -/
theorem Law.Elementary.moves {law : Law} [law.Elementary] (id : SequenceId) : law.Moves id where
  handed := handed id
  begun := begun id
  ended := ended id
  toldEnd kind := told _ (by simp)
  restarted := restarted id
  body := body
  noted notice about _ untold := told notice fun other kind same => by
    subst same
    cases about
    exact untold kind rfl

namespace Run

section

variable {law : Law} [law.Composes]

/-- Installing a value adds objects and lists. -/
theorem obeys_install_of (datum : ∀ v, (newDatum v).Obeys law) (list : ∀ items, (newList items).Obeys law) (v : Value) :
    (install v).Obeys law := by
  have object : ∀ v, (newObject v).Obeys law := fun v => .ite (obeys_pure v) ((datum v).bind fun _ => obeys_pure _)
  have all : ∀ items : List Value, (∀ item ∈ items, (install item).Obeys law) → (installAll items).Obeys law := by
    intro items each
    induction items with
    | nil =>
      rw [installAll]
      exact obeys_pure _
    | cons item rest ih =>
      rw [List.forall_mem_cons] at each
      rw [installAll]
      exact each.1.bind fun _ => (ih each.2).bind fun _ => obeys_pure _
  have entries : ∀ held : List (Value × Value), (∀ e ∈ held, (install e.1).Obeys law ∧ (install e.2).Obeys law) →
      (installEntries held).Obeys law := by
    intro held each
    induction held with
    | nil =>
      rw [installEntries]
      exact obeys_pure _
    | cons e rest ih =>
      rw [List.forall_mem_cons] at each
      rw [installEntries]
      exact each.1.1.bind fun _ => each.1.2.bind fun _ => (ih each.2).bind fun _ => obeys_pure _
  induction v using Value.containerInduction with
  | leaf v leaf =>
    have form : install v = newObject v := by
      cases v <;> first | rfl | simp [Value.isContainer] at leaf
    rw [form]
    exact object v
  | list items ih =>
    rw [install]
    exact (all items ih).bind fun _ => (list _).bind fun _ => obeys_pure _
  | tuple items ih | set items ih | frozenset items ih =>
    rw [install]
    exact (all items ih).bind fun _ => object _
  | dict held ih =>
    rw [install]
    exact (entries held ih).bind fun _ => object _

end

variable {α β : Type} {law : Law} [law.Ambient]

theorem obeys_newObject (v : Value) : (newObject v).Obeys law :=
  .ite (obeys_pure v) ((Law.Ambient.newDatum v).bind fun _ => obeys_pure _)

theorem obeys_updateMeter? (id : Option MeterId) (f : Meter → Meter) (more : ∀ m : Meter, m.calls ≤ (f m).calls) :
    (updateMeter? id f).Obeys law := by
  cases id with
  | none => exact obeys_pure ()
  | some id => exact Law.Ambient.counted id f more

/-! ## Calling and opening -/

theorem obeys_install (v : Value) : (install v).Obeys law :=
  obeys_install_of Law.Ambient.newDatum Law.Makes.newList v

theorem obeys_callKey (id : KeyId) (arguments : List Value) : (callKey id arguments).Obeys law :=
  (obeys_view (Store.unseeing_answerOf id arguments)).bind fun (args, answer) =>
    (Law.Ambient.asked id args).bind fun _ => obeys_ofExcept answer

/-- A new iterator other than a stream. -/
theorem obeys_newCursor {cursor : Cursor} (apart : ∀ pipeline input phase, cursor ≠ .streaming pipeline input phase) :
    (newCursor cursor).Obeys law :=
  Law.Ambient.newCursor cursor fun ⟨pipeline, input, same⟩ => apart pipeline input .fresh same

theorem obeys_make (meter : MeterId) (product : Product) : (make meter product).Obeys law := by
  cases product with
  | value | shared => exact obeys_pure _
  | generator | walker | items => exact (obeys_newCursor (by simp)).bind fun _ => obeys_pure _

theorem obeys_callSource (source : Source) (product : Product) : (callSource source product).Obeys law :=
  (Law.Ambient.counted _ _ fun m => Nat.le_succ m.calls).bind fun _ => (obeys_view fun _ => rfl).bind fun _ =>
    .unless (obeys_make _ _)

theorem obeys_call (v : Value) (args : List Value) : (call v args).Obeys law := by
  unfold call
  split
  · exact obeys_callKey _ args
  · refine (obeys_view fun _ => rfl).bind fun source => ?_
    split
    · exact obeys_callSource _ _
    · exact obeys_fail _
  · exact (obeys_typeName _).bind fun _ => obeys_fail _

theorem obeys_openSource (source : Source) : (openSource source).Obeys law := by
  have counted : (updateMeter source.meter fun m => { m with iterations := m.iterations + 1 }).Obeys law :=
    Law.Ambient.counted source.meter _ fun _ => Nat.le_refl _
  unfold openSource
  split
  · exact (obeys_newCursor (by simp)).bind fun _ => obeys_pure _
  · exact counted.bind fun _ => (obeys_newCursor (by simp)).bind fun _ => obeys_pure _
  · exact counted.bind fun _ => obeys_fail _
  · exact (obeys_newCursor (by simp)).bind fun _ => obeys_pure _
  · exact obeys_fail _

theorem obeys_openFeed (v : Value) : (openFeed v).Obeys law := by
  unfold openFeed
  split
  · exact obeys_pure _
  · exact obeys_pure _
  · exact (obeys_newCursor (by simp)).bind fun _ => obeys_pure _
  · exact (obeys_view fun _ => rfl).bind fun source => obeys_openSource source
  · refine (obeys_plain _).bind fun held => ?_
    split
    · exact (obeys_newCursor (by simp)).bind fun _ => obeys_pure _
    · split
      · exact (obeys_newCursor (by simp)).bind fun _ => obeys_pure _
      · exact (obeys_typeName _).bind fun _ => obeys_fail _

/-- How much of an iterator is left does not depend on where streams are. -/
theorem obeys_remainingOf (v : Value) : (remainingOf v).Obeys law := by
  unfold remainingOf
  split
  · rename_i id
    have same : ∀ {β : Type} (next : Cursor → Run β), (∀ cursor, next cursor = next cursor.faded) →
        (cursor id >>= next) = view (fun store => (store.cursor id).faded) >>= next := fun next blind => by
      funext store
      exact congrFun (blind (store.cursor id)) store
    rw [same _ fun cursor => by cases cursor <;> rfl]
    refine (obeys_view fun store => ?_).bind fun cursor => ?_
    · rw [Store.cursor_faded]
      cases store.cursor id <;> rfl
    · split
      · exact .ite (obeys_fail _) (obeys_pure _)
      · exact obeys_pure _
  · exact obeys_lengthOf v

/-- Making room takes none. -/
theorem obeys_makeRoom (v : Value) : (makeRoom v).Obeys law := by
  refine ((obeys_remainingOf v).onFault fun fault => .ite (obeys_pure _) (obeys_fail _)).bind fun length => ?_
  split
  · exact .ite (obeys_fail _) (obeys_pure _)
  · exact obeys_pure _

/-! ## Moving on and closing -/

/-- An iterator that is no unbegun stream takes the place of another. -/
theorem obeys_setCursor (id : CursorId) {cursor : Cursor}
    (apart : ∀ pipeline input, cursor ≠ .streaming pipeline input .fresh) : (setCursor id cursor).Obeys law :=
  Law.Ambient.setCursor id cursor fun ⟨pipeline, input, same⟩ => apart pipeline input same

theorem obeys_noteClose (meter : Option MeterId) (closing : CloseRule) : (noteClose meter closing).Obeys law := by
  cases closing with
  | silent => exact obeys_pure ()
  | counted fault =>
    refine (obeys_updateMeter? meter _ (by exact fun _ => Nat.le_refl _)).bind fun _ => ?_
    cases fault with
    | none => exact obeys_pure ()
    | some fault => exact obeys_fail fault

/-- A run that looks at an iterator obeys a law if it does for every iterator but an unbegun stream, and begins or
closes such a stream. -/
theorem obeys_cursor {id : CursorId} {next : Cursor → Run β}
    (others : ∀ cursor : Cursor, ¬cursor.IsUnbegun → (next cursor).Obeys law)
    (enters : ∀ pipeline input, ∃ phase rest, phase ≠ StreamPhase.fresh ∧
      next (.streaming pipeline input .fresh) = (setCursor id (.streaming pipeline input phase) >>= fun _ => rest) ∧
      Run.Obeys law rest) : (cursor id >>= next).Obeys law := by
  intro store
  by_cases unbegun : (store.cursor id).IsUnbegun
  · obtain ⟨pipeline, input, there⟩ := unbegun
    obtain ⟨phase, rest, begun, same, obeys⟩ := enters pipeline input
    exact Law.Ambient.entered there begun same obeys
  · exact Law.Ambient.looked unbegun (others _ unbegun store)

theorem obeys_closeCursor (id : CursorId) : (closeCursor id).Obeys law := by
  refine obeys_cursor (fun cursor unbegun => ?_) fun pipeline input => ?_
  · cases cursor with
    | walking name script position meter closing => exact obeys_noteClose meter closing
    | listing | ranging => exact obeys_pure ()
    | generating script position phase meter closing =>
      exact (obeys_setCursor id (by simp)).bind fun _ =>
        .ite (.onFault (obeys_noteClose meter closing) fun _ => obeys_fail _) (obeys_pure ())
    | streaming pipeline input phase => exact .unless (obeys_setCursor id (by simp))
  · exact ⟨.finished, pure (), StreamPhase.noConfusion, (bind_pure _).symm, obeys_pure ()⟩

theorem obeys_closeFeed (feed : Feed) : (closeFeed feed).Obeys law := by
  cases feed with
  | cursor id => exact obeys_closeCursor id
  | sequence id => exact obeys_pure ()

theorem obeys_deliver (event : Event) : (deliver event).Obeys law := by
  cases event with
  | value v => exact obeys_pure v
  | made v => exact obeys_newObject v
  | fault fault => exact obeys_fail fault

theorem obeys_advanceWalker (id : CursorId) (typeName : String) (script : Script) (position : Nat)
    (meter : Option MeterId) (closing : CloseRule) :
    (advanceWalker id typeName script position meter closing).Obeys law := by
  refine (obeys_updateMeter? meter _ (by exact fun _ => Nat.le_refl _)).bind fun _ => ?_
  split
  · exact obeys_fail _
  · exact (obeys_setCursor id (by simp)).bind fun _ => obeys_deliver _

theorem obeys_advanceListing (id : CursorId) (list : ListId) (position : Nat) (ended : Bool) :
    (advanceListing id list position ended).Obeys law := by
  refine .unless ((obeys_list _).bind fun items => ?_)
  split
  · exact (obeys_setCursor id (by simp)).bind fun _ => obeys_fail _
  · exact (obeys_setCursor id (by simp)).bind fun _ => obeys_pure _

theorem obeys_advanceRanging (id : CursorId) (start stop step : Int) (position : Nat) :
    (advanceRanging id start stop step position).Obeys law := by
  unfold advanceRanging
  split
  · exact obeys_fail _
  · exact (obeys_setCursor id (by simp)).bind fun _ => obeys_newObject _

theorem obeys_advanceGenerator (id : CursorId) (script : Script) (position : Nat) (phase : Phase)
    (meter : Option MeterId) (closing : CloseRule) :
    (advanceGenerator id script position phase meter closing).Obeys law := by
  refine .unless ?_
  refine .ite ((obeys_updateMeter? meter _ (by exact fun _ => Nat.le_refl _)).bind fun _ => ?_) ?_ <;>
  · split
    · exact (obeys_setCursor id (by simp)).bind fun _ => obeys_fail _
    · refine (obeys_updateMeter? meter _ (by exact fun _ => Nat.le_refl _)).bind fun _ => ?_
      split
      · exact (obeys_setCursor id (by simp)).bind fun _ => obeys_fail _
      · exact (obeys_setCursor id (by simp)).bind fun _ => obeys_deliver _

/-! ## Sequences -/

/-- What follows a reading needs to obey a law only for what is read. -/
theorem obeys_sequence_at {id : SequenceId} {next : SequenceState → Run β} {store : Store}
    (rest : law β (next (store.sequence id)) store) : law β (sequence id >>= next) store :=
  Law.Composes.bind (obeys_sequence id store) fun a left ends => by
    cases ends
    exact rest

section

variable {id : SequenceId} (bodies : law.Bodies id)
include bodies

/-- A body with the same frame takes the place of another. -/
theorem obeys_setBody {store : Store} {body : Body} (frame : body.frame = (store.sequence id).body.frame)
    (apart : body.kind ≠ .pipeline) (there : body.kind ≠ .abstract) : law Unit (setBody id body) store :=
  bodies.body (obeys_pure () store) rfl frame apart there

theorem obeys_cleanUp : (cleanUp id).Obeys law := by
  intro store
  refine obeys_sequence_at ?_
  split <;> rename_i form
  · exact obeys_setBody bodies (by rw [form]; rfl) SequenceKind.noConfusion SequenceKind.noConfusion
  · exact obeys_setBody bodies (by rw [form]; rfl) SequenceKind.noConfusion SequenceKind.noConfusion
  · exact obeys_pure () store

theorem obeys_tellSeen (key : Value) (notices : List SeenNotice) : (tellSeen id key notices).Obeys law := by
  induction notices with
  | nil => exact obeys_pure ()
  | cons notice rest ih =>
    cases notice with
    | listLookup =>
      exact (obeys_typeName _).bind fun _ => (bodies.noted _ rfl (by simp) (by simp)).bind fun _ => ih
    | limitReached => exact (bodies.noted _ rfl (by simp) (by simp)).bind fun _ => ih

/-- Recording a key changes nothing but what was seen. -/
theorem obeys_remember (key : Value) : (remember id key).Obeys law := by
  intro store
  refine obeys_sequence_at ?_
  split
  · rename_i supply keyFunction limit seen form
    have reads : ∀ {γ : Type} {f : Store → γ} {next : γ → Run Bool}, Store.Unseeing f → law Bool (next (f store)) store →
        law Bool (view f >>= next) store := fun unseeing rest =>
      Law.Composes.bind (obeys_view unseeing store) fun _ _ ends => by
        cases ends
        exact rest
    refine reads (Store.unseeing_contents limit) (reads (fun _ => rfl) (reads (Store.unseeing_contents key) ?_))
    refine Law.Composes.bind (obeys_setBody bodies (by rw [form]; rfl) SequenceKind.noConfusion SequenceKind.noConfusion)
      fun _ left _ => ?_
    exact (obeys_tellSeen bodies key _).bind (fun _ => obeys_ofExcept _) left
  · exact obeys_pure true store

end

theorem obeys_signalEnd {id : SequenceId} (moves : law.Moves id) : (signalEnd id).Obeys law :=
  moves.ended.bind fun _ => (obeys_sequence _).bind fun _ =>
    (moves.toldEnd _).bind fun _ => obeys_cleanUp moves.toBodies

end Run

/-! ## Operations that call each other -/

namespace Calls

open Run

/-- Whether all operations obey a law. -/
structure Obeys (law : Law) (c : Calls) : Prop extends c.Builds law where
  next : ∀ id, (c.next id).Obeys law
  pull : ∀ id, (c.pull id).Obeys law
  advance : ∀ id, (c.advance id).Obeys law
  gather : ∀ feed earlier, (c.gather feed earlier).Obeys law

end Calls

/-- A law that the changes obey which pulling makes to one sequence: an iterator is kept that was opened for it, or a key
is recorded. -/
structure Law.Fills (law : Law) (id : SequenceId) : Prop where
  opened : ∀ {α : Type} {run : Run α} {store left : Store} {a : α} {body : Body}, law α run store →
    run.from? store = (.ok a, left) → body.frame = (store.sequence id).body.frame →
    body.kind = .iterable ∨ body.kind = .produced → law Unit (Run.setBody id body) left
  remember : ∀ key, (Run.remember id key).Obeys law

/-- A law that one sequence obeys, in what it does on its own account, if the operations do that it calls. -/
structure Law.Serves (law : Law) (id : SequenceId) : Prop extends law.Fills id where
  next : ∀ {c : Calls}, c.Obeys law → (c.nextWith id).Obeys law
  rewind : ∀ {c : Calls}, c.Obeys law → (c.rewindWith id).Obeys law

namespace Calls

open Run

namespace Obeys

variable {c : Calls} {law : Law} [law.Ambient] (obeys : c.Obeys law)
include obeys

omit [law.Ambient] in
theorem draw (feed : Feed) : (c.draw feed).Obeys law := by
  cases feed with
  | cursor id => exact obeys.advance id
  | sequence id => exact obeys.next id

theorem gatherWith (feed : Feed) (earlier : List Value) : (c.gatherWith feed earlier).Obeys law := by
  refine (((obeys.draw feed).map some).onFault fun fault => .ite (obeys_pure _) (obeys_fail _)).bind fun drawn => ?_
  cases drawn with
  | some v => exact obeys.gather feed _
  | none => exact obeys_pure _

theorem listOf (v : Value) : (c.listOf v).Obeys law :=
  (obeys_openFeed v).bind fun feed => (obeys_makeRoom v).bind fun _ => obeys.gather feed []

theorem itemsOf? (v : Value) : (c.itemsOf? v).Obeys law := by
  unfold Calls.itemsOf?
  split
  · exact (obeys_list _).map _
  · exact (obeys_makeRoom _).bind fun _ => (obeys_plain _).bind fun _ => obeys_pure _
  · rename_i ref _ _
    refine (obeys_view fun _ => ?_).bind fun _ => .ite ((obeys.listOf _).map _) (obeys_pure _)
    cases ref <;> rfl
  · exact obeys_pure _

theorem nextWith {id : SequenceId} (moves : law.Moves id) : (c.nextWith id).Obeys law := by
  refine (obeys_sequence id).bind fun state => ?_
  split
  · exact moves.handed.bind fun _ => obeys_pure _
  · exact .unless (moves.begun.bind fun _ => (obeys.pull id).onFault fun fault =>
      .ite ((obeys_signalEnd moves).bind fun _ => obeys_fail _) (obeys_fail _))

/-- Opening for the first pull of a pass, and drawing then. -/
theorem openThen {store : Store} {id : SequenceId} (fills : law.Fills id) (body : Feed → Body) {opener : Run Feed}
    (opens : opener.Obeys law) (frame : ∀ feed, (body feed).frame = (store.sequence id).body.frame)
    (kind : ∀ feed, (body feed).kind = .iterable ∨ (body feed).kind = .produced) :
    law Value (do
      let feed ← opener
      setBody id (body feed)
      c.draw feed) store :=
  Law.Composes.bind (opens store) fun feed _ ends =>
    Law.Composes.bind (fills.opened (opens store) ends (frame feed) (kind feed)) fun _ left _ => obeys.draw feed left

theorem keyFor (key : Value) (multi : Bool) (element : Value) : (c.keyFor key multi element).Obeys law := by
  have called : (c.callKeyOn key multi element).Obeys law := by
    refine .ite ((obeys.itemsOf? element).bind fun items => ?_) (obeys_call _ _)
    cases items with
    | some items => exact obeys_call _ _
    | none =>
      exact (obeys_view (Store.unseeing_calleeName _)).bind fun _ => (obeys_typeName _).bind fun _ => obeys_fail _
  exact .ite (obeys_pure _) (called.onFault fun fault => obeys_fail _)

theorem pullDistinct {id : SequenceId} (fills : law.Fills id) (supply : SequenceId) (key : Value) (multi : Bool) :
    (c.pullDistinct id supply key multi).Obeys law :=
  (obeys.next supply).bind fun element => (obeys.keyFor key multi element).bind fun k =>
    (fills.remember k).bind fun _ => .ite (obeys_pure _) (obeys.pull id)

theorem reset {id : SequenceId} (bodies : law.Bodies id) : (c.reset id).Obeys law := by
  intro store
  refine obeys_sequence_at ?_
  split <;> rename_i form
  · exact obeys_fail _ store
  · exact obeys_fail _ store
  · rename_i data feed
    split
    · exact Law.Composes.bind (obeys_typeName data store) fun _ left _ =>
        Law.Composes.bind (obeys_fail _ left) fun _ _ ends => by cases ends
    · exact obeys_setBody bodies (by rw [form]; rfl) SequenceKind.noConfusion SequenceKind.noConfusion
  · rename_i factory size feed
    cases feed with
    | none => exact obeys_setBody bodies (by rw [form]) SequenceKind.noConfusion SequenceKind.noConfusion
    | some feed =>
      refine Law.Composes.bind (obeys_closeFeed feed store) fun _ left ends =>
        bodies.body (obeys_closeFeed feed store) ends ?_ SequenceKind.noConfusion SequenceKind.noConfusion
      rw [form]
      rfl
  · refine Law.Composes.bind (obeys.rewind _ store) fun _ left ends =>
      bodies.body (obeys.rewind _ store) ends ?_ SequenceKind.noConfusion SequenceKind.noConfusion
    rw [form]
    rfl
  · exact Run.Obeys.ite (obeys_pure _) ((obeys_sequenceFor _ _).bind obeys.rewind) store

theorem rewindWith {id : SequenceId} (moves : law.Moves id) : (c.rewindWith id).Obeys law :=
  (obeys.reset moves.toBodies).bind fun _ => moves.restarted

/-- Building a chain obeys a law. -/
theorem buildFor (id : SequenceId) (given : Value) : (c.buildFor id given).Obeys law :=
  obeys.toBuilds.buildFor id given

/-! ### Streams -/

theorem drawStream (id : CursorId) (pipeline : SequenceId) (input : Value) (feed : Feed) :
    (c.drawStream id pipeline input feed).Obeys law :=
  ((obeys.draw feed).onFault fun _ => (obeys_setCursor id (by simp)).bind fun _ => obeys_fail _).bind fun _ =>
    (obeys_setCursor id (by simp)).bind fun _ => obeys_pure _

theorem beginStream (pipeline : SequenceId) (input : Value) : (c.beginStream pipeline input).Obeys law := by
  refine .ite ((obeys_sequence _).bind fun _ => ?_) ((obeys.buildFor pipeline input).bind fun _ => obeys_openFeed _)
  exact .ite ((obeys.rewind pipeline).bind fun _ => obeys_pure _) (obeys_pure _)

/-- A stream is begun as soon as it is asked. -/
theorem advanceStream (id : CursorId) (pipeline : SequenceId) (input : Value) (phase : StreamPhase) :
    (c.advanceStream id pipeline input phase).Obeys law := by
  cases phase with
  | finished | running => exact obeys_fail _
  | delegating feed => exact (obeys_setCursor id (by simp)).bind fun _ => obeys.drawStream id pipeline input feed
  | fresh =>
    exact (obeys_setCursor id (by simp)).bind fun _ => ((obeys.beginStream pipeline input).onFault fun _ =>
      (obeys_setCursor id (by simp)).bind fun _ => obeys_fail _).bind fun feed => obeys.drawStream id pipeline input feed

theorem advanceWith (id : CursorId) : (c.advanceWith id).Obeys law := by
  refine obeys_cursor (fun cursor _ => ?_) fun pipeline input => ?_
  · cases cursor with
    | walking => exact obeys_advanceWalker _ _ _ _ _ _
    | listing => exact obeys_advanceListing _ _ _ _
    | ranging => exact obeys_advanceRanging _ _ _ _ _
    | generating => exact obeys_advanceGenerator _ _ _ _ _ _
    | streaming => exact obeys.advanceStream _ _ _ _
  · exact ⟨.running, _, StreamPhase.noConfusion, rfl, ((obeys.beginStream pipeline input).onFault fun _ =>
      (obeys_setCursor id (by simp)).bind fun _ => obeys_fail _).bind fun feed => obeys.drawStream id pipeline input feed⟩

/-! ### Taking all elements -/

theorem force (id : SequenceId) : (c.force id).Obeys law :=
  (obeys_sequence id).bind fun _ => .ite ((obeys.rewind id).bind fun _ => obeys.gather _ _) (obeys.gather _ _)

theorem collect (id : SequenceId) (input : Value) : (c.collect id input).Obeys law :=
  .ite (obeys.force id) ((obeys.buildFor id input).bind fun _ => (obeys_sequenceFor _ _).bind obeys.force)

/-! ### What is built -/

section

variable (outputs : ∀ id kept, (c.outputOf id kept).Obeys law)
include outputs

theorem pullPipeline (id : SequenceId) (kept : Value) : (c.pullPipeline id kept).Obeys law :=
  (outputs id kept).bind fun _ => (obeys_sequenceFor _ _).bind obeys.next

theorem pullWith {id : SequenceId} (fills : law.Fills id) : (c.pullWith id).Obeys law := by
  intro store
  refine obeys_sequence_at ?_
  split <;> rename_i form
  · exact obeys_fail _ store
  · rename_i data feed
    cases feed with
    | some feed => exact obeys.draw feed store
    | none =>
      exact obeys.openThen fills (fun feed => .iterable data (some feed)) (obeys_openFeed data)
        (fun _ => by rw [form]; rfl) fun _ => .inl rfl
  · rename_i factory size feed
    cases feed with
    | some feed => exact obeys.draw feed store
    | none =>
      have opens : (do openFeed (← install (← call factory [])) : Run Feed).Obeys law :=
        (obeys_call factory []).bind fun made => (obeys_install made).bind fun held => obeys_openFeed held
      have opened := obeys.openThen fills (fun feed => .produced factory size (some feed)) opens
        (fun _ => show (Body.produced ..).frame = (store.sequence id).body.frame by rw [form]; rfl) fun _ => .inr rfl
      simp only [bind_assoc] at opened
      exact opened
  · exact obeys.pullDistinct fills _ _ _ store
  · exact obeys.pullPipeline outputs id _ store
  · exact obeys.advance _ store

end

end Obeys

end Calls

/-- What changes to a body obey, pulling obeys. -/
theorem Law.Bodies.fills {law : Law} [law.Ambient] {id : SequenceId} (bodies : law.Bodies id) : law.Fills id where
  opened holds ends frame kind := bodies.body holds ends frame
    (fun same => by rw [same] at kind; rcases kind with kind | kind <;> cases kind)
    (fun same => by rw [same] at kind; rcases kind with kind | kind <;> cases kind)
  remember := Run.obeys_remember bodies

/-- What all changes to a sequence obey, the sequence obeys. -/
theorem Law.Moves.serves {law : Law} [law.Ambient] {id : SequenceId} (moves : law.Moves id) : law.Serves id where
  toFills := moves.toBodies.fills
  next obeys := obeys.nextWith moves
  rewind obeys := obeys.rewindWith moves

namespace Calls

open Run

/-- The operations that make these calls. -/
def deeper (c : Calls) : Calls where
  next := c.nextWith
  pull := c.pullWith
  rewind := c.rewindWith
  isMulti := c.isMultiWith
  size := c.sizeWith
  apply := c.applyWith
  advance := c.advanceWith
  gather := c.gatherWith

theorem calls_succ (n : Nat) : calls (n + 1) = (calls n).deeper := rfl

/-- Operations obey a law if those that they call do, filling any sequence, building the output of a pipeline, and the
ways in which sequences hand out their elements and are taken back. -/
theorem Obeys.deeper {law : Law} [law.Ambient] {c : Calls} (obeys : c.Obeys law) (fills : ∀ id, law.Fills id)
    (outputs : ∀ id kept, (c.outputOf id kept).Obeys law) {next : SequenceId → Run Value} {rewind : SequenceId → Run Unit}
    (hands : ∀ id, (next id).Obeys law) (backs : ∀ id, (rewind id).Obeys law) :
    ({ c.deeper with next := next, rewind := rewind } : Calls).Obeys law where
  rewind := backs
  isMulti := obeys.toBuilds.isMultiWith outputs
  size := obeys.toBuilds.sizeWith outputs
  apply := obeys.toBuilds.applyWith
  next := hands
  pull id := obeys.pullWith outputs (fills id)
  advance := obeys.advanceWith
  gather := obeys.gatherWith

theorem obeys_refused {law : Law} [law.Composes] : Calls.refused.Obeys law where
  rewind _ := obeys_outOfFuel
  isMulti _ := obeys_outOfFuel
  size _ := obeys_outOfFuel
  apply _ _ := obeys_outOfFuel
  next _ := obeys_outOfFuel
  pull _ := obeys_outOfFuel
  advance _ := obeys_outOfFuel
  gather _ _ := obeys_outOfFuel

/-- The operations obey a law if those that they call do, and building the output of a pipeline. -/
theorem obeys_succ {law : Law} [law.Elementary] {n : Nat} (obeys : (calls n).Obeys law)
    (outputs : ∀ id kept, ((calls n).outputOf id kept).Obeys law) : (calls (n + 1)).Obeys law :=
  have serves : ∀ id, law.Serves id := fun id => (Law.Elementary.moves id).serves
  obeys.deeper (fun id => (serves id).toFills) outputs (fun id => (serves id).next obeys) fun id => (serves id).rewind obeys

/-- At every depth of calls, all operations obey a law that each sequence obeys in what it does on its own account, if keeping
the output of a pipeline does. -/
theorem obeys_serves {law : Law} [law.Ambient] (serves : ∀ id, law.Serves id)
    (keeping : ∀ id output, (keepOutput id output).Obeys law) (n : Nat) : (calls n).Obeys law := by
  induction n with
  | zero => exact obeys_refused
  | succ n ih =>
    exact ih.deeper (fun id => (serves id).toFills) (ih.toBuilds.outputOf keeping) (fun id => (serves id).next ih)
      fun id => (serves id).rewind ih

/-- At every depth of calls, all operations obey a law that the changes obey of which they are made, if keeping the
output of a pipeline is one. -/
theorem obeys_calls (law : Law) [law.Elementary] (keeping : ∀ id output, (keepOutput id output).Obeys law) (n : Nat) :
    (calls n).Obeys law :=
  obeys_serves (fun id => (Law.Elementary.moves id).serves) keeping n

end Calls

end FirstSeen
