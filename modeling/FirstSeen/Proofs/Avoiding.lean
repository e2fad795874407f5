import FirstSeen.Proofs.Hiding
import FirstSeen.Traversal

/-!
# Operations avoid what is hidden

Every operation on what lies outside of a hidden set heeds it, at every depth of calls: calling and opening, moving on and
closing, pulling, beginning again, and building chains.
-/

set_option autoImplicit false

namespace FirstSeen

variable {hidden : Ref → Prop}

namespace Run

/-! ## Calling and opening -/

/-- Installing values in turn avoids what installing each of them does. -/
theorem heeds_installAll {items : List Value} (each : ∀ item ∈ items, (install item).Heeds hidden (Value.Avoids hidden)) :
    (installAll items).Heeds hidden fun held => ∀ v ∈ held, v.Avoids hidden := by
  induction items with
  | nil =>
    rw [installAll]
    exact heeds_pure (by simp)
  | cons item rest ih =>
    rw [List.forall_mem_cons] at each
    rw [installAll]
    exact each.1.bind fun v fine => (ih each.2).bind fun vs fine' =>
      heeds_pure (List.forall_mem_cons.mpr ⟨fine, fine'⟩)

theorem heeds_installEntries {held : List (Value × Value)}
    (each : ∀ e ∈ held, (install e.1).Heeds hidden (Value.Avoids hidden) ∧
      (install e.2).Heeds hidden (Value.Avoids hidden)) :
    (installEntries held).Heeds hidden fun held => ∀ e ∈ held, e.1.Avoids hidden ∧ e.2.Avoids hidden := by
  induction held with
  | nil =>
    rw [installEntries]
    exact heeds_pure (by simp)
  | cons e rest ih =>
    rw [List.forall_mem_cons] at each
    rw [installEntries]
    exact each.1.1.bind fun k fine => each.1.2.bind fun v fine' => (ih each.2).bind fun vs fine'' =>
      heeds_pure (List.forall_mem_cons.mpr ⟨⟨fine, fine'⟩, fine''⟩)

/-- Installing a value makes objects that lie outside. -/
theorem heeds_install {v : Value} (avoids : v.Avoids hidden) : (install v).Heeds hidden (Value.Avoids hidden) := by
  induction v using Value.containerInduction with
  | leaf v leaf =>
    have form : install v = newObject v := by
      cases v <;> first | rfl | simp [Value.isContainer] at leaf
    rw [form]
    exact heeds_newObject avoids
  | list items ih =>
    rw [install]
    have installed := heeds_installAll fun item member => ih item member (avoids.items rfl item member)
    exact installed.bind fun _ fine => (heeds_newList fine).bind fun _ outside =>
      heeds_pure (Value.avoids_object.mpr outside)
  | tuple items ih | set items ih | frozenset items ih =>
    rw [install]
    have installed := heeds_installAll fun item member => ih item member (avoids.items rfl item member)
    exact installed.bind fun _ fine => heeds_newObject (Value.avoids_items rfl fine)
  | dict held ih =>
    rw [install]
    have each := Value.avoids_dict.mp avoids
    have installed := heeds_installEntries fun e member =>
      ⟨(ih e member).1 (each e member).1, (ih e member).2 (each e member).2⟩
    exact installed.bind fun _ fine => heeds_newObject (Value.avoids_dict.mpr fine)

/-- A key function answers a call without arguments with nothing hidden. -/
theorem heeds_callKey {id : KeyId} (outside : ¬hidden (.key id)) (arguments : List Value) :
    (callKey id arguments).Heeds hidden fun v => arguments = [] → v.Avoids hidden := by
  have answers : (view fun store => answerOf store id arguments).Heeds hidden fun told =>
      arguments = [] → ∀ v, told.2 = .ok v → v.Avoids hidden := by
    refine heeds_view (Store.outward_answerOf id arguments) ?_
    rintro store hides rfl v answered
    exact hides.key id outside _ _ v answered
  refine answers.bind fun (args, answer) fine => ?_
  refine (heeds_modify ?_ ?_ ?_ ?_ ?_ ?_ ?_ ?_).bind fun _ (_ : True) =>
    heeds_ofExcept fun v answered none => fine none v answered
  all_goals intros
  case refine_6 store other =>
    simp only [Store.key, Store.getD_modify]
    split <;> rfl
  all_goals rfl

theorem heeds_make {meter : MeterId} {product : Product} (avoids : product.Avoids hidden) :
    (make meter product).Heeds hidden (Value.Avoids hidden) := by
  have cursor : ∀ id : CursorId, ¬hidden (.cursor id) →
      (pure (.ofCursor id) : Run Value).Heeds hidden (Value.Avoids hidden) :=
    fun _ outside => heeds_pure (Value.avoids_object.mpr outside)
  cases product with
  | value v => exact heeds_pure avoids
  | generator script closing => exact (heeds_newCursor (by exact avoids)).bind cursor
  | walker name script closing => exact (heeds_newCursor (by exact avoids)).bind cursor
  | items all => exact (heeds_newCursor (by exact Script.avoids_ofValues avoids)).bind cursor
  | shared id => exact cursor id avoids

theorem heeds_callSource {source : Source} {product : Product} (avoids : product.Avoids hidden) :
    (callSource source product).Heeds hidden (Value.Avoids hidden) :=
  (heeds_updateMeter _ _).bind fun _ _ => (heeds_looking fun _ _ _ => rfl).bind fun _ _ => .unless (heeds_make avoids)

/-- A call that is no answer to arguments gives nothing hidden. -/
theorem heeds_call {v : Value} (avoids : v.Avoids hidden) (args : List Value) :
    (call v args).Heeds hidden fun v => args = [] → v.Avoids hidden := by
  unfold call
  split
  · exact heeds_callKey (Value.avoids_object.mp avoids) args
  · refine (heeds_view (Store.outward_of_blind fun _ _ _ => rfl) fun _ hides =>
      hides.source _ (Value.avoids_object.mp avoids)).bind fun source fine => ?_
    split
    · rename_i product made
      exact (heeds_callSource (fine.product product made)).imp fun _ held _ => held
    · exact heeds_fail _
  · exact heeds_failing (Store.outward_typeName v) _

/-- A new iterator as a feed. -/
theorem heeds_newFeed {cursor : Cursor} (avoids : cursor.Avoids hidden) :
    (do return .cursor (← newCursor cursor) : Run Feed).Heeds hidden fun feed => ¬hidden feed.ref :=
  (heeds_newCursor avoids).bind fun _ outside => heeds_pure outside

theorem heeds_openSource {source : Source} (avoids : source.Avoids hidden) :
    (openSource source).Heeds hidden fun feed => ¬hidden feed.ref := by
  unfold openSource
  split <;> rename_i opening
  · exact heeds_newFeed (avoids.opening _ opening)
  · exact (heeds_updateMeter _ _).bind fun _ _ => heeds_newFeed (avoids.opening _ opening)
  · exact (heeds_updateMeter _ _).bind fun _ _ => heeds_fail _
  · exact heeds_newFeed (avoids.opening _ opening)
  · exact heeds_fail _

theorem heeds_openFeed {v : Value} (avoids : v.Avoids hidden) :
    (openFeed v).Heeds hidden fun feed => ¬hidden feed.ref := by
  unfold openFeed
  split
  · exact heeds_pure (Value.avoids_object.mp avoids)
  · exact heeds_pure (Value.avoids_object.mp avoids)
  · exact heeds_newFeed (Value.avoids_object.mp avoids)
  · exact (heeds_view (Store.outward_of_blind fun _ _ _ => rfl) fun _ hides =>
      hides.source _ (Value.avoids_object.mp avoids)).bind fun _ => heeds_openSource
  · refine (heeds_plain avoids).bind fun held fine => ?_
    split
    · exact heeds_newFeed trivial
    · split
      · rename_i script given
        exact heeds_newFeed (Script.avoids_ofValue? fine given)
      · exact heeds_failing (Store.outward_typeName v) _

theorem heeds_lengthOf {v : Value} : (lengthOf v).Heeds hidden fun _ => True := by
  have word : ∀ n, (wordLength n).Heeds hidden fun _ => True := fun n => .ite (heeds_fail _) (heeds_pure trivial)
  unfold lengthOf
  split
  · exact (heeds_looking fun _ _ _ => rfl).bind fun _ _ => heeds_pure trivial
  · refine (heeds_looking fun _ _ _ => rfl).bind fun source _ => ?_
    split
    · exact heeds_pure trivial
    · exact heeds_fail _
    · exact .unless (.unless (heeds_pure trivial))
  · refine (heeds_reading (Store.outward_plain v)).bind fun held _ => ?_
    split
    · exact heeds_pure trivial
    · exact word _

/-- Making room only reads. -/
theorem heeds_makeRoom (v : Value) : (makeRoom v).Heeds hidden fun _ => True := by
  have remaining : (remainingOf v).Heeds hidden fun _ => True := by
    unfold remainingOf
    split
    · refine (heeds_looking fun _ _ _ => rfl).bind fun cursor _ => ?_
      split
      · exact .ite (heeds_fail _) (heeds_pure trivial)
      · exact heeds_pure trivial
    · exact heeds_lengthOf
  refine (remaining.onFault fun fault => .ite (heeds_pure trivial) (heeds_fail _)).bind fun length _ => ?_
  split
  · exact .ite (heeds_fail _) (heeds_pure trivial)
  · exact heeds_pure trivial

/-! ## Moving on and closing -/

theorem heeds_noteClose (meter : Option MeterId) (closing : CloseRule) :
    (noteClose meter closing).Heeds hidden fun _ => True := by
  cases closing with
  | silent => exact heeds_pure trivial
  | counted fault =>
    refine (heeds_updateMeter? meter _).bind fun _ _ => ?_
    cases fault with
    | none => exact heeds_pure trivial
    | some fault => exact heeds_fail fault

theorem heeds_closeFeed {feed : Feed} (outside : ¬hidden feed.ref) : (closeFeed feed).Heeds hidden fun _ => True := by
  cases feed with
  | sequence id => exact heeds_pure trivial
  | cursor id =>
    refine (heeds_cursor outside).bind fun cursor avoids => ?_
    cases cursor with
    | walking name script position meter closing => exact heeds_noteClose meter closing
    | listing | ranging => exact heeds_pure trivial
    | generating script position phase meter closing =>
      exact (heeds_setCursor outside (by exact avoids)).bind fun _ _ =>
        .ite (.onFault (heeds_noteClose meter closing) fun _ => heeds_fail _) (heeds_pure trivial)
    | streaming pipeline input phase =>
      exact .unless (heeds_setCursor outside (by exact ⟨avoids.1, avoids.2.1, trivial⟩))

theorem heeds_deliver {event : Event} (avoids : event.Avoids hidden) :
    (deliver event).Heeds hidden (Value.Avoids hidden) := by
  cases event with
  | value v => exact heeds_pure avoids
  | made v => exact heeds_newObject avoids
  | fault fault => exact heeds_fail fault

section

variable {id : CursorId} (outside : ¬hidden (.cursor id))
include outside

theorem heeds_advanceWalker (name : String) {script : Script} (position : Nat) (meter : Option MeterId)
    (closing : CloseRule) (avoids : script.Avoids hidden) :
    (advanceWalker id name script position meter closing).Heeds hidden (Value.Avoids hidden) := by
  refine (heeds_updateMeter? meter _).bind fun _ _ => ?_
  split
  · exact heeds_fail _
  · rename_i event told
    exact (heeds_setCursor outside (by exact avoids)).bind fun _ _ => heeds_deliver (avoids position event told)

theorem heeds_advanceListing {list : ListId} (position : Nat) (ended : Bool) (apart : ¬hidden (.list list)) :
    (advanceListing id list position ended).Heeds hidden (Value.Avoids hidden) := by
  refine .unless ((heeds_list apart).bind fun items fine => ?_)
  split
  · exact (heeds_setCursor outside (by exact apart)).bind fun _ _ => heeds_fail _
  · rename_i v there
    exact (heeds_setCursor outside (by exact apart)).bind fun _ _ => heeds_pure (fine v (List.mem_of_getElem? there))

theorem heeds_advanceRanging (start stop step : Int) (position : Nat) :
    (advanceRanging id start stop step position).Heeds hidden (Value.Avoids hidden) := by
  unfold advanceRanging
  split
  · exact heeds_fail _
  · rename_i v told
    have number : v.refs = [] := by
      unfold Value.rangeItem? at told
      split at told <;> cases told
      rfl
    exact (heeds_setCursor outside (by exact trivial)).bind fun _ _ => heeds_newObject (Value.avoids_of_refs_nil number)

theorem heeds_advanceGenerator {script : Script} (position : Nat) (phase : Phase) (meter : Option MeterId)
    (closing : CloseRule) (avoids : script.Avoids hidden) :
    (advanceGenerator id script position phase meter closing).Heeds hidden (Value.Avoids hidden) := by
  have replaced : ∀ position phase, (setCursor id (.generating script position phase meter closing)).Heeds hidden
      fun _ => True := fun _ _ => heeds_setCursor outside avoids
  refine .unless ?_
  refine .ite ((heeds_updateMeter? meter _).bind fun _ _ => ?_) ?_ <;>
  · split
    · exact (replaced _ _).bind fun _ _ => heeds_fail _
    · rename_i event told
      refine (heeds_updateMeter? meter _).bind fun _ _ => ?_
      split
      · exact (replaced _ _).bind fun _ _ => heeds_fail _
      · exact (replaced _ _).bind fun _ _ => heeds_deliver (avoids position event told)

end

/-! ## Sequences -/

section

variable {id : SequenceId} (outside : ¬hidden (.sequence id))
include outside

theorem heeds_cleanUp : (cleanUp id).Heeds hidden fun _ => True := by
  refine (heeds_sequence outside).bind fun state avoids => ?_
  have held := avoids.body
  split
  · rename_i form
    rw [form] at held
    exact heeds_setBody outside held
  · rename_i form
    rw [form] at held
    exact heeds_setBody outside ⟨held.1, by simp⟩
  · exact heeds_pure trivial

theorem heeds_signalEnd : (signalEnd id).Heeds hidden fun _ => True :=
  .bind (heeds_updateSequence outside fun _ held => ⟨held.body, held.peeked⟩) fun _ _ =>
    (heeds_sequence outside).bind fun _ _ => (heeds_tell outside).bind fun _ _ => heeds_cleanUp outside

theorem heeds_remember (key : Value) : (remember id key).Heeds hidden fun _ => True := by
  have told : ∀ notices, (tellSeen id key notices).Heeds hidden fun _ => True := by
    intro notices
    induction notices with
    | nil => exact heeds_pure trivial
    | cons notice rest ih =>
      cases notice with
      | listLookup =>
        exact (heeds_reading (Store.outward_typeName key)).bind fun _ _ => (heeds_tell outside).bind fun _ _ => ih
      | limitReached => exact (heeds_tell outside).bind fun _ _ => ih
  refine (heeds_sequence outside).bind fun state avoids => ?_
  have held := avoids.body
  split
  · rename_i form
    rw [form] at held
    refine (heeds_reading (Store.outward_contents _)).bind fun limit' _ => (heeds_looking fun _ _ _ => rfl).bind
      fun raising _ => (heeds_reading (Store.outward_contents key)).bind fun key' _ => ?_
    exact .bind (heeds_setBody outside held) fun _ _ => (told _).bind fun _ _ => heeds_ofExcept fun _ _ => trivial
  · exact heeds_pure trivial

end

/-! ## Making sequences -/

theorem heeds_flagOf (multiValue : Value) : (flagOf multiValue).Heeds hidden fun _ => True := by
  unfold flagOf
  split
  · exact heeds_pure trivial
  · exact heeds_failing (Store.outward_typeName multiValue) _

theorem heeds_newIterable {data : Value} (avoids : data.Avoids hidden) (multiValue : Value) :
    (newIterable data multiValue).Heeds hidden fun id => ¬hidden (.sequence id) :=
  (heeds_flagOf multiValue).bind fun _ _ => (heeds_reading (Store.outward_isIterable data)).bind fun _ _ =>
    .ite (heeds_newSequence ⟨⟨avoids, by simp⟩, by simp⟩) (heeds_failing (Store.outward_typeName data) _)

theorem heeds_newProduced {factory : Value} (avoids : factory.Avoids hidden) (multiValue size : Value) :
    (newProduced factory multiValue size).Heeds hidden fun id => ¬hidden (.sequence id) := by
  have counted : (isCount size).Heeds hidden fun _ => True := by
    refine (heeds_reading (Store.outward_plain size)).bind fun held _ => ?_
    cases held.integer? with
    | none => exact heeds_pure trivial
    | some n => exact heeds_pure trivial
  refine (heeds_flagOf multiValue).bind fun multi _ => (heeds_reading (Store.outward_isCallable factory)).bind
    fun callable _ => ?_
  have made : (newSequence { body := .produced factory size none, multiValue := multi }).Heeds hidden
      fun id => ¬hidden (.sequence id) := heeds_newSequence ⟨⟨avoids, by simp⟩, by simp⟩
  have sized : (do
      if !(size.isNull || (← isCount size)) then fail (.badSize (← view (·.shown size)))
      newSequence { body := .produced factory size none, multiValue := multi } : Run SequenceId).Heeds hidden
        fun id => ¬hidden (.sequence id) :=
    counted.bind fun _ _ => .ite ((heeds_reading (Store.outward_shown size)).bind fun _ _ =>
      (heeds_fail _).bind fun _ (_ : True) => made) made
  exact .ite ((heeds_reading (Store.outward_typeName factory)).bind fun _ _ =>
    (heeds_fail _).bind fun _ (_ : True) => sized) sized

/-- A sequence that is taken from data lies outside like the data. -/
theorem heeds_toSequence {data : Value} (avoids : data.Avoids hidden) (multiValue : Value) :
    (toSequence data multiValue).Heeds hidden fun id => ¬hidden (.sequence id) := by
  unfold toSequence
  split
  · exact heeds_pure (Value.avoids_object.mp avoids)
  · exact (heeds_reading (Store.outward_isIterable data)).bind fun _ _ => .ite (heeds_newIterable avoids _)
      ((heeds_reading (Store.outward_isCallable data)).bind fun _ _ =>
        .ite (heeds_newProduced avoids _ _) (heeds_failing (Store.outward_typeName data) _))

end Run

/-! ## Operations that call each other -/

namespace Calls

open Run

/-- Whether all operations on what lies outside of a hidden set heed it. -/
structure Heeds (hidden : Ref → Prop) (c : Calls) : Prop where
  next : ∀ id, ¬hidden (.sequence id) → (c.next id).Heeds hidden (Value.Avoids hidden)
  pull : ∀ id, ¬hidden (.sequence id) → (c.pull id).Heeds hidden (Value.Avoids hidden)
  rewind : ∀ id, ¬hidden (.sequence id) → (c.rewind id).Heeds hidden fun _ => True
  isMulti : ∀ id, ¬hidden (.sequence id) → (c.isMulti id).Heeds hidden fun _ => True
  size : ∀ id, ¬hidden (.sequence id) → (c.size id).Heeds hidden fun _ => True
  apply : ∀ step supply, step.Avoids hidden → supply.Avoids hidden → (c.apply step supply).Heeds hidden (Value.Avoids hidden)
  advance : ∀ id, ¬hidden (.cursor id) → (c.advance id).Heeds hidden (Value.Avoids hidden)
  gather : ∀ feed earlier, ¬hidden feed.ref → (∀ v ∈ earlier, v.Avoids hidden) →
    (c.gather feed earlier).Heeds hidden fun items => ∀ v ∈ items, v.Avoids hidden

namespace Heeds

variable {c : Calls} (heeds : c.Heeds hidden)
include heeds

/-! ### Drawing and gathering -/

theorem draw {feed : Feed} (outside : ¬hidden feed.ref) : (c.draw feed).Heeds hidden (Value.Avoids hidden) := by
  cases feed with
  | cursor id => exact heeds.advance id outside
  | sequence id => exact heeds.next id outside

theorem gatherWith {feed : Feed} {earlier : List Value} (outside : ¬hidden feed.ref)
    (avoid : ∀ v ∈ earlier, v.Avoids hidden) :
    (c.gatherWith feed earlier).Heeds hidden fun items => ∀ v ∈ items, v.Avoids hidden := by
  have drawn : (some <$> c.draw feed).Heeds hidden fun drawn => ∀ v, drawn = some v → v.Avoids hidden :=
    (heeds.draw outside).map fun v fine w same => Option.some.inj same ▸ fine
  refine (drawn.onFault fun fault => .ite (heeds_pure (by simp)) (heeds_fail _)).bind fun drawn fine => ?_
  cases drawn with
  | some v => exact heeds.gather feed _ outside (List.forall_mem_cons.mpr ⟨fine v rfl, avoid⟩)
  | none => exact heeds_pure (by simpa using avoid)

theorem listOf {v : Value} (avoids : v.Avoids hidden) :
    (c.listOf v).Heeds hidden fun items => ∀ v ∈ items, v.Avoids hidden :=
  (heeds_openFeed avoids).bind fun feed outside => (heeds_makeRoom v).bind fun _ _ => heeds.gather feed [] outside (by simp)

theorem itemsOf? {v : Value} (avoids : v.Avoids hidden) : (c.itemsOf? v).Heeds hidden fun _ => True := by
  unfold Calls.itemsOf?
  split
  · exact (heeds_looking fun _ _ _ => rfl).map fun _ _ => trivial
  · exact (heeds_makeRoom _).bind fun _ _ => (heeds_reading (Store.outward_plain _)).bind fun _ _ => heeds_pure trivial
  · exact (heeds_reading (Store.outward_canWalk _)).bind fun _ _ =>
      .ite ((heeds.listOf avoids).map fun _ _ => trivial) (heeds_pure trivial)
  · exact heeds_pure trivial

/-! ### Sequences -/

theorem nextWith {id : SequenceId} (outside : ¬hidden (.sequence id)) :
    (c.nextWith id).Heeds hidden (Value.Avoids hidden) := by
  have pulled : ∀ result : Unit, (do
      Run.updateSequence id fun state => { state with started := true }
      Run.onFault (c.pull id) fun fault => do
        if fault.isEnd then Run.signalEnd id
        Run.fail fault : Run Value).Heeds hidden (Value.Avoids hidden) := fun _ =>
    .bind (heeds_updateSequence outside fun _ held => ⟨held.body, held.peeked⟩) fun _ _ =>
      (heeds.pull id outside).onFault fun fault =>
        .ite ((heeds_signalEnd outside).bind fun _ _ => heeds_fail _) (heeds_fail _)
  refine (heeds_sequence outside).bind fun state avoids => ?_
  split
  · rename_i v pending
    exact .bind (heeds_updateSequence outside fun _ held => ⟨held.body, by simp⟩) fun _ _ =>
      heeds_pure (avoids.peeked v pending)
  · exact .unless (pulled ())

/-- Opening for the first pull of a pass, and drawing then. -/
theorem openThen {id : SequenceId} (outside : ¬hidden (.sequence id)) {opener : Run Feed}
    (opens : opener.Heeds hidden fun feed => ¬hidden feed.ref) {body : Feed → Body}
    (avoids : ∀ feed, ¬hidden feed.ref → (body feed).Avoids hidden) :
    (do
      let feed ← opener
      setBody id (body feed)
      c.draw feed : Run Value).Heeds hidden (Value.Avoids hidden) :=
  opens.bind fun feed fine => (heeds_setBody outside (avoids feed fine)).bind fun _ _ => heeds.draw fine

theorem pullProduced {id : SequenceId} (outside : ¬hidden (.sequence id)) {factory : Value} (size : Value)
    {feed : Option Feed} (avoids : (Body.produced factory size feed).Avoids hidden) :
    (c.pullProduced id factory size feed).Heeds hidden (Value.Avoids hidden) := by
  cases feed with
  | some feed => exact heeds.draw (avoids.2 feed rfl)
  | none =>
    exact (heeds_call avoids.1 []).bind fun made fine => (heeds_install (fine rfl)).bind fun held fine' =>
      heeds.openThen outside (heeds_openFeed fine') fun feed apart =>
        ⟨avoids.1, fun _ same => Option.some.inj same ▸ apart⟩

theorem keyFor {key element : Value} (avoids : key.Avoids hidden) (multi : Bool) (held : element.Avoids hidden) :
    (c.keyFor key multi element).Heeds hidden fun _ => True := by
  have called : (c.callKeyOn key multi element).Heeds hidden fun _ => True := by
    refine .ite ((heeds.itemsOf? held).bind fun items _ => ?_) ((heeds_call avoids _).imp fun _ _ => trivial)
    cases items with
    | some items => exact (heeds_call avoids _).imp fun _ _ => trivial
    | none =>
      exact (heeds_reading (Store.outward_calleeName key)).bind fun _ _ => heeds_failing (Store.outward_typeName element) _
  exact .ite (heeds_pure trivial) (called.onFault fun fault => heeds_fail _)

theorem pullDistinct {id supply : SequenceId} (outside : ¬hidden (.sequence id)) (apart : ¬hidden (.sequence supply))
    {key : Value} (avoids : key.Avoids hidden) (multi : Bool) :
    (c.pullDistinct id supply key multi).Heeds hidden (Value.Avoids hidden) :=
  (heeds.next supply apart).bind fun _ fine => (heeds.keyFor avoids multi fine).bind fun k _ =>
    (heeds_remember outside k).bind fun _ _ => .ite (heeds_pure fine) (heeds.pull id outside)

theorem reset {id : SequenceId} (outside : ¬hidden (.sequence id)) : (c.reset id).Heeds hidden fun _ => True := by
  refine (heeds_sequence outside).bind fun state avoids => ?_
  have held := avoids.body
  split <;> rename_i form <;> rw [form] at held
  · exact heeds_fail _
  · exact heeds_fail _
  · rename_i data feed
    have again : (setBody id (.iterable data none)).Heeds hidden fun _ => True :=
      heeds_setBody outside ⟨held.1, by simp⟩
    exact .ite ((heeds_reading (Store.outward_typeName data)).bind fun _ _ =>
      (heeds_fail _).bind fun _ (_ : True) => again) again
  · rename_i factory size feed
    have again : (setBody id (.produced factory size none)).Heeds hidden fun _ => True :=
      heeds_setBody outside ⟨held.1, by simp⟩
    cases feed with
    | none => exact again
    | some feed => exact (heeds_closeFeed (held.2 feed rfl)).bind fun _ _ => again
  · exact (heeds.rewind _ held.1).bind fun _ _ => heeds_setBody outside held
  · exact .ite (heeds_pure trivial) ((heeds_sequenceFor _ held.2.2).bind heeds.rewind)

theorem rewindWith {id : SequenceId} (outside : ¬hidden (.sequence id)) :
    (c.rewindWith id).Heeds hidden fun _ => True :=
  (heeds.reset outside).bind fun _ _ => .bind (heeds_updateSequence outside fun _ held => ⟨held.body, by simp⟩) fun _ _ =>
    (heeds_sequence outside).bind fun _ _ => heeds_tell outside

/-! ### Building -/

theorem applyAll {steps : List Value} {supply : Value} (avoid : ∀ step ∈ steps, step.Avoids hidden)
    (fine : supply.Avoids hidden) : (c.applyAll steps supply).Heeds hidden (Value.Avoids hidden) := by
  induction steps generalizing supply with
  | nil => exact heeds_pure fine
  | cons step rest ih =>
    rw [List.forall_mem_cons] at avoid
    exact (heeds.apply step supply avoid.1 fine).bind fun _ => ih avoid.2

theorem newDistinct {supply key : Value} (fine : supply.Avoids hidden) (avoids : key.Avoids hidden) (limit : Value) :
    (c.newDistinct supply key limit).Heeds hidden fun id => ¬hidden (.sequence id) := by
  unfold Calls.newDistinct
  split
  · have outside := Value.avoids_object.mp fine
    exact (heeds.isMulti _ outside).bind fun _ _ => heeds_newSequence ⟨⟨outside, avoids⟩, by simp⟩
  · exact heeds_failing (Store.outward_typeName supply) _

theorem applyWith {step supply : Value} (avoids : step.Avoids hidden) (fine : supply.Avoids hidden) :
    (c.applyWith step supply).Heeds hidden (Value.Avoids hidden) := by
  have sequence : ∀ id : SequenceId, ¬hidden (.sequence id) →
      (pure (.ofSequence id) : Run Value).Heeds hidden (Value.Avoids hidden) :=
    fun _ outside => heeds_pure (Value.avoids_object.mpr outside)
  unfold Calls.applyWith
  split
  · refine (heeds_view (Store.outward_of_blind fun _ _ _ => rfl) fun _ hides =>
      hides.step _ (Value.avoids_object.mp avoids)).bind fun step' held => ?_
    split
    · exact (heeds.newDistinct fine held _).bind sequence
    · exact heeds_pure fine
    · exact (heeds_newIterable fine _).bind sequence
    · exact heeds_pure held
    · exact heeds_fail _
    · exact heeds_fail _
    · exact heeds_failMissing _ _
  · refine (heeds_sequence (Value.avoids_object.mp avoids)).bind fun state held => ?_
    have held := held.body
    split
    · rename_i form
      rw [form] at held
      exact (heeds_list held.1).bind fun steps each => heeds.applyAll each fine
    · exact heeds_failMissing _ _
  · exact heeds_failMissing _ _

/-- Building a chain on data outside, by steps outside. -/
theorem build {steps : ListId} (apart : ¬hidden (.list steps)) {data : Value} (avoids : data.Avoids hidden)
    (multi : Bool) : (c.build steps data multi).Heeds hidden (Value.Avoids hidden) := by
  refine (heeds_toSequence avoids _).bind fun input outside => (heeds_sequence outside).bind fun _ _ => ?_
  have applied : (do c.applyAll (← Run.list steps) (.ofSequence input) : Run Value).Heeds hidden (Value.Avoids hidden) :=
    (heeds_list apart).bind fun steps each => heeds.applyAll each (Value.avoids_object.mpr outside)
  exact .ite ((heeds.rewind input outside).bind fun _ _ => applied) applied

theorem buildFor {id : SequenceId} (outside : ¬hidden (.sequence id)) {given : Value} (avoids : given.Avoids hidden) :
    (c.buildFor id given).Heeds hidden (Value.Avoids hidden) := by
  refine (heeds_sequence outside).bind fun state held => ?_
  have held := held.body
  split
  · rename_i bound _ form
    rw [form] at held
    have chooses : (ofExcept (inputOf given bound)).Heeds hidden (Value.Avoids hidden) := by
      refine heeds_ofExcept fun data chosen => ?_
      unfold inputOf at chosen
      split at chosen <;> cases chosen
      · exact avoids
      · exact held.2.1
    exact chooses.bind fun data fine => heeds.build held.1 fine _
  · exact heeds_failMissing _ _

theorem outputOf {id : SequenceId} (outside : ¬hidden (.sequence id)) {kept : Value} (avoids : kept.Avoids hidden) :
    (c.outputOf id kept).Heeds hidden (Value.Avoids hidden) := by
  refine .ite ((heeds.buildFor outside (Value.avoids_of_refs_nil rfl)).bind fun output fine =>
    (heeds_updateSequence outside fun state held => ?_).bind fun _ (_ : True) => heeds_pure fine) (heeds_pure avoids)
  have body := held.body
  split <;> rename_i form
  · rw [form] at body
    exact ⟨⟨body.1, body.2.1, fine⟩, held.peeked⟩
  · exact held

theorem isMultiWith {id : SequenceId} (outside : ¬hidden (.sequence id)) :
    (c.isMultiWith id).Heeds hidden fun _ => True := by
  refine (heeds_sequence outside).bind fun state held => ?_
  have held := held.body
  split
  · rename_i form
    rw [form] at held
    exact .ite (heeds_pure trivial) ((heeds.outputOf outside held.2.2).bind fun _ fine =>
      (heeds_sequenceFor _ fine).bind heeds.isMulti)
  · exact heeds_pure trivial

theorem sizeWith {id : SequenceId} (outside : ¬hidden (.sequence id)) : (c.sizeWith id).Heeds hidden fun _ => True := by
  refine (heeds_sequence outside).bind fun state held => ?_
  have held := held.body
  split <;> rename_i form <;> rw [form] at held
  · exact heeds_lengthOf
  · exact heeds_pure trivial
  · exact (heeds.outputOf outside held.2.2).bind fun _ fine => (heeds_sequenceFor _ fine).bind heeds.size
  all_goals exact heeds_pure trivial

theorem pullWith {id : SequenceId} (outside : ¬hidden (.sequence id)) :
    (c.pullWith id).Heeds hidden (Value.Avoids hidden) := by
  refine (heeds_sequence outside).bind fun state held => ?_
  have held := held.body
  split <;> rename_i form <;> rw [form] at held
  · exact heeds_fail _
  · rename_i data feed
    cases feed with
    | some feed => exact heeds.draw (held.2 feed rfl)
    | none =>
      exact heeds.openThen outside (heeds_openFeed held.1) fun feed apart =>
        ⟨held.1, fun _ same => Option.some.inj same ▸ apart⟩
  · exact heeds.pullProduced outside _ held
  · exact heeds.pullDistinct outside held.1 held.2 _
  · exact (heeds.outputOf outside held.2.2).bind fun _ fine => (heeds_sequenceFor _ fine).bind heeds.next
  · exact heeds.advance _ held

/-! ### Streams -/

theorem beginStream {pipeline : SequenceId} (outside : ¬hidden (.sequence pipeline)) {input : Value}
    (avoids : input.Avoids hidden) : (c.beginStream pipeline input).Heeds hidden fun feed => ¬hidden feed.ref :=
  .ite ((heeds_sequence outside).bind fun _ _ =>
    .ite ((heeds.rewind pipeline outside).bind fun _ _ => heeds_pure outside) (heeds_pure outside))
    ((heeds.buildFor outside avoids).bind fun _ => heeds_openFeed)

section

variable {id : CursorId} (outside : ¬hidden (.cursor id)) {pipeline : SequenceId} {input : Value}
  (apart : ¬hidden (.sequence pipeline)) (avoids : input.Avoids hidden)
include outside apart avoids

/-- An element is drawn, and a stream marks where it is then. -/
theorem drawStream {feed : Feed} (fine : ¬hidden feed.ref) :
    (c.drawStream id pipeline input feed).Heeds hidden (Value.Avoids hidden) :=
  ((heeds.draw fine).onFault fun _ => (heeds_setCursor outside (by exact ⟨apart, avoids, trivial⟩)).bind fun _ _ =>
    heeds_fail _).bind fun _ held => (heeds_setCursor outside (by exact ⟨apart, avoids, fine⟩)).bind fun _ _ =>
      heeds_pure held

theorem advanceStream {phase : StreamPhase} (fine : phase.Avoids hidden) :
    (c.advanceStream id pipeline input phase).Heeds hidden (Value.Avoids hidden) := by
  have marked : ∀ phase : StreamPhase, phase.Avoids hidden →
      (setCursor id (.streaming pipeline input phase)).Heeds hidden fun _ => True :=
    fun _ held => heeds_setCursor outside ⟨apart, avoids, held⟩
  cases phase with
  | finished | running => exact heeds_fail _
  | delegating feed => exact (marked .running trivial).bind fun _ _ => heeds.drawStream outside apart avoids fine
  | fresh =>
    exact (marked .running trivial).bind fun _ _ => ((heeds.beginStream apart avoids).onFault fun _ =>
      (marked .finished trivial).bind fun _ _ => heeds_fail _).bind fun _ => heeds.drawStream outside apart avoids

end

theorem advanceWith {id : CursorId} (outside : ¬hidden (.cursor id)) :
    (c.advanceWith id).Heeds hidden (Value.Avoids hidden) := by
  refine (heeds_cursor outside).bind fun cursor avoids => ?_
  cases cursor with
  | walking => exact heeds_advanceWalker outside _ _ _ _ avoids
  | listing => exact heeds_advanceListing outside _ _ avoids
  | ranging => exact heeds_advanceRanging outside _ _ _ _
  | generating => exact heeds_advanceGenerator outside _ _ _ _ avoids
  | streaming => exact heeds.advanceStream outside avoids.1 avoids.2.1 avoids.2.2

end Heeds

/-- At every depth of calls, operations heed what is hidden. -/
theorem heeds_calls (n : Nat) : (calls n).Heeds hidden := by
  induction n with
  | zero => constructor <;> intros <;> exact heeds_outOfFuel
  | succ n ih =>
    exact {
      next := fun _ => ih.nextWith
      pull := fun _ => ih.pullWith
      rewind := fun _ => ih.rewindWith
      isMulti := fun _ => ih.isMultiWith
      size := fun _ => ih.sizeWith
      apply := fun _ _ => ih.applyWith
      advance := fun _ => ih.advanceWith
      gather := fun _ _ => ih.gatherWith }

end Calls

end FirstSeen
