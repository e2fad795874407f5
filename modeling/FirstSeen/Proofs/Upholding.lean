import FirstSeen.Proofs.Wholeness

/-!
# Operations keep references whole

Every operation on what is there leaves a whole store whole, at every depth of calls: calling and opening, moving on and
closing, pulling, beginning again, and building chains.
-/

set_option autoImplicit false

namespace FirstSeen

namespace Run

variable {base : Store}

/-! ## Calling and opening -/

/-- A key function answers a call without arguments with what is there. -/
theorem whole_callKey (id : KeyId) (arguments : List Value) :
    (callKey id arguments).Whole base fun left v => arguments = [] → left.Knows v := by
  have answers : (view fun store => answerOf store id arguments).Whole base fun left told =>
      arguments = [] → ∀ v, told.2 = .ok v → left.Knows v := by
    refine whole_view ?_
    rintro left _ whole rfl v answered
    exact whole.key id _ _ v answered
  refine answers.bind fun left (args, answer) _ fine => ?_
  refine (whole_modify ?_ ?_ ?_ ?_ ?_ ?_ ?_ ?_).bind fun after _ grows _ =>
    whole_ofExcept fun _ v later answered none => (fine none v answered).less (grows.trans later)
  case refine_6 =>
    refine fun store => ⟨by simp, fun other => ?_⟩
    simp only [Store.key, Store.getD_modify]
    split <;> rfl
  all_goals intro; rfl

theorem whole_newFeed {cursor : Cursor} (known : cursor.Avoids base.Lacks) :
    (do return .cursor (← newCursor cursor) : Run Feed).Whole base fun left feed => ¬left.Lacks feed.ref :=
  (whole_newCursor known).bind fun _ _ _ there => whole_pure fun _ later lacks => there (later _ lacks)

theorem whole_make {meter : MeterId} {product : Product} (known : product.Avoids base.Lacks) :
    (make meter product).Whole base Store.Knows := by
  have cursor : ∀ cursor : Cursor, cursor.Avoids base.Lacks →
      (do return .ofCursor (← newCursor cursor) : Run Value).Whole base Store.Knows :=
    fun _ known => (whole_newCursor known).bind fun _ _ _ there =>
      whole_pure fun _ later => (Value.avoids_object.mpr there).less later
  cases product with
  | value v => exact whole_pure fun _ later => Value.Avoids.less later known
  | generator script closing => exact cursor _ (by exact known)
  | walker name script closing => exact cursor _ (by exact known)
  | items all => exact cursor _ (by exact Script.avoids_ofValues known)
  | shared id => exact whole_pure fun _ later => (Value.avoids_object.mpr known).less later

theorem whole_callSource {source : Source} {product : Product} (known : product.Avoids base.Lacks) :
    (callSource source product).Whole base Store.Knows :=
  (whole_updateMeter _ _).bind fun _ _ grows _ => whole_reading.bind fun _ _ grows' _ => .unless <| whole_make <| by
    have later := grows.trans grows'
    cases product with
    | value v => exact Value.Avoids.less later known
    | generator script | walker name script => exact Script.Avoids.less later known
    | items all => exact fun v member => (known v member).less later
    | shared cursor => exact fun lacks => known (later _ lacks)

/-- A call that is no answer to arguments gives what is there. -/
theorem whole_call (v : Value) (args : List Value) :
    (call v args).Whole base fun left v => args = [] → left.Knows v := by
  unfold call
  split
  · exact whole_callKey _ args
  · refine (whole_view fun _ _ whole => whole.source _).bind fun left source grows fine => ?_
    split
    · rename_i product made
      exact (whole_callSource (fine.product product made)).imp fun _ _ _ held _ => held
    · exact whole_fail _
  · exact whole_failing _

theorem whole_openSource {source : Source} (known : source.Avoids base.Lacks) :
    (openSource source).Whole base fun left feed => ¬left.Lacks feed.ref := by
  unfold openSource
  split <;> rename_i opening
  · exact whole_newFeed (known.opening _ opening)
  · exact (whole_updateMeter _ _).bind fun _ _ grows _ =>
      whole_newFeed (Cursor.Avoids.less grows (by exact known.opening _ opening))
  · exact (whole_updateMeter _ _).bind fun _ _ _ _ => whole_fail _
  · exact whole_newFeed (known.opening _ opening)
  · exact whole_fail _

theorem whole_openFeed {v : Value} (known : base.Knows v) :
    (openFeed v).Whole base fun left feed => ¬left.Lacks feed.ref := by
  unfold openFeed
  split
  · exact whole_pure fun _ later lacks => Value.avoids_object.mp known (later _ lacks)
  · exact whole_pure fun _ later lacks => Value.avoids_object.mp known (later _ lacks)
  · exact whole_newFeed (Value.avoids_object.mp known)
  · exact (whole_view fun _ _ whole => whole.source _).bind fun _ _ _ => whole_openSource
  · refine (whole_plain known).bind fun left held grows fine => ?_
    split
    · exact whole_newFeed trivial
    · split
      · rename_i script given
        exact whole_newFeed (Script.avoids_ofValue? fine given)
      · exact whole_failing _

theorem whole_lengthOf (v : Value) : (lengthOf v).Whole base fun _ _ => True := by
  have word : ∀ n left, (wordLength n).Whole left fun _ _ => True :=
    fun n _ => .ite (whole_fail _) (whole_pure fun _ _ => trivial)
  unfold lengthOf
  split
  · exact whole_reading.bind fun _ _ _ _ => whole_pure fun _ _ => trivial
  · refine whole_reading.bind fun left source _ _ => ?_
    split
    · exact whole_pure fun _ _ => trivial
    · exact whole_fail _
    · exact .unless (.unless (whole_pure fun _ _ => trivial))
  · refine whole_reading.bind fun left held _ _ => ?_
    split
    · exact whole_pure fun _ _ => trivial
    · exact word _ _

theorem whole_makeRoom (v : Value) : (makeRoom v).Whole base fun _ _ => True := by
  have remaining : (remainingOf v).Whole base fun _ _ => True := by
    unfold remainingOf
    split
    · refine whole_reading.bind fun left cursor _ _ => ?_
      split
      · exact .ite (whole_fail _) (whole_pure fun _ _ => trivial)
      · exact whole_pure fun _ _ => trivial
    · exact whole_lengthOf _
  refine (remaining.onFault fun _ fault _ => .ite (whole_pure fun _ _ => trivial) (whole_fail _)).bind
    fun _ length _ _ => ?_
  split
  · exact .ite (whole_fail _) (whole_pure fun _ _ => trivial)
  · exact whole_pure fun _ _ => trivial

/-! ## Moving on and closing -/

theorem whole_noteClose (meter : Option MeterId) (closing : CloseRule) :
    (noteClose meter closing).Whole base fun _ _ => True := by
  cases closing with
  | silent => exact whole_pure fun _ _ => trivial
  | counted fault =>
    refine (whole_updateMeter? meter _).bind fun _ _ _ _ => ?_
    cases fault with
    | none => exact whole_pure fun _ _ => trivial
    | some fault => exact whole_fail fault

theorem whole_closeFeed (feed : Feed) : (closeFeed feed).Whole base fun _ _ => True := by
  cases feed with
  | sequence id => exact whole_pure fun _ _ => trivial
  | cursor id =>
    refine (whole_cursor id).bind fun _ cursor _ known => ?_
    cases cursor with
    | walking name script position meter closing => exact whole_noteClose meter closing
    | listing | ranging => exact whole_pure fun _ _ => trivial
    | generating script position phase meter closing =>
      exact (whole_setCursor _ (by exact known)).bind fun _ _ _ _ =>
        .ite (.onFault (whole_noteClose meter closing) fun _ _ _ => whole_fail _) (whole_pure fun _ _ => trivial)
    | streaming pipeline input phase =>
      exact .unless (whole_setCursor _ (by exact ⟨known.1, known.2.1, trivial⟩))

theorem whole_deliver {event : Event} (known : event.Avoids base.Lacks) : (deliver event).Whole base Store.Knows := by
  cases event with
  | value v => exact whole_pure fun _ later => Value.Avoids.less later known
  | made v => exact whole_newObject known
  | fault fault => exact whole_fail fault

section

variable (id : CursorId)

/-- An iterator moves on along a script, and hands out what is there. -/
theorem whole_advance_script {script : Script} {position : Nat} {event : Event} (told : script position = some event)
    {cursor : Cursor} (known : script.Avoids base.Lacks) (same : cursor.Avoids base.Lacks) :
    (setCursor id cursor >>= fun _ => deliver event).Whole base Store.Knows :=
  (whole_setCursor id same).bind fun _ _ grows _ => whole_deliver (Script.Avoids.less grows known position event told)

theorem whole_advanceWalker (name : String) {script : Script} (position : Nat) (meter : Option MeterId)
    (closing : CloseRule) (known : script.Avoids base.Lacks) :
    (advanceWalker id name script position meter closing).Whole base Store.Knows := by
  refine (whole_updateMeter? meter _).bind fun _ _ grows _ => ?_
  have known' := known.less grows
  split
  · exact whole_fail _
  · rename_i event told
    exact whole_advance_script id told known' (by exact known')

theorem whole_advanceListing {list : ListId} (position : Nat) (ended : Bool) (known : ¬base.Lacks (.list list)) :
    (advanceListing id list position ended).Whole base Store.Knows := by
  refine .unless ((whole_list list).bind fun _ items grows fine => ?_)
  have listing : ∀ position ended, (Cursor.listing list position ended).Avoids _ :=
    fun _ _ lacks => known (grows _ lacks)
  split
  · exact (whole_setCursor _ (listing _ _)).bind fun _ _ _ _ => whole_fail _
  · rename_i v there
    exact (whole_setCursor _ (listing _ _)).bind fun _ _ grows' _ => whole_pure fun _ later =>
      (fine v (List.mem_of_getElem? there)).less (grows'.trans later)

theorem whole_advanceRanging (start stop step : Int) (position : Nat) :
    (advanceRanging id start stop step position).Whole base Store.Knows := by
  unfold advanceRanging
  split
  · exact whole_fail _
  · rename_i v told
    have number : v.refs = [] := by
      unfold Value.rangeItem? at told
      split at told <;> cases told
      rfl
    exact (whole_setCursor _ (by exact trivial)).bind fun _ _ _ _ => whole_newObject (Value.avoids_of_refs_nil number)

theorem whole_advanceGenerator {script : Script} (position : Nat) (phase : Phase) (meter : Option MeterId)
    (closing : CloseRule) (known : script.Avoids base.Lacks) :
    (advanceGenerator id script position phase meter closing).Whole base Store.Knows := by
  have moved : ∀ left : Store, base.GrowsTo left → ∀ position phase,
      (Cursor.generating script position phase meter closing).Avoids left.Lacks := fun _ grows _ _ => known.less grows
  refine .unless ?_
  refine .ite ((whole_updateMeter? meter _).bind fun _ _ grows _ => ?_) ?_
  on_goal 2 => have grows := base.growsTo_refl
  all_goals
    split
    · exact (whole_setCursor _ (moved _ grows _ _)).bind fun _ _ _ _ => whole_fail _
    · rename_i event told
      refine (whole_updateMeter? meter _).bind fun _ _ grows' _ => ?_
      have later := grows.trans grows'
      split
      · exact (whole_setCursor _ (moved _ later _ _)).bind fun _ _ _ _ => whole_fail _
      · exact whole_advance_script id told (known.less later) (moved _ later _ _)

end

/-! ## Sequences -/

section

variable (id : SequenceId)

theorem whole_cleanUp : (cleanUp id).Whole base fun _ _ => True := by
  refine (whole_sequence id).bind fun _ state _ known => ?_
  have held := known.body
  split
  · rename_i form
    rw [form] at held
    exact whole_setBody id held
  · rename_i form
    rw [form] at held
    exact whole_setBody id ⟨held.1, by simp⟩
  · exact whole_pure fun _ _ => trivial

theorem whole_signalEnd : (signalEnd id).Whole base fun _ _ => True :=
  .bind (whole_updateSequence id fun _ _ _ held => ⟨held.body, held.peeked⟩) fun _ _ _ _ =>
    (whole_sequence id).bind fun _ _ _ _ => (whole_tell _).bind fun _ _ _ _ => whole_cleanUp id

theorem whole_tellSeen (key : Value) (notices : List SeenNotice) :
    (tellSeen id key notices).Whole base fun _ _ => True := by
  induction notices generalizing base with
  | nil => exact whole_pure fun _ _ => trivial
  | cons notice rest ih =>
    cases notice with
    | listLookup => exact whole_reading.bind fun _ _ _ _ => (whole_tell _).bind fun _ _ _ _ => ih
    | limitReached => exact (whole_tell _).bind fun _ _ _ _ => ih

theorem whole_remember (key : Value) : (remember id key).Whole base fun _ _ => True := by
  refine (whole_sequence id).bind fun _ state _ known => ?_
  have held := known.body
  split
  · rename_i form
    rw [form] at held
    exact whole_reading.bind fun _ _ grows _ => whole_reading.bind fun _ _ grows' _ => whole_reading.bind
      fun _ _ grows'' _ => .bind (whole_setBody id (held.less (grows.trans (grows'.trans grows'')))) fun _ _ _ _ =>
        (whole_tellSeen id key _).bind fun _ _ _ _ => whole_ofExcept fun _ _ _ _ => trivial
  · exact whole_pure fun _ _ => trivial

end

/-! ## Making sequences -/

theorem whole_flagOf (multiValue : Value) : (flagOf multiValue).Whole base fun _ _ => True := by
  unfold flagOf
  split
  · exact whole_pure fun _ _ => trivial
  · exact whole_failing _

theorem whole_newIterable {data : Value} (known : base.Knows data) (multiValue : Value) :
    (newIterable data multiValue).Whole base fun left id => ¬left.Lacks (.sequence id) :=
  (whole_flagOf multiValue).bind fun _ _ grows _ => whole_reading.bind fun _ _ grows' _ =>
    .ite (whole_newSequence ⟨⟨known.less (grows.trans grows'), by simp⟩, by simp⟩) (whole_failing _)

theorem whole_newProduced {factory : Value} (known : base.Knows factory) (multiValue size : Value) :
    (newProduced factory multiValue size).Whole base fun left id => ¬left.Lacks (.sequence id) := by
  have counted : ∀ left, (isCount size).Whole left fun _ _ => True := by
    refine fun left => whole_reading.bind fun _ held _ _ => ?_
    cases held.integer? with
    | none => exact whole_pure fun _ _ => trivial
    | some n => exact whole_pure fun _ _ => trivial
  have made : ∀ (multi : Bool) (left : Store), base.GrowsTo left →
      (newSequence { body := .produced factory size none, multiValue := multi }).Whole left
        fun left id => ¬left.Lacks (.sequence id) :=
    fun _ _ grows => whole_newSequence ⟨⟨known.less grows, by simp⟩, by simp⟩
  refine (whole_flagOf multiValue).bind fun left multi grows _ => whole_reading.bind fun left' callable grows' _ => ?_
  have later := grows.trans grows'
  have sized : ∀ left : Store, base.GrowsTo left → (do
      if !(size.isNull || (← isCount size)) then fail (.badSize (← view (·.shown size)))
      newSequence { body := .produced factory size none, multiValue := multi } : Run SequenceId).Whole left
        fun left id => ¬left.Lacks (.sequence id) :=
    fun left grows => (counted left).bind fun left' _ grows' _ => .ite (whole_reading.bind fun _ _ grows'' _ =>
      (whole_fail _).bind fun _ _ grows''' (_ : True) => made multi _ (grows.trans (grows'.trans (grows''.trans grows'''))))
        (made multi left' (grows.trans grows'))
  exact .ite (whole_reading.bind fun _ _ grows'' _ =>
    (whole_fail _).bind fun left'' _ grows''' (_ : True) => sized left'' (later.trans (grows''.trans grows''')))
      (sized left' later)

/-- A sequence that is taken from data is there like the data. -/
theorem whole_toSequence {data : Value} (known : base.Knows data) (multiValue : Value) :
    (toSequence data multiValue).Whole base fun left id => ¬left.Lacks (.sequence id) := by
  unfold toSequence
  split
  · exact whole_pure fun _ later lacks => Value.avoids_object.mp known (later _ lacks)
  · exact whole_reading.bind fun _ _ grows _ => .ite (whole_newIterable (known.less grows) _)
      (whole_reading.bind fun _ _ grows' _ =>
        .ite (whole_newProduced (known.less (grows.trans grows')) _ _) (whole_failing _))

end Run

/-! ## Operations that call each other -/

namespace Calls

open Run

/-- Whether the operations keep stores whole if they are asked of what is there. -/
structure Upholds (c : Calls) : Prop where
  next : ∀ base id, (c.next id).Whole base Store.Knows
  pull : ∀ base id, (c.pull id).Whole base Store.Knows
  rewind : ∀ base id, (c.rewind id).Whole base fun _ _ => True
  isMulti : ∀ base id, (c.isMulti id).Whole base fun _ _ => True
  size : ∀ base id, (c.size id).Whole base fun _ _ => True
  apply : ∀ (base : Store) step supply, base.Knows supply → (c.apply step supply).Whole base Store.Knows
  advance : ∀ base id, (c.advance id).Whole base Store.Knows
  gather : ∀ (base : Store) feed earlier, (∀ v ∈ earlier, base.Knows v) →
    (c.gather feed earlier).Whole base fun left items => ∀ v ∈ items, left.Knows v

namespace Upholds

variable {c : Calls} (upholds : c.Upholds) {base : Store}
include upholds

/-! ### Drawing and gathering -/

theorem draw (feed : Feed) : (c.draw feed).Whole base Store.Knows := by
  cases feed with
  | cursor id => exact upholds.advance base id
  | sequence id => exact upholds.next base id

theorem gatherWith (feed : Feed) {earlier : List Value} (known : ∀ v ∈ earlier, base.Knows v) :
    (c.gatherWith feed earlier).Whole base fun left items => ∀ v ∈ items, left.Knows v := by
  have drawn : (some <$> c.draw feed).Whole base fun left drawn => ∀ v, drawn = some v → left.Knows v :=
    (upholds.draw feed).map fun _ _ v grows fine w same => Option.some.inj same ▸ fine.less grows
  refine (drawn.onFault fun _ fault _ => .ite (whole_pure (by simp)) (whole_fail _)).bind fun left drawn grows fine => ?_
  cases drawn with
  | some v =>
    exact upholds.gather left feed _ (List.forall_mem_cons.mpr ⟨fine v rfl, fun w member => (known w member).less grows⟩)
  | none => exact whole_pure fun _ later v member => (known v (List.mem_reverse.mp member)).less (grows.trans later)

theorem listOf {v : Value} (known : base.Knows v) :
    (c.listOf v).Whole base fun left items => ∀ v ∈ items, left.Knows v :=
  (whole_openFeed known).bind fun _ feed _ _ => (whole_makeRoom v).bind fun left _ _ _ => upholds.gather left feed [] (by simp)

theorem itemsOf? {v : Value} (known : base.Knows v) : (c.itemsOf? v).Whole base fun _ _ => True := by
  unfold Calls.itemsOf?
  split
  · exact whole_reading.map fun _ _ _ _ _ => trivial
  · exact (whole_makeRoom _).bind fun _ _ _ _ => whole_reading.bind fun _ _ _ _ => whole_pure fun _ _ => trivial
  · exact whole_reading.bind fun _ _ grows _ =>
      .ite ((upholds.listOf (known.less grows)).map fun _ _ _ _ _ => trivial) (whole_pure fun _ _ => trivial)
  · exact whole_pure fun _ _ => trivial

/-! ### Sequences -/

theorem nextWith (id : SequenceId) : (c.nextWith id).Whole base Store.Knows := by
  have pulled : ∀ left : Store, (do
      Run.updateSequence id fun state => { state with started := true }
      Run.onFault (c.pull id) fun fault => do
        if fault.isEnd then Run.signalEnd id
        Run.fail fault : Run Value).Whole left Store.Knows := fun left =>
    .bind (whole_updateSequence id fun _ _ _ held => ⟨held.body, held.peeked⟩) fun left' _ _ _ =>
      (upholds.pull left' id).onFault fun _ fault _ =>
        .ite ((whole_signalEnd id).bind fun _ _ _ _ => whole_fail _) (whole_fail _)
  refine (whole_sequence id).bind fun left state _ known => ?_
  split
  · rename_i v pending
    exact .bind (whole_updateSequence id fun _ _ _ held => ⟨held.body, by simp⟩) fun _ _ grows _ =>
      whole_pure fun _ later => (known.peeked v pending).less (grows.trans later)
  · exact .unless (pulled left)

/-- Opening for the first pull of a pass, and drawing then. -/
theorem openThen {id : SequenceId} {opener : Run Feed} (opens : opener.Whole base fun left feed => ¬left.Lacks feed.ref)
    {body : Feed → Body} (known : ∀ (left : Store) feed, base.GrowsTo left → ¬left.Lacks feed.ref →
      (body feed).Avoids left.Lacks) :
    (do
      let feed ← opener
      setBody id (body feed)
      c.draw feed : Run Value).Whole base Store.Knows :=
  opens.bind fun left feed grows fine => (whole_setBody id (known left feed grows fine)).bind fun _ _ _ _ =>
    upholds.draw feed

theorem pullProduced {id : SequenceId} {factory : Value} (size : Value) {feed : Option Feed}
    (known : (Body.produced factory size feed).Avoids base.Lacks) :
    (c.pullProduced id factory size feed).Whole base Store.Knows := by
  cases feed with
  | some feed => exact upholds.draw feed
  | none =>
    exact (whole_call factory []).bind fun _ made grows fine => (whole_install (fine rfl)).bind fun _ held grows' fine' =>
      upholds.openThen (whole_openFeed fine') fun _ feed grows'' there =>
        ⟨known.1.less (grows.trans (grows'.trans grows'')), fun _ same => Option.some.inj same ▸ there⟩

theorem keyFor (key : Value) (multi : Bool) {element : Value} (known : base.Knows element) :
    (c.keyFor key multi element).Whole base fun _ _ => True := by
  have called : (c.callKeyOn key multi element).Whole base fun _ _ => True := by
    refine .ite ((upholds.itemsOf? known).bind fun _ items _ _ => ?_) ((whole_call key _).imp fun _ _ _ _ => trivial)
    cases items with
    | some items => exact (whole_call key _).imp fun _ _ _ _ => trivial
    | none => exact whole_reading.bind fun _ _ _ _ => whole_failing _
  exact .ite (whole_pure fun _ _ => trivial) (called.onFault fun _ fault _ => whole_fail _)

theorem pullDistinct (id supply : SequenceId) (key : Value) (multi : Bool) :
    (c.pullDistinct id supply key multi).Whole base Store.Knows :=
  (upholds.next base supply).bind fun _ _ _ fine => (upholds.keyFor key multi fine).bind fun _ k grows _ =>
    (whole_remember id k).bind fun left _ grows' _ => .ite
      (whole_pure fun _ later => fine.less (grows.trans (grows'.trans later))) (upholds.pull left id)

theorem reset (id : SequenceId) : (c.reset id).Whole base fun _ _ => True := by
  refine (whole_sequence id).bind fun left state _ known => ?_
  have held := known.body
  split <;> rename_i form <;> rw [form] at held
  · exact whole_fail _
  · exact whole_fail _
  · rename_i data feed
    have again : ∀ after : Store, left.GrowsTo after → (setBody id (.iterable data none)).Whole after fun _ _ => True :=
      fun _ grows => whole_setBody id ⟨held.1.less grows, by simp⟩
    exact .ite (whole_reading.bind fun _ _ grows _ => (whole_fail _).bind fun _ _ grows' (_ : True) =>
      again _ (grows.trans grows')) (again left left.growsTo_refl)
  · rename_i factory size feed
    have again : ∀ after : Store, left.GrowsTo after → (setBody id (.produced factory size none)).Whole after fun _ _ => True :=
      fun _ grows => whole_setBody id ⟨held.1.less grows, by simp⟩
    cases feed with
    | none => exact again left left.growsTo_refl
    | some feed => exact (whole_closeFeed feed).bind fun _ _ grows _ => again _ grows
  · exact (upholds.rewind left _).bind fun _ _ grows _ => whole_setBody id (held.less grows)
  · exact .ite (whole_pure fun _ _ => trivial) ((whole_sequenceFor _ held.2.2).bind fun left' _ _ _ => upholds.rewind left' _)

theorem rewindWith (id : SequenceId) : (c.rewindWith id).Whole base fun _ _ => True :=
  (upholds.reset id).bind fun _ _ _ _ => .bind (whole_updateSequence id fun _ _ _ held => ⟨held.body, by simp⟩)
    fun _ _ _ _ => (whole_sequence id).bind fun _ _ _ _ => whole_tell _

/-! ### Building -/

theorem applyAll {steps : List Value} {supply : Value} (fine : base.Knows supply) :
    (c.applyAll steps supply).Whole base Store.Knows := by
  induction steps generalizing base supply with
  | nil => exact whole_pure fun _ later => fine.less later
  | cons step rest ih => exact (upholds.apply base step supply fine).bind fun _ _ _ => ih

theorem newDistinct {supply key : Value} (fine : base.Knows supply) (known : base.Knows key) (limit : Value) :
    (c.newDistinct supply key limit).Whole base fun left id => ¬left.Lacks (.sequence id) := by
  unfold Calls.newDistinct
  split
  · exact (upholds.isMulti base _).bind fun _ _ grows _ =>
      whole_newSequence ⟨⟨fun lacks => Value.avoids_object.mp fine (grows _ lacks), known.less grows⟩, by simp⟩
  · exact whole_failing _

theorem applyWith (step : Value) {supply : Value} (fine : base.Knows supply) :
    (c.applyWith step supply).Whole base Store.Knows := by
  have sequence : ∀ {left : Store} {id : SequenceId}, ¬left.Lacks (.sequence id) →
      (pure (.ofSequence id) : Run Value).Whole left Store.Knows :=
    fun there => whole_pure fun _ later => (Value.avoids_object.mpr there).less later
  unfold Calls.applyWith
  split
  · refine (whole_view fun _ _ whole => whole.step _).bind fun left step' grows held => ?_
    have fine' := fine.less grows
    split
    · exact (upholds.newDistinct fine' held _).bind fun _ _ _ => sequence
    · exact whole_pure fun _ later => fine'.less later
    · exact (whole_newIterable fine' _).bind fun _ _ _ => sequence
    · exact whole_pure fun _ later => Value.Avoids.less later held
    · exact whole_fail _
    · exact whole_fail _
    · exact whole_failMissing _ _
  · refine (whole_sequence _).bind fun left state grows _ => ?_
    split
    · exact (whole_list _).bind fun _ steps grows' _ => upholds.applyAll (fine.less (grows.trans grows'))
    · exact whole_failMissing _ _
  · exact whole_failMissing _ _

theorem build (steps : ListId) {data : Value} (known : base.Knows data) (multi : Bool) :
    (c.build steps data multi).Whole base Store.Knows := by
  refine (whole_toSequence known _).bind fun _ input grows there => (whole_sequence _).bind fun left _ grows' _ => ?_
  have there' : ∀ after : Store, left.GrowsTo after → after.Knows (.ofSequence input) :=
    fun _ later => (Value.avoids_object.mpr there).less (grows'.trans later)
  have applied : ∀ after : Store, left.GrowsTo after →
      (do c.applyAll (← Run.list steps) (.ofSequence input) : Run Value).Whole after Store.Knows :=
    fun after later => (whole_list steps).bind fun _ _ grows'' _ => upholds.applyAll (there' _ (later.trans grows''))
  exact .ite ((upholds.rewind left input).bind fun after _ later _ => applied after later) (applied left left.growsTo_refl)

theorem buildFor (id : SequenceId) {given : Value} (known : base.Knows given) :
    (c.buildFor id given).Whole base Store.Knows := by
  refine (whole_sequence id).bind fun left state grows held => ?_
  have held := held.body
  split
  · rename_i bound _ form
    rw [form] at held
    have chooses : (ofExcept (inputOf given bound)).Whole left Store.Knows := by
      refine whole_ofExcept fun after data later chosen => ?_
      unfold inputOf at chosen
      split at chosen <;> cases chosen
      · exact known.less (grows.trans later)
      · exact held.2.1.less later
    exact chooses.bind fun _ data _ fine => upholds.build _ fine _
  · exact whole_failMissing _ _

theorem outputOf (id : SequenceId) {kept : Value} (known : base.Knows kept) :
    (c.outputOf id kept).Whole base Store.Knows := by
  refine .ite ((upholds.buildFor id (Value.avoids_of_refs_nil rfl)).bind fun left output grows fine =>
    (whole_updateSequence id fun after state later held => ?_).bind fun _ _ grows' (_ : True) =>
      whole_pure fun _ later => fine.less (grows'.trans later)) (whole_pure fun _ later => known.less later)
  have body := held.body
  split <;> rename_i form
  · rw [form] at body
    exact ⟨⟨body.1, body.2.1, fine.less later⟩, held.peeked⟩
  · exact held

theorem isMultiWith (id : SequenceId) : (c.isMultiWith id).Whole base fun _ _ => True := by
  refine (whole_sequence id).bind fun left state _ held => ?_
  have held := held.body
  split
  · rename_i form
    rw [form] at held
    exact .ite (whole_pure fun _ _ => trivial) ((upholds.outputOf id held.2.2).bind fun _ _ _ fine =>
      (whole_sequenceFor _ fine).bind fun left' _ _ _ => upholds.isMulti left' _)
  · exact whole_pure fun _ _ => trivial

theorem sizeWith (id : SequenceId) : (c.sizeWith id).Whole base fun _ _ => True := by
  refine (whole_sequence id).bind fun left state _ held => ?_
  have held := held.body
  split <;> rename_i form <;> rw [form] at held
  · exact whole_lengthOf _
  · exact whole_pure fun _ _ => trivial
  · exact (upholds.outputOf id held.2.2).bind fun _ _ _ fine =>
      (whole_sequenceFor _ fine).bind fun left' _ _ _ => upholds.size left' _
  all_goals exact whole_pure fun _ _ => trivial

theorem pullWith (id : SequenceId) : (c.pullWith id).Whole base Store.Knows := by
  refine (whole_sequence id).bind fun left state _ held => ?_
  have held := held.body
  split <;> rename_i form <;> rw [form] at held
  · exact whole_fail _
  · rename_i data feed
    cases feed with
    | some feed => exact upholds.draw feed
    | none =>
      exact upholds.openThen (whole_openFeed held.1) fun _ feed grows there =>
        ⟨held.1.less grows, fun _ same => Option.some.inj same ▸ there⟩
  · exact upholds.pullProduced _ held
  · exact upholds.pullDistinct _ _ _ _
  · exact (upholds.outputOf id held.2.2).bind fun _ _ _ fine =>
      (whole_sequenceFor _ fine).bind fun left' _ _ _ => upholds.next left' _
  · exact upholds.advance left _

/-! ### Streams -/

theorem beginStream {pipeline : SequenceId} (there : ¬base.Lacks (.sequence pipeline)) {input : Value}
    (known : base.Knows input) : (c.beginStream pipeline input).Whole base fun left feed => ¬left.Lacks feed.ref := by
  have begun : ∀ left : Store, base.GrowsTo left →
      (pure (Feed.sequence pipeline) : Run Feed).Whole left fun left feed => ¬left.Lacks feed.ref :=
    fun _ grows => whole_pure fun _ later lacks => there (grows _ (later _ lacks))
  exact .ite ((whole_sequence _).bind fun left _ grows _ =>
    .ite ((upholds.rewind left pipeline).bind fun _ _ grows' _ => begun _ (grows.trans grows')) (begun left grows))
    ((upholds.buildFor pipeline known).bind fun _ _ _ => whole_openFeed)

section

variable {id : CursorId} {pipeline : SequenceId} {input : Value} (there : ¬base.Lacks (.sequence pipeline))
  (known : base.Knows input)
include there known

/-- An element is drawn, and a stream marks where it is then. -/
theorem drawStream {feed : Feed} (fine : ¬base.Lacks feed.ref) :
    (c.drawStream id pipeline input feed).Whole base Store.Knows := by
  have marked : ∀ (left : Store) (phase : StreamPhase), base.GrowsTo left → phase.Avoids left.Lacks →
      (setCursor id (.streaming pipeline input phase)).Whole left fun _ _ => True :=
    fun _ _ grows held => whole_setCursor id ⟨fun lacks => there (grows _ lacks), known.less grows, held⟩
  exact ((upholds.draw feed).onFault fun left _ grows => (marked left _ grows (by exact trivial)).bind fun _ _ _ _ =>
    whole_fail _).bind fun left _ grows held =>
      (marked left _ grows (by exact fun lacks => fine (grows _ lacks))).bind fun _ _ grows' _ =>
        whole_pure fun _ later => held.less (grows'.trans later)

theorem advanceStream {phase : StreamPhase} (fine : phase.Avoids base.Lacks) :
    (c.advanceStream id pipeline input phase).Whole base Store.Knows := by
  have marked : ∀ (left : Store) (phase : StreamPhase), base.GrowsTo left → phase.Avoids left.Lacks →
      (setCursor id (.streaming pipeline input phase)).Whole left fun _ _ => True :=
    fun _ _ grows held => whole_setCursor id ⟨fun lacks => there (grows _ lacks), known.less grows, held⟩
  cases phase with
  | finished | running => exact whole_fail _
  | delegating feed =>
    exact (marked base .running base.growsTo_refl trivial).bind fun _ _ grows _ =>
      upholds.drawStream (fun lacks => there (grows _ lacks)) (known.less grows) fun lacks => fine (grows _ lacks)
  | fresh =>
    exact (marked base .running base.growsTo_refl trivial).bind fun _ _ grows _ =>
      ((upholds.beginStream (fun lacks => there (grows _ lacks)) (known.less grows)).onFault fun left _ grows' =>
        (marked left .finished (grows.trans grows') trivial).bind fun _ _ _ _ => whole_fail _).bind
          fun _ _ grows' => upholds.drawStream (fun lacks => there (grows _ (grows' _ lacks)))
            (known.less (grows.trans grows'))

end

theorem advanceWith (id : CursorId) : (c.advanceWith id).Whole base Store.Knows := by
  refine (whole_cursor id).bind fun _ cursor _ known => ?_
  cases cursor with
  | walking => exact whole_advanceWalker _ _ _ _ _ known
  | listing => exact whole_advanceListing _ _ _ known
  | ranging => exact whole_advanceRanging _ _ _ _ _
  | generating => exact whole_advanceGenerator _ _ _ _ _ known
  | streaming => exact upholds.advanceStream known.1 known.2.1 known.2.2

end Upholds

/-- At every depth of calls, operations keep stores whole. -/
theorem upholds_calls (n : Nat) : (calls n).Upholds := by
  induction n with
  | zero => constructor <;> intros <;> exact whole_outOfFuel
  | succ n ih =>
    exact {
      next := fun _ => ih.nextWith
      pull := fun _ => ih.pullWith
      rewind := fun _ => ih.rewindWith
      isMulti := fun _ => ih.isMultiWith
      size := fun _ => ih.sizeWith
      apply := fun _ step _ => ih.applyWith step
      advance := fun _ => ih.advanceWith
      gather := fun _ feed _ => ih.gatherWith feed }

end Calls

end FirstSeen
