import FirstSeen.Chaining
import FirstSeen.Proofs.Outcome
import Mathlib.Order.Defs.Unbundled

/-!
# Laws of runs

A law claims something of each run from each store. It passes on to what is put together from runs that obey it if it
holds of runs that only read, and where one run follows another or handles its fault. What is read by then must not be
where a stream is, which few operations look at.

Of this sort is what runs keep: a relation between stores that holds of each store and itself, and passes on from one
store to the next, is kept by a run if it holds between each store and the one that the run leaves.

The makers of sequences and pipelines obey a law if adding a sequence and a list does, and the builders of chains if the
operations do that they call.
-/

set_option autoImplicit false

namespace FirstSeen

/-! ## Readings that do not see where streams are -/

/-- An iterator without how far it is, if it is a stream. -/
def Cursor.faded : Cursor → Cursor
  | streaming pipeline input _ => streaming pipeline input .finished
  | cursor => cursor

namespace Store

/-- A store without how far its streams are. -/
def faded (store : Store) : Store := { store with cursors := store.cursors.map Cursor.faded }

/-- Whether a reading is the same wherever streams are. -/
def Unseeing {α : Type} (f : Store → α) : Prop := ∀ store : Store, f store.faded = f store

@[simp] theorem cursor_faded (store : Store) (id : CursorId) : store.faded.cursor id = (store.cursor id).faded := by
  simp only [cursor, faded, Array.getD_eq_getD_getElem?, Array.getElem?_map]
  cases store.cursors[id.index]? <;> rfl

theorem unseeing_typeName (v : Value) : Unseeing fun store => store.typeName v := by
  intro store
  cases v with
  | object ref =>
    cases ref with
    | cursor id =>
      change (store.faded.cursor id).typeName = (store.cursor id).typeName
      rw [cursor_faded]
      cases store.cursor id <;> rfl
    | _ => rfl
  | _ => rfl

theorem unseeing_ownerName (v : Value) : Unseeing fun store => store.ownerName v := by
  intro store
  simp only [ownerName, unseeing_typeName v store]
  rfl

theorem unseeing_contents (v : Value) : Unseeing fun store => store.contents v := by
  intro store
  suffices same : ∀ depth v, store.faded.contentsTo depth v = store.contentsTo depth v from same _ v
  intro depth
  induction depth with
  | zero => exact fun _ => rfl
  | succ depth ih =>
    intro v
    rw [contentsTo, contentsTo, funext ih]
    rfl

theorem unseeing_shown (v : Value) : Unseeing fun store => store.shown v := by
  intro store
  have named : store.faded.typeName = store.typeName := funext fun v => unseeing_typeName v store
  simp only [shown, unseeing_contents v store, named]

theorem unseeing_asText (v : Value) : Unseeing fun store => store.asText v := by
  intro store
  simp only [asText, unseeing_shown v store]
  rfl

theorem unseeing_calleeName (v : Value) : Unseeing fun store => store.calleeName v := by
  intro store
  simp only [calleeName, unseeing_asText v store]
  rfl

/-- Key functions see the types and contents of their arguments, and these do not depend on streams. -/
theorem unseeing_answerOf (id : KeyId) (arguments : List Value) :
    Unseeing fun store => Run.answerOf store id arguments := by
  intro store
  have named : store.faded.typeName = store.typeName := funext fun v => unseeing_typeName v store
  have held : store.faded.contents = store.contents := funext fun v => unseeing_contents v store
  simp only [Run.answerOf, named, held]
  rfl

end Store

/-! ## Laws -/

/-- What is claimed of each run from each store. -/
abbrev Law := (α : Type) → Run α → Store → Prop

/-- Whether a run obeys a law wherever it starts. -/
def Run.Obeys (law : Law) {α : Type} (run : Run α) : Prop := ∀ store : Store, law α run store

/-- A law that passes on to what is put together from runs that obey it. -/
class Law.Composes (law : Law) : Prop where
  pure : ∀ {α : Type} (a : α), Run.Obeys law (Pure.pure a : Run α)
  fail : ∀ {α : Type} (fault : Fault), Run.Obeys law (Run.fail fault : Run α)
  outOfFuel : ∀ {α : Type}, Run.Obeys law (throw .outOfFuel : Run α)
  view : ∀ {α : Type} {f : Store → α}, Store.Unseeing f → Run.Obeys law (Run.view f)
  bind : ∀ {α β : Type} {run : Run α} {next : α → Run β} {store : Store}, law α run store →
    (∀ a left, run.from? store = (.ok a, left) → law β (next a) left) → law β (run >>= next) store
  onFault : ∀ {α : Type} {run : Run α} {handler : Fault → Run α} {store : Store}, law α run store →
    (∀ fault left, run.from? store = (.error (.fault fault), left) → law α (handler fault) left) →
    law α (Run.onFault run handler) store

/-- A law that adding a sequence or a list obeys. -/
class Law.Makes (law : Law) : Prop extends law.Composes where
  newSequence : ∀ body multi, (Run.newSequence { body := body, multiValue := multi }).Obeys law
  newList : ∀ items, (Run.newList items).Obeys law

/-- The law that a relation is kept. -/
def Law.keeping (R : Store → Store → Prop) : Law := fun _ run store => R store (run.from? store).2

/-- Whether a run leaves each store a related one. -/
def Run.Keeps (R : Store → Store → Prop) {α : Type} (run : Run α) : Prop :=
  ∀ store : Store, R store (run.from? store).2

namespace Run

variable {α β : Type}

section

variable {law : Law} [law.Composes]

/-! ## Putting runs together -/

theorem obeys_pure (a : α) : (pure a : Run α).Obeys law := Law.Composes.pure a

theorem obeys_fail (fault : Fault) : (fail fault : Run α).Obeys law := Law.Composes.fail fault

theorem obeys_outOfFuel : (throw .outOfFuel : Run α).Obeys law := Law.Composes.outOfFuel

theorem obeys_view {f : Store → α} (unseeing : Store.Unseeing f) : (view f).Obeys law := Law.Composes.view unseeing

theorem obeys_sequence (id : SequenceId) : (sequence id).Obeys law := obeys_view fun _ => rfl

theorem obeys_list (id : ListId) : (list id).Obeys law := obeys_view fun _ => rfl

theorem obeys_plain (v : Value) : (plain v).Obeys law := obeys_view fun _ => by cases v <;> rfl

theorem obeys_typeName (v : Value) : (typeName v).Obeys law := obeys_view (Store.unseeing_typeName v)

theorem obeys_ofExcept (result : Except Fault α) : (ofExcept result).Obeys law := by
  cases result with
  | ok a => exact obeys_pure a
  | error fault => exact obeys_fail fault

theorem Obeys.bind {run : Run α} {next : α → Run β} (obeys : run.Obeys law) (rest : ∀ a, (next a).Obeys law) :
    (run >>= next).Obeys law :=
  fun store => Law.Composes.bind (obeys store) fun a left _ => rest a left

omit [law.Composes] in
theorem Obeys.ite {c : Prop} [Decidable c] {run other : Run α} (obeys : run.Obeys law) (obeys' : other.Obeys law) :
    (if c then run else other).Obeys law := by
  split
  · exact obeys
  · exact obeys'

/-- What may fail before the rest obeys a law if the rest does. -/
theorem Obeys.unless {c : Prop} [Decidable c] {fault : Fault} {rest : Run α} (obeys : rest.Obeys law) :
    (if c then fail fault >>= fun _ : Unit => rest else rest).Obeys law :=
  .ite ((obeys_fail fault).bind fun _ => obeys) obeys

theorem Obeys.onFault {run : Run α} {handler : Fault → Run α} (obeys : run.Obeys law)
    (handled : ∀ fault, (handler fault).Obeys law) : (onFault run handler).Obeys law :=
  fun store => Law.Composes.onFault (obeys store) fun fault left _ => handled fault left

theorem Obeys.map {run : Run α} (obeys : run.Obeys law) (f : α → β) : (f <$> run).Obeys law :=
  obeys.bind fun a => obeys_pure (f a)

theorem obeys_failMissing (v : Value) (name : String) : (failMissing v name : Run α).Obeys law :=
  (obeys_view (Store.unseeing_ownerName v)).bind fun _ => obeys_fail _

theorem obeys_sequenceFor (name : String) (v : Value) : (sequenceFor name v).Obeys law := by
  unfold sequenceFor
  split
  · exact obeys_pure _
  · exact obeys_failMissing v name

/-! ## Checking -/

theorem obeys_flagOf (multiValue : Value) : (flagOf multiValue).Obeys law := by
  unfold flagOf
  split
  · exact obeys_pure _
  · exact (obeys_typeName _).bind fun _ => obeys_fail _

theorem obeys_isCount (v : Value) : (isCount v).Obeys law := by
  refine (obeys_plain v).bind fun held => ?_
  cases held.integer? with
  | none => exact obeys_pure _
  | some n => exact obeys_pure _

/-- Whether something can be iterated does not depend on where streams are. -/
theorem obeys_isIterable (data : Value) : (view (·.isIterable data)).Obeys law :=
  obeys_view fun _ => by
    cases data with
    | object ref => cases ref <;> rfl
    | _ => rfl

theorem obeys_isCallable (data : Value) : (view (·.isCallable data)).Obeys law :=
  obeys_view fun _ => by
    cases data with
    | object ref => cases ref <;> rfl
    | _ => rfl

/-- Asking for a length changes nothing. -/
theorem obeys_lengthOf (v : Value) : (lengthOf v).Obeys law := by
  have word : ∀ n, (wordLength n).Obeys law := fun n => .ite (obeys_fail _) (obeys_pure _)
  unfold lengthOf
  split
  · exact (obeys_list _).bind fun _ => obeys_pure _
  · refine (obeys_view fun _ => rfl).bind fun source => ?_
    split
    · exact obeys_pure _
    · exact obeys_fail _
    · exact .unless (.unless (obeys_pure _))
  · refine (obeys_plain _).bind fun held => ?_
    split
    · exact obeys_pure _
    · exact word _

end

section

variable {law : Law} [law.Makes]

/-! ## Making sequences -/

theorem obeys_newIterable (data multiValue : Value) : (newIterable data multiValue).Obeys law :=
  (obeys_flagOf multiValue).bind fun _ => (obeys_isIterable data).bind fun _ =>
    .ite (Law.Makes.newSequence _ _) ((obeys_typeName _).bind fun _ => obeys_fail _)

theorem obeys_newProduced (factory multiValue size : Value) : (newProduced factory multiValue size).Obeys law := by
  refine (obeys_flagOf multiValue).bind fun multi => (obeys_isCallable factory).bind fun callable => ?_
  have sized : ∀ result : Unit, (do
      if !(size.isNull || (← isCount size)) then fail (.badSize (← view (·.shown size)))
      newSequence { body := .produced factory size none, multiValue := multi } : Run SequenceId).Obeys law := fun _ =>
    (obeys_isCount size).bind fun count =>
      .ite ((obeys_view (Store.unseeing_shown size)).bind fun _ => (obeys_fail _).bind fun _ =>
        Law.Makes.newSequence _ _) (Law.Makes.newSequence _ _)
  exact .ite ((obeys_typeName _).bind fun _ => (obeys_fail _).bind sized) (sized ())

/-- Taking data for a sequence adds one at most. -/
theorem obeys_toSequence (data multiValue : Value) : (toSequence data multiValue).Obeys law := by
  unfold toSequence
  split
  · exact obeys_pure _
  · refine (obeys_isIterable _).bind fun iterable => .ite (obeys_newIterable data multiValue) ?_
    exact (obeys_isCallable _).bind fun callable => .ite (obeys_newProduced data multiValue .null)
      ((obeys_typeName _).bind fun _ => obeys_fail _)

/-! ## Making steps and pipelines -/

theorem obeys_newAbstract (multiValue : Value) : (newAbstract multiValue).Obeys law :=
  (obeys_flagOf multiValue).bind fun _ => Law.Makes.newSequence _ _

theorem obeys_shared (v : Value) : (shared v).Obeys law := by
  unfold shared
  split
  · exact (Law.Makes.newList _).bind fun _ => obeys_pure _
  · exact obeys_pure _

theorem obeys_isStep (v : Value) : (view (·.isStep v)).Obeys law :=
  obeys_view fun _ => by
    cases v with
    | object ref => cases ref <;> rfl
    | _ => rfl

theorem obeys_checkSteps (steps : List Value) : (checkSteps steps).Obeys law := by
  induction steps with
  | nil => exact obeys_pure ()
  | cons step rest ih => exact (obeys_isStep step).bind fun _ => .ite ih ((obeys_typeName _).bind fun _ => obeys_fail _)

theorem obeys_newDistinctStep (adds : ∀ step, (newStep step).Obeys law) (key limit : Value) :
    (newDistinctStep key limit).Obeys law := by
  refine (obeys_isCallable key).bind fun callable => ?_
  have limited : ∀ result : Unit, (do
      if !(← isCount limit) then fail (.badLimit (← view (·.shown limit)))
      newStep (.distinct key limit) : Run StepId).Obeys law := fun _ =>
    (obeys_isCount limit).bind fun count =>
      .ite ((obeys_view (Store.unseeing_shown _)).bind fun _ => (obeys_fail _).bind fun _ => adds _) (adds _)
  exact .ite ((obeys_typeName _).bind fun _ => (obeys_fail _).bind limited) (limited ())

theorem obeys_newPipeline (steps input multiValue : Value) : (newPipeline steps input multiValue).Obeys law := by
  refine (obeys_shared steps).bind fun held => ?_
  split
  · exact (obeys_list _).bind fun _ => (obeys_checkSteps _).bind fun _ => (obeys_flagOf multiValue).bind fun _ =>
      Law.Makes.newSequence _ _
  · exact (obeys_typeName _).bind fun _ => obeys_fail _

theorem obeys_part? (v : Value) : (part? v).Obeys law := by
  unfold part?
  split
  · refine (obeys_view fun _ => rfl).bind fun step => ?_
    split <;> exact obeys_pure _
  · refine (obeys_sequence _).bind fun state => ?_
    split <;> exact obeys_pure _
  · exact obeys_pure _

theorem obeys_stepsOf (v : Value) : (stepsOf v).Obeys law := by
  refine (obeys_part? v).bind fun part => ?_
  split
  · exact .ite (obeys_list _) (obeys_fail _)
  · exact obeys_pure _

theorem obeys_joinAfter (first : Value) (part : Part) (second : Value) : (joinAfter first part second).Obeys law := by
  cases part with
  | link => exact obeys_fail _
  | step => exact (obeys_stepsOf second).bind fun _ => obeys_newPipeline _ _ _
  | pipeline steps input multi =>
    exact (obeys_stepsOf second).bind fun _ => (obeys_list _).bind fun _ => obeys_newPipeline _ _ _

theorem obeys_bindInput (v : Value) (part : Part) (data : Value) (multiValue : Option Value) :
    (bindInput v part data multiValue).Obeys law := by
  cases part with
  | link => exact obeys_fail _
  | step => exact obeys_newPipeline _ _ _
  | pipeline steps input multi => exact .unless (obeys_newPipeline _ _ _)

/-- Joining two values. -/
theorem obeys_join (left right : Value) : (join left right).Obeys law := by
  refine (obeys_part? left).bind fun part => ?_
  split
  · exact obeys_joinAfter left _ right
  · refine (obeys_part? right).bind fun part => ?_
    split
    · exact obeys_bindInput right _ left none
    · exact (obeys_typeName _).bind fun _ => (obeys_typeName _).bind fun _ => obeys_fail _

theorem obeys_joinThen (first second : Value) : (joinThen first second).Obeys law := by
  refine (obeys_part? first).bind fun part => ?_
  split
  · exact obeys_joinAfter first _ second
  · exact obeys_failMissing _ _

/-- Binding a part of a chain to data. -/
theorem obeys_withInput (v data : Value) (multiValue : Option Value) : (withInput v data multiValue).Obeys law := by
  refine (obeys_part? v).bind fun part => ?_
  split
  · exact obeys_bindInput v _ data multiValue
  · exact obeys_failMissing _ _

end

/-! ## What runs keep -/

section

variable {R : Store → Store → Prop} [IsPreorder Store R]

/-- What follows a run needs to keep a relation only where the run can have led. -/
theorem keeps_bind_at {run : Run α} {next : α → Run β} {store : Store} (first : R store (run.from? store).2)
    (rest : ∀ a left, run.from? store = (.ok a, left) → R left ((next a).from? left).2) :
    R store ((run >>= next).from? store).2 := by
  rw [from?_bind]
  rcases ends : run.from? store with ⟨halt | a, left⟩ <;> rw [ends] at first
  · exact first
  · exact trans_of R first (rest a left ends)

/-- A handler needs to keep a relation only where the run that it handles can have led. -/
theorem keeps_onFault_at {run : Run α} {handler : Fault → Run α} {store : Store} (first : R store (run.from? store).2)
    (handled : ∀ fault left, run.from? store = (.error (.fault fault), left) → R left ((handler fault).from? left).2) :
    R store ((onFault run handler).from? store).2 := by
  rw [from?_onFault]
  rcases ends : run.from? store with ⟨(fault | _) | a, left⟩ <;> rw [ends] at first
  · exact trans_of R first (handled fault left ends)
  · exact first
  · exact first

instance : (Law.keeping R).Composes where
  pure _ store := refl_of R store
  fail _ store := refl_of R store
  outOfFuel store := refl_of R store
  view _ store := refl_of R store
  bind first rest := keeps_bind_at first rest
  onFault first handled := keeps_onFault_at first handled

theorem keeps_pure (a : α) : (pure a : Run α).Keeps R := fun store => refl_of R store

theorem keeps_fail (fault : Fault) : (fail fault : Run α).Keeps R := fun store => refl_of R store

theorem keeps_outOfFuel : (throw .outOfFuel : Run α).Keeps R := fun store => refl_of R store

theorem keeps_view (f : Store → α) : (view f).Keeps R := fun store => refl_of R store

theorem Keeps.bind {run : Run α} {next : α → Run β} (keeps : run.Keeps R) (rest : ∀ a, (next a).Keeps R) :
    (run >>= next).Keeps R :=
  fun store => keeps_bind_at (keeps store) fun a left _ => rest a left

omit [IsPreorder Store R] in
theorem Keeps.ite {c : Prop} [Decidable c] {run other : Run α} (keeps : run.Keeps R) (keeps' : other.Keeps R) :
    (if c then run else other).Keeps R := by
  split
  · exact keeps
  · exact keeps'

theorem Keeps.onFault {run : Run α} {handler : Fault → Run α} (keeps : run.Keeps R)
    (handled : ∀ fault, (handler fault).Keeps R) : (onFault run handler).Keeps R :=
  fun store => keeps_onFault_at (keeps store) fun fault left _ => handled fault left

omit [IsPreorder Store R] in
/-- To keep a relation is a law. -/
theorem Obeys.keeps {run : Run α} (obeys : run.Obeys (.keeping R)) : run.Keeps R := obeys

theorem keeps_sequenceFor (name : String) (v : Value) : (sequenceFor name v).Keeps R :=
  Obeys.keeps (obeys_sequenceFor name v)

end

end Run

/-! ## Operations that call each other -/

namespace Calls

variable {c : Calls}

/-- Whether beginning again, applying steps, and asking for size or for the flag keep a relation. -/
structure Keeps (R : Store → Store → Prop) (c : Calls) : Prop where
  rewind : ∀ id, (c.rewind id).Keeps R
  isMulti : ∀ id, (c.isMulti id).Keeps R
  size : ∀ id, (c.size id).Keeps R
  apply : ∀ step supply, (c.apply step supply).Keeps R

/-- Whether what building a chain may ask for obeys a law: beginning again, applying steps, size and flag. -/
structure Builds (law : Law) (c : Calls) : Prop where
  rewind : ∀ id, (c.rewind id).Obeys law
  isMulti : ∀ id, (c.isMulti id).Obeys law
  size : ∀ id, (c.size id).Obeys law
  apply : ∀ step supply, (c.apply step supply).Obeys law

theorem Keeps.builds {R : Store → Store → Prop} (keeps : c.Keeps R) : c.Builds (.keeping R) :=
  ⟨keeps.rewind, keeps.isMulti, keeps.size, keeps.apply⟩

namespace Builds

open Run

variable {law : Law} [law.Makes] (builds : c.Builds law)
include builds

theorem applyAll (steps : List Value) (supply : Value) : (c.applyAll steps supply).Obeys law := by
  induction steps generalizing supply with
  | nil => exact obeys_pure supply
  | cons step rest ih => exact (builds.apply step supply).bind ih

theorem newDistinct (supply key limit : Value) : (c.newDistinct supply key limit).Obeys law := by
  unfold Calls.newDistinct
  split
  · exact (builds.isMulti _).bind fun _ => Law.Makes.newSequence _ _
  · exact (obeys_typeName _).bind fun _ => obeys_fail _

theorem applyWith (step supply : Value) : (c.applyWith step supply).Obeys law := by
  unfold Calls.applyWith
  split
  · refine (obeys_view fun _ => rfl).bind fun step' => ?_
    split
    · exact (builds.newDistinct supply _ _).bind fun _ => obeys_pure _
    · exact obeys_pure _
    · exact (obeys_newIterable supply _).bind fun _ => obeys_pure _
    · exact obeys_pure _
    · exact obeys_fail _
    · exact obeys_fail _
    · exact obeys_failMissing _ _
  · refine (obeys_sequence _).bind fun state => ?_
    split
    · exact (obeys_list _).bind fun steps => builds.applyAll steps supply
    · exact obeys_failMissing _ _
  · exact obeys_failMissing _ _

/-- Building a chain on data applies steps to one new sequence, or to a sequence that was taken back. -/
theorem build (steps : ListId) (data : Value) (multi : Bool) : (c.build steps data multi).Obeys law :=
  (obeys_toSequence data _).bind fun input => (obeys_sequence _).bind fun _ =>
    .ite ((builds.rewind input).bind fun _ => (obeys_list _).bind fun steps => builds.applyAll steps _)
      ((obeys_list _).bind fun steps => builds.applyAll steps _)

theorem buildFor (id : SequenceId) (given : Value) : (c.buildFor id given).Obeys law := by
  refine (obeys_sequence _).bind fun state => ?_
  split
  · exact (obeys_ofExcept _).bind fun data => builds.build _ data _
  · exact obeys_failMissing _ _

/-- The output of a pipeline is built and kept. -/
theorem outputOf (keeping : ∀ id output, (keepOutput id output).Obeys law) (id : SequenceId) (kept : Value) :
    (c.outputOf id kept).Obeys law :=
  .ite ((builds.buildFor id .null).bind fun _ => (keeping id _).bind fun _ => obeys_pure _) (obeys_pure _)

section

variable (outputs : ∀ id kept, (c.outputOf id kept).Obeys law)
include outputs

theorem isMultiWith (id : SequenceId) : (c.isMultiWith id).Obeys law := by
  refine (obeys_sequence _).bind fun state => ?_
  split
  · exact .ite (obeys_pure _) ((outputs id _).bind fun _ => (obeys_sequenceFor _ _).bind builds.isMulti)
  · exact obeys_pure _

theorem sizeWith (id : SequenceId) : (c.sizeWith id).Obeys law := by
  refine (obeys_sequence _).bind fun state => ?_
  split
  · exact obeys_lengthOf _
  · exact obeys_pure _
  · exact (outputs id _).bind fun _ => (obeys_sequenceFor _ _).bind builds.size
  · exact obeys_pure _
  · exact obeys_pure _
  · exact obeys_pure _

end

end Builds

end Calls

end FirstSeen
