import FirstSeen.Proofs.Outcome
import FirstSeen.Traversal

/-!
# Deeper calls

A run that ends within a bound on nested calls ends in the same way within any greater bound. So an operation either
ends in one way from a store, at every depth that is enough, or ends at no depth.
-/

set_option autoImplicit false

namespace FirstSeen

namespace Run

variable {α β : Type}

/-- Whether a run, unless it runs out of fuel, ends as a wider one does. -/
def Within (run wider : Run α) : Prop :=
  ∀ store : Store, (run.from? store).1 = .error .outOfFuel ∨ wider.from? store = run.from? store

theorem within_refl (run : Run α) : run.Within run := fun _ => .inr rfl

theorem within_outOfFuel (wider : Run α) : (throw .outOfFuel : Run α).Within wider := fun _ => .inl rfl

theorem Within.bind {run wider : Run α} {next next' : α → Run β} (first : run.Within wider)
    (rest : ∀ a, (next a).Within (next' a)) : (run >>= next).Within (wider >>= next') := by
  intro store
  rcases first store with spent | same
  · exact .inl (halts_bind spent)
  · rcases ends : run.from? store with ⟨halt | a, left⟩
    · exact .inr (by rw [from?_bind_error ends, from?_bind_error (same.trans ends)])
    · rw [from?_bind_ok ends, from?_bind_ok (same.trans ends)]
      exact rest a left

/-- What follows the same run. -/
theorem within_bind {run : Run α} {next next' : α → Run β} (rest : ∀ a, (next a).Within (next' a)) :
    (run >>= next).Within (run >>= next') :=
  (within_refl run).bind rest

theorem Within.onFault {run wider : Run α} {handler handler' : Fault → Run α} (first : run.Within wider)
    (handled : ∀ fault, (handler fault).Within (handler' fault)) :
    (onFault run handler).Within (onFault wider handler') := by
  intro store
  rw [from?_onFault, from?_onFault]
  rcases first store with spent | same
  · rcases ends : run.from? store with ⟨ended, left⟩
    rw [ends] at spent
    obtain rfl : ended = .error .outOfFuel := spent
    exact .inl rfl
  · rw [same]
    rcases run.from? store with ⟨(fault | _) | a, left⟩
    · exact handled fault left
    · exact .inr rfl
    · exact .inr rfl

theorem Within.map {run wider : Run α} (first : run.Within wider) (f : α → β) : (f <$> run).Within (f <$> wider) :=
  first.bind fun a => within_refl (pure (f a))

theorem Within.ite {c : Prop} [Decidable c] {run wider other other' : Run α} (first : run.Within wider)
    (second : other.Within other') : (if c then run else other).Within (if c then wider else other') := by
  split
  · exact first
  · exact second

/-- What ends with an answer or a fault ends so in a wider run. -/
theorem Within.ends {run wider : Run α} (within : run.Within wider) (ended : Except Fault α) {store after : Store}
    (ends : run.from? store = (ended.mapError .fault, after)) : wider.from? store = (ended.mapError .fault, after) := by
  rcases within store with spent | same
  · rw [ends] at spent
    cases ended <;> cases spent
  · exact same.trans ends

end Run

namespace Calls

open Run

/-- Whether all operations, unless they run out of fuel, end as wider ones do. -/
structure Within (c wider : Calls) : Prop where
  next : ∀ id, (c.next id).Within (wider.next id)
  pull : ∀ id, (c.pull id).Within (wider.pull id)
  rewind : ∀ id, (c.rewind id).Within (wider.rewind id)
  isMulti : ∀ id, (c.isMulti id).Within (wider.isMulti id)
  size : ∀ id, (c.size id).Within (wider.size id)
  apply : ∀ step supply, (c.apply step supply).Within (wider.apply step supply)
  advance : ∀ id, (c.advance id).Within (wider.advance id)
  gather : ∀ feed earlier, (c.gather feed earlier).Within (wider.gather feed earlier)

namespace Within

variable {c wider : Calls} (within : c.Within wider)
include within

/-! ## Drawing and gathering -/

theorem draw (feed : Feed) : (c.draw feed).Within (wider.draw feed) := by
  cases feed with
  | cursor id => exact within.advance id
  | sequence id => exact within.next id

theorem gatherWith (feed : Feed) (earlier : List Value) :
    (c.gatherWith feed earlier).Within (wider.gatherWith feed earlier) := by
  refine (((within.draw feed).map some).onFault fun _ => within_refl _).bind fun drawn => ?_
  cases drawn with
  | some v => exact within.gather feed _
  | none => exact within_refl _

theorem listOf (v : Value) : (c.listOf v).Within (wider.listOf v) :=
  within_bind fun feed => within_bind fun _ => within.gather feed []

theorem itemsOf? (v : Value) : (c.itemsOf? v).Within (wider.itemsOf? v) := by
  unfold Calls.itemsOf?
  split
  · exact within_refl _
  · exact within_refl _
  · exact within_bind fun _ => ((within.listOf _).map _).ite (within_refl _)
  · exact within_refl _

/-! ## Sequences -/

theorem nextWith (id : SequenceId) : (c.nextWith id).Within (wider.nextWith id) := by
  refine within_bind fun state => ?_
  split
  · exact within_refl _
  · refine .ite (within_bind fun _ => within_bind fun _ => ?_) (within_bind fun _ => ?_) <;>
      exact (within.pull id).onFault fun _ => within_refl _

theorem pullIterable (id : SequenceId) (data : Value) (feed : Option Feed) :
    (c.pullIterable id data feed).Within (wider.pullIterable id data feed) := by
  cases feed with
  | some feed => exact within.draw feed
  | none => exact within_bind fun feed => within_bind fun _ => within.draw feed

theorem pullProduced (id : SequenceId) (factory size : Value) (feed : Option Feed) :
    (c.pullProduced id factory size feed).Within (wider.pullProduced id factory size feed) := by
  cases feed with
  | some feed => exact within.draw feed
  | none => exact within_bind fun _ => within_bind fun _ => within_bind fun feed => within_bind fun _ => within.draw feed

theorem keyFor (key : Value) (multi : Bool) (element : Value) :
    (c.keyFor key multi element).Within (wider.keyFor key multi element) := by
  have called : (c.callKeyOn key multi element).Within (wider.callKeyOn key multi element) :=
    .ite ((within.itemsOf? element).bind fun _ => within_refl _) (within_refl _)
  exact .ite (within_refl _) (called.onFault fun _ => within_refl _)

theorem pullDistinct (id supply : SequenceId) (key : Value) (multi : Bool) :
    (c.pullDistinct id supply key multi).Within (wider.pullDistinct id supply key multi) :=
  (within.next supply).bind fun element => (within.keyFor key multi element).bind fun _ =>
    within_bind fun _ => .ite (within_refl _) (within.pull id)

theorem reset (id : SequenceId) : (c.reset id).Within (wider.reset id) := by
  refine within_bind fun state => ?_
  split
  · exact within_refl _
  · exact within_refl _
  · exact within_refl _
  · exact within_refl _
  · exact (within.rewind _).bind fun _ => within_refl _
  · exact .ite (within_refl _) (within_bind within.rewind)

theorem rewindWith (id : SequenceId) : (c.rewindWith id).Within (wider.rewindWith id) :=
  (within.reset id).bind fun _ => within_refl _

/-! ## Building -/

theorem applyAll (steps : List Value) (supply : Value) : (c.applyAll steps supply).Within (wider.applyAll steps supply) := by
  induction steps generalizing supply with
  | nil => exact within_refl _
  | cons step rest ih => exact (within.apply step supply).bind ih

theorem newDistinct (supply key limit : Value) :
    (c.newDistinct supply key limit).Within (wider.newDistinct supply key limit) := by
  unfold Calls.newDistinct
  split
  · exact (within.isMulti _).bind fun _ => within_refl _
  · exact within_refl _

theorem applyWith (step supply : Value) : (c.applyWith step supply).Within (wider.applyWith step supply) := by
  unfold Calls.applyWith
  split
  · refine within_bind fun step' => ?_
    split
    · exact (within.newDistinct supply _ _).bind fun _ => within_refl _
    all_goals exact within_refl _
  · refine within_bind fun state => ?_
    split
    · exact within_bind fun steps => within.applyAll steps supply
    · exact within_refl _
  · exact within_refl _

theorem build (steps : ListId) (data : Value) (multi : Bool) :
    (c.build steps data multi).Within (wider.build steps data multi) :=
  within_bind fun input => within_bind fun _ =>
    .ite ((within.rewind input).bind fun _ => within_bind fun steps => within.applyAll steps _)
      (within_bind fun steps => within.applyAll steps _)

theorem buildFor (id : SequenceId) (given : Value) : (c.buildFor id given).Within (wider.buildFor id given) := by
  refine within_bind fun state => ?_
  split
  · exact within_bind fun data => within.build _ data _
  · exact within_refl _

theorem outputOf (id : SequenceId) (kept : Value) : (c.outputOf id kept).Within (wider.outputOf id kept) :=
  .ite ((within.buildFor id .null).bind fun _ => within_refl _) (within_refl _)

theorem pullPipeline (id : SequenceId) (kept : Value) : (c.pullPipeline id kept).Within (wider.pullPipeline id kept) :=
  (within.outputOf id kept).bind fun _ => within_bind within.next

theorem isMultiWith (id : SequenceId) : (c.isMultiWith id).Within (wider.isMultiWith id) := by
  refine within_bind fun state => ?_
  split
  · exact .ite (within_refl _) ((within.outputOf id _).bind fun _ => within_bind within.isMulti)
  · exact within_refl _

theorem sizeWith (id : SequenceId) : (c.sizeWith id).Within (wider.sizeWith id) := by
  refine within_bind fun state => ?_
  split
  · exact within_refl _
  · exact within_refl _
  · exact (within.outputOf id _).bind fun _ => within_bind within.size
  all_goals exact within_refl _

theorem pullWith (id : SequenceId) : (c.pullWith id).Within (wider.pullWith id) := by
  refine within_bind fun state => ?_
  split
  · exact within_refl _
  · exact within.pullIterable id _ _
  · exact within.pullProduced id _ _ _
  · exact within.pullDistinct id _ _ _
  · exact within.pullPipeline id _
  · exact within.advance _

/-! ## Streams -/

theorem beginStream (pipeline : SequenceId) (input : Value) :
    (c.beginStream pipeline input).Within (wider.beginStream pipeline input) :=
  .ite (within_bind fun _ => .ite ((within.rewind pipeline).bind fun _ => within_refl _) (within_refl _))
    ((within.buildFor pipeline input).bind fun _ => within_refl _)

theorem drawStream (id : CursorId) (pipeline : SequenceId) (input : Value) (feed : Feed) :
    (c.drawStream id pipeline input feed).Within (wider.drawStream id pipeline input feed) :=
  ((within.draw feed).onFault fun _ => within_refl _).bind fun _ => within_refl _

theorem advanceStream (id : CursorId) (pipeline : SequenceId) (input : Value) (phase : StreamPhase) :
    (c.advanceStream id pipeline input phase).Within (wider.advanceStream id pipeline input phase) := by
  cases phase with
  | finished | running => exact within_refl _
  | delegating feed => exact within_bind fun _ => within.drawStream id pipeline input feed
  | fresh =>
    exact within_bind fun _ => ((within.beginStream pipeline input).onFault fun _ => within_refl _).bind fun feed =>
      within.drawStream id pipeline input feed

theorem advanceWith (id : CursorId) : (c.advanceWith id).Within (wider.advanceWith id) := by
  refine within_bind fun cursor => ?_
  cases cursor with
  | streaming pipeline input phase => exact within.advanceStream id pipeline input phase
  | _ => exact within_refl _

/-! ## Taking all elements -/

/-- Looking ahead is asking for an element. -/
theorem peek (id : SequenceId) : (c.peek id).Within (wider.peek id) := by
  refine within_bind fun state => ?_
  split
  · exact within_refl _
  · exact (within.next id).bind fun _ => within_refl _

theorem force (id : SequenceId) : (c.force id).Within (wider.force id) :=
  within_bind fun _ => .ite ((within.rewind id).bind fun _ => within.gather _ _) (within.gather _ _)

theorem collect (id : SequenceId) (input : Value) : (c.collect id input).Within (wider.collect id input) :=
  .ite (within.force id) ((within.buildFor id input).bind fun _ => within_bind within.force)

end Within

/-- A wider bound on the depth of calls changes nothing for what ends. -/
theorem within_calls {n m : Nat} (deep : n ≤ m) : (calls n).Within (calls m) := by
  induction n generalizing m with
  | zero => constructor <;> intros <;> exact within_outOfFuel _
  | succ n ih =>
    obtain ⟨m, rfl⟩ : ∃ m', m = m' + 1 := ⟨m - 1, by omega⟩
    have within : (calls n).Within (calls m) := ih (by omega)
    exact {
      next := within.nextWith
      pull := within.pullWith
      rewind := within.rewindWith
      isMulti := within.isMultiWith
      size := within.sizeWith
      apply := within.applyWith
      advance := within.advanceWith
      gather := within.gatherWith }

/-! ## How operations end -/

section

variable {α : Type}

/-- Whether an operation ends in this way from a store, given enough depth of calls. -/
def Comes (operation : Calls → Run α) (store : Store) (ended : Except Fault α) (after : Store) : Prop :=
  ∃ n, (operation (calls n)).from? store = (ended.mapError .fault, after)

/-- Whether an operation ends as it does with wider operations. -/
def Widens (operation : Calls → Run α) : Prop :=
  ∀ c wider : Calls, c.Within wider → (operation c).Within (operation wider)

/-- What ends at one depth of calls ends so at any greater depth. -/
theorem Widens.deepen {operation : Calls → Run α} (widens : Widens operation) {n m : Nat} (deep : n ≤ m)
    (ended : Except Fault α) {store after : Store}
    (ends : (operation (calls n)).from? store = (ended.mapError .fault, after)) :
    (operation (calls m)).from? store = (ended.mapError .fault, after) :=
  (widens _ _ (within_calls deep)).ends ended ends

/-- Faults that halt are told apart as faults. -/
theorem mapError_fault_inj {ended ended' : Except Fault α}
    (same : ended.mapError Halt.fault = ended'.mapError Halt.fault) : ended = ended' := by
  cases ended <;> cases ended' <;> cases same <;> rfl

/-- An operation ends in one way, whatever the depth of calls. -/
theorem Widens.comes_unique {operation : Calls → Run α} (widens : Widens operation) {store after after' : Store}
    {ended ended' : Except Fault α} (comes : Comes operation store ended after)
    (comes' : Comes operation store ended' after') : ended = ended' ∧ after = after' := by
  obtain ⟨n, ends⟩ := comes
  obtain ⟨m, ends'⟩ := comes'
  have same := (widens.deepen (Nat.le_max_left n m) _ ends).symm.trans (widens.deepen (Nat.le_max_right n m) _ ends')
  rw [Prod.mk.injEq] at same
  exact ⟨mapError_fault_inj same.1, same.2⟩

/-- An operation that ends alike from two stores, once the depth of calls is enough, comes to the same from both. -/
theorem Widens.comes_congr {operation : Calls → Run α} (widens : Widens operation) {n : Nat} {store store' after : Store}
    {ended : Except Fault α}
    (same : ∀ m, n ≤ m → (operation (calls m)).from? store = (operation (calls m)).from? store') :
    Comes operation store ended after ↔ Comes operation store' ended after := by
  constructor
  · rintro ⟨m, ends⟩
    exact ⟨max n m, same _ (Nat.le_max_left ..) ▸ widens.deepen (Nat.le_max_right n m) _ ends⟩
  · rintro ⟨m, ends⟩
    exact ⟨max n m, (same _ (Nat.le_max_left ..)).symm ▸ widens.deepen (Nat.le_max_right n m) _ ends⟩

theorem widens_draw (feed : Feed) : Widens (·.draw feed) := fun _ _ within => within.draw feed

theorem widens_gather (feed : Feed) (earlier : List Value) : Widens (·.gather feed earlier) :=
  fun _ _ within => within.gather feed earlier

theorem widens_beginStream (pipeline : SequenceId) (input : Value) : Widens (·.beginStream pipeline input) :=
  fun _ _ within => within.beginStream pipeline input

theorem widens_advance (id : CursorId) : Widens (·.advance id) := fun _ _ within => within.advance id

end

end Calls

end FirstSeen
