import FirstSeen.Proofs.Atomicity
import FirstSeen.Proofs.Avoiding
import FirstSeen.Proofs.Pouring
import FirstSeen.Proofs.Remaining

/-!
# Streams and collections

A stream is a second way to run a pipeline, put together from other operations than a collection: it sets up what it draws
from when it is first asked, and keeps its own account of where it is. Still a stream that is drained comes to what a
collection from the same store comes to: the same elements or the same fault, in the same store but for the stream itself,
which is over. Up to a fault it hands out what the chain hands out.

The one difference is an end that is signalled while the chain is set up, by the closing of an iterator. It leaves a
collection as it is, and a stream as another fault.

Nobody else refers to the stream while it is drained. So it makes no difference to all that runs beneath that the stream
is being asked.
-/

set_option autoImplicit false

namespace FirstSeen

/-! ## Chains of distinct stages -/

theorem Body.pipeline_of_shape {body : Body} {steps : ListId} {input output : Value}
    (shape : body.shape = (Body.pipeline steps input output).shape) : ∃ kept, body = .pipeline steps input kept := by
  cases body <;> cases shape
  exact ⟨_, rfl⟩

namespace Store

/-- Whether a value removes duplicates where it is applied: it is a distinct step, or a pipeline of such steps. -/
inductive Deduplicates (store : Store) : Value → Prop
  | step {id : StepId} {key limit : Value} (distinct : store.step id = .distinct key limit) :
      Deduplicates store (.object (.step id))
  | pipeline {id : SequenceId} {steps : ListId} {input output : Value}
      (body : (store.sequence id).body = .pipeline steps input output) (listed : steps.index < store.lists.size)
      (each : ∀ step ∈ store.list steps, Deduplicates store step) : Deduplicates store (.ofSequence id)

/-- Whether applying a value to a sequence that was not started, at any later time, gives one that was not started. -/
def Tops (store : Store) (step : Value) : Prop :=
  ∀ {n : Nat} {later after : Store} {supply : SequenceId} {v : Value}, store.Remains later →
    (later.sequence supply).started = false → ((calls n).apply step (.ofSequence supply)).from? later = (.ok v, after) →
    store.Remains after ∧ ∃ top, v = .ofSequence top ∧ (after.sequence top).started = false

/-- Applying such steps in turn. -/
theorem tops_all {store : Store} {steps : List Value} (each : ∀ step ∈ steps, store.Tops step) {n : Nat}
    {later after : Store} {supply : SequenceId} {v : Value} (remains : store.Remains later)
    (fresh : (later.sequence supply).started = false)
    (ends : ((calls n).applyAll steps (.ofSequence supply)).from? later = (.ok v, after)) :
    store.Remains after ∧ ∃ top, v = .ofSequence top ∧ (after.sequence top).started = false := by
  induction steps generalizing later supply with
  | nil =>
    cases ends
    exact ⟨remains, supply, rfl, fresh⟩
  | cons step rest ih =>
    rw [List.forall_mem_cons] at each
    rw [Calls.applyAll] at ends
    rcases applied : ((calls n).apply step (.ofSequence supply)).from? later with ⟨halt | v', left⟩
    · rw [Run.from?_bind_error applied] at ends
      cases ends
    · obtain ⟨remains', top, rfl, fresh'⟩ := each.1 remains fresh applied
      rw [Run.from?_bind_ok applied] at ends
      exact ih each.2 remains' fresh' ends

/-- What is asked for the flag of a sequence leaves what remains of a store. -/
theorem remains_isMulti (n : Nat) (id : SequenceId) (store : Store) :
    store.Remains (((calls n).isMulti id).from? store).2 :=
  ((Calls.leads_calls false .abstract default .null id n).isMulti id store).1

/-- A distinct step makes a new stage. -/
theorem tops_step {store : Store} {id : StepId} {key limit : Value} (distinct : store.step id = .distinct key limit) :
    store.Tops (.object (.step id)) := by
  intro n later after supply v remains fresh ends
  cases n with
  | zero => cases ends
  | succ n =>
    change ((calls n).applyWith (.object (.step id)) (.ofSequence supply)).from? later = _ at ends
    have there : later.step id = .distinct key limit := by rw [Store.step, remains.grows.steps, ← Store.step, distinct]
    rw [Calls.applyWith, Run.from?_bind_ok (Run.from?_view ..), there] at ends
    simp only [Calls.newDistinct] at ends
    have flagged := remains_isMulti n supply later
    rcases asked : ((calls n).isMulti supply).from? later with ⟨halt | multi, left⟩ <;> rw [asked] at flagged
    · rw [Run.from?_bind_error (Run.from?_bind_error asked)] at ends
      cases ends
    · rw [Run.from?_bind_ok ((Run.from?_bind_ok asked).trans (Run.from?_newSequence ..))] at ends
      cases ends
      have led : (Run.newSequence { body := .distinct supply key limit .empty, multiValue := multi }).Keeps
          (Led false .abstract default .null supply) := Run.led_newSequence _
      have made := (led left).1
      refine ⟨(remains.trans flagged).trans made, _, rfl, ?_⟩
      simp [Store.sequence]

/-- A pipeline applies its steps, which are the same at any later time. -/
theorem tops_pipeline {store : Store} {id : SequenceId} {steps : ListId} {input output : Value}
    (body : (store.sequence id).body = .pipeline steps input output) (listed : steps.index < store.lists.size)
    (each : ∀ step ∈ store.list steps, store.Tops step) : store.Tops (.ofSequence id) := by
  intro n later after supply v remains fresh ends
  cases n with
  | zero => cases ends
  | succ n =>
    change ((calls n).applyWith (.ofSequence id) (.ofSequence supply)).from? later = _ at ends
    have inside := sequence_inside body (by simp)
    obtain ⟨kept, there⟩ := Body.pipeline_of_shape ((remains.shape id inside).trans (by rw [body]))
    have held : later.list steps = store.list steps := remains.grows.list listed
    rw [Calls.applyWith, Run.from?_bind_ok (Run.from?_sequence ..), there] at ends
    simp only at ends
    rw [Run.from?_bind_ok (Run.from?_list ..), held] at ends
    exact tops_all each remains fresh ends

theorem Deduplicates.tops {store : Store} {step : Value} (distinct : store.Deduplicates step) : store.Tops step := by
  induction distinct with
  | step distinct => exact tops_step distinct
  | pipeline body listed _ ih => exact tops_pipeline body listed ih

end Store

namespace Calls

open Run Store

/-! ## Setting up -/

/-- A sequence that was taken back was not started. -/
theorem unstarted_rewind {n : Nat} {id : SequenceId} {store after : Store}
    (ends : ((calls n).rewind id).from? store = (.ok (), after)) : (after.sequence id).started = false := by
  cases n with
  | zero => cases ends
  | succ n =>
    change ((calls n).rewindWith id).from? store = _ at ends
    rw [rewindWith, from?_bind] at ends
    rcases reset : ((calls n).reset id).from? store with ⟨halt | _, left⟩ <;> simp only [reset] at ends
    · cases ends
    · rw [from?_bind_ok (from?_updateSequence ..), from?_bind_ok (from?_sequence ..)] at ends
      cases ends
      change (Store.sequence (left.updated id fun state =>
        { state with started := false, exhausted := false, peeked := none }) id).started = false
      by_cases inside : id.index < left.sequences.size
      · rw [sequence_updated inside]
      · rw [sequence_outside (by simpa using inside)]
        rfl

/-- What is built by distinct steps is a sequence that was not started. -/
theorem build_top {n : Nat} {store after : Store} {steps : ListId} {data v : Value} {multi : Bool}
    (listed : steps.index < store.lists.size) (each : ∀ step ∈ store.list steps, store.Deduplicates step)
    (ends : ((calls n).build steps data multi).from? store = (.ok v, after)) :
    ∃ top, v = .ofSequence top ∧ (after.sequence top).started = false := by
  have leads := leads_calls false .abstract default .null ⟨0⟩ n
  have applied : ∀ {input : SequenceId} {later : Store}, store.Remains later → (later.sequence input).started = false →
      (do (calls n).applyAll (← list steps) (.ofSequence input) : Run Value).from? later = (.ok v, after) →
      ∃ top, v = .ofSequence top ∧ (after.sequence top).started = false := by
    intro input later remains fresh ends
    rw [from?_bind_ok (from?_list ..), remains.grows.list listed] at ends
    exact (tops_all (fun step member => (each step member).tops) remains fresh ends).2
  rw [build, from?_bind] at ends
  have obeys : (toSequence data (.bool multi)).Obeys (.keeping (Led false .abstract default .null ⟨0⟩)) :=
    obeys_toSequence data (.bool multi)
  have made := (obeys store).1
  rcases taken : (toSequence data (.bool multi)).from? store with ⟨halt | input, left⟩ <;> simp only [taken] at ends made
  · cases ends
  rw [from?_bind_ok (from?_sequence ..)] at ends
  cases started : (left.sequence input).started with
  | false =>
    simp only [started, Bool.false_eq_true, if_false] at ends
    exact applied made started ends
  | true =>
    simp only [started, if_true] at ends
    have kept := (leads.rewind input left).1
    rcases rewound : ((calls n).rewind input).from? left with ⟨halt | _, again⟩ <;> rw [rewound] at kept
    · rw [from?_bind_error rewound] at ends
      cases ends
    · rw [from?_bind_ok rewound] at ends
      exact applied (made.trans kept) (unstarted_rewind rewound) ends

/-- A collection sets up what it draws from as a stream does, and then gathers all of it. -/
theorem collect_begins {n : Nat} {store : Store} {p : SequenceId} (x : Value)
    (distinct : store.Deduplicates (.ofSequence p)) :
    ((calls n).collect p x).from? store =
      (do let feed ← (calls n).beginStream p x; (calls n).gather feed []).from? store := by
  cases given : x.isNull with
  | true =>
    rw [collect, given, beginStream, given]
    simp only [if_true, force, drain]
    rw [from?_bind_ok (from?_sequence ..), from?_bind, from?_bind_ok (from?_sequence ..)]
    cases (store.sequence p).started with
    | false => rfl
    | true =>
      simp only [if_true]
      rw [from?_bind, from?_bind]
      rcases ((calls n).rewind p).from? store with ⟨halt | _, left⟩ <;> rfl
  | false =>
    rw [collect, given, beginStream, given]
    simp only [Bool.false_eq_true, if_false]
    rw [from?_bind, from?_bind, from?_bind]
    rcases built : ((calls n).buildFor p x).from? store with ⟨halt | v, left⟩
    · rfl
    · cases distinct with
      | @pipeline _ steps input output body listed each =>
        obtain ⟨top, rfl, fresh⟩ : ∃ top, v = .ofSequence top ∧ (left.sequence top).started = false := by
          rw [buildFor, from?_bind_ok (from?_sequence ..), body] at built
          simp only at built
          rw [from?_bind, from?_ofExcept] at built
          rcases chosen : inputOf x input with fault | data <;> simp only [chosen, Except.mapError] at built
          · cases built
          · exact build_top listed each built
        change (force (calls n) top).from? left = ((calls n).gather (.sequence top) []).from? left
        rw [force, from?_bind_ok (from?_sequence ..), fresh]
        rfl

/-! ## What runs beneath a stream -/

/-- Whether a stream was not begun and nothing refers to it. -/
structure Untold (store : Store) (k : CursorId) (p : SequenceId) (x : Value) : Prop where
  fresh : store.cursor k = .streaming p x .fresh
  hides : store.Hides (· = .cursor k)

section

variable {k : CursorId} {p : SequenceId} {x : Value}

/-- A run that does not come to a stream ends alike wherever the stream is. -/
theorem Untold.alike {α : Type} {good : α → Prop} {run : Run α} {store : Store} (untold : Untold store k p x)
    (obeys : run.Obeys (.overlooking k p x)) (heeds : run.Heeds (· = .cursor k) good) :
    Untold (run.from? store).2 k p x ∧ (∀ a, (run.from? store).1 = .ok a → good a) ∧
      ∀ phase, run.from? (store.withStream k p x phase) =
        ((run.from? store).1, (run.from? store).2.withStream k p x phase) := by
  obtain ⟨hides, spared, fine, -⟩ := heeds store untold.hides
  have fresh : (run.from? store).2.cursor k = .streaming p x .fresh := (spared.cursor k rfl).trans untold.fresh
  exact ⟨⟨fresh, hides⟩, fine, fun phase => obeys.overlooks untold.fresh fresh phase⟩

theorem overlooking_calls (k : CursorId) (p : SequenceId) (x : Value) (n : Nat) : (calls n).Obeys (.overlooking k p x) :=
  obeys_calls _ Law.Public.keepOutput n

/-- Drawing for a stream. -/
theorem Untold.draw {store : Store} (untold : Untold store k p x) (n : Nat) {feed : Feed} (apart : feed.ref ≠ .cursor k) :
    Untold (((calls n).draw feed).from? store).2 k p x ∧
      ∀ phase, ((calls n).draw feed).from? (store.withStream k p x phase) =
        ((((calls n).draw feed).from? store).1, (((calls n).draw feed).from? store).2.withStream k p x phase) := by
  obtain ⟨still, -, same⟩ := untold.alike ((overlooking_calls k p x n).draw feed) ((heeds_calls n).draw apart)
  exact ⟨still, same⟩

/-- Setting a stream up. -/
theorem Untold.begin {store : Store} (untold : Untold store k p x) (apart : x.Avoids (· = .cursor k)) (n : Nat) :
    Untold (((calls n).beginStream p x).from? store).2 k p x ∧
      (∀ feed, (((calls n).beginStream p x).from? store).1 = .ok feed → feed.ref ≠ .cursor k) ∧
      ∀ phase, ((calls n).beginStream p x).from? (store.withStream k p x phase) =
        ((((calls n).beginStream p x).from? store).1,
          (((calls n).beginStream p x).from? store).2.withStream k p x phase) :=
  untold.alike ((overlooking_calls k p x n).beginStream p x) ((heeds_calls n).beginStream (by simp) apart)

/-! ## Asking a stream -/

/-- A fault as a stream tells it: its end is the plain one. -/
def plainEnd (fault : Fault) : Fault := if fault.isEnd then .ended else fault

/-- What a stream makes of what it drew. -/
def drawnFor (k : CursorId) (p : SequenceId) (x : Value) (feed : Feed) (drawn : Except Halt Value × Store) :
    Except Halt Value × Store :=
  match drawn with
  | (.ok v, left) => (.ok v, left.withStream k p x (.delegating feed))
  | (.error (.fault fault), left) => (.error (.fault (plainEnd fault)), left.withStream k p x .finished)
  | (.error .outOfFuel, left) => (.error .outOfFuel, left.withStream k p x .running)

/-- Marking where a stream is. -/
theorem from?_mark (store : Store) (phase later : StreamPhase) :
    (setCursor k (.streaming p x later)).from? (store.withStream k p x phase) = (.ok (), store.withStream k p x later) := by
  rw [← withStream_withStream store k p x phase later]
  rfl

theorem drawStream_untold {store : Store} (untold : Untold store k p x) (n : Nat) {feed : Feed}
    (apart : feed.ref ≠ .cursor k) : ((calls n).drawStream k p x feed).from? (store.withStream k p x .running) =
      drawnFor k p x feed (((calls n).draw feed).from? store) := by
  have drawn := (untold.draw n apart).2 .running
  rw [drawStream, from?_bind, from?_onFault, drawn]
  rcases ((calls n).draw feed).from? store with ⟨(fault | _) | v, left⟩
  · simp only [from?_bind_ok (from?_mark left .running .finished)]
    rfl
  · rfl
  · simp only [from?_bind_ok (from?_mark left .running (.delegating feed))]
    rfl

/-- A stream that draws from a feed draws on. -/
theorem advance_delegating {store : Store} (untold : Untold store k p x) (n : Nat) {feed : Feed}
    (apart : feed.ref ≠ .cursor k) :
    ((calls (n + 1)).advance k).from? (store.withStream k p x (.delegating feed)) =
      drawnFor k p x feed (((calls n).draw feed).from? store) := by
  have there : (store.withStream k p x (.delegating feed)).cursor k = .streaming p x (.delegating feed) :=
    cursor_withStream (by rw [untold.fresh]; rfl)
  change ((calls n).advanceWith k).from? _ = _
  rw [advanceWith, from?_bind_ok (from?_cursor ..), there]
  change ((calls n).advanceStream k p x (.delegating feed)).from? _ = _
  rw [advanceStream, from?_bind_ok (from?_mark store _ .running), drawStream_untold untold n apart]

/-- A stream that was not begun sets up what it draws from. -/
theorem advance_fresh {store : Store} (untold : Untold store k p x) (apart : x.Avoids (· = .cursor k)) (n : Nat) :
    ((calls (n + 1)).advance k).from? store =
      match ((calls n).beginStream p x).from? store with
      | (.ok feed, left) => drawnFor k p x feed (((calls n).draw feed).from? left)
      | (.error (.fault fault), left) =>
        (.error (.fault (insteadOfEnd .generatorSignalledEnd fault)), left.withStream k p x .finished)
      | (.error .outOfFuel, left) => (.error .outOfFuel, left.withStream k p x .running) := by
  obtain ⟨still, fine, same⟩ := untold.begin apart n
  change ((calls n).advanceWith k).from? _ = _
  rw [advanceWith, from?_bind_ok (from?_cursor ..), untold.fresh]
  change ((calls n).advanceStream k p x .fresh).from? _ = _
  have running : (setCursor k (.streaming p x .running)).from? store = (.ok (), store.withStream k p x .running) := rfl
  rw [advanceStream, from?_bind_ok running, from?_bind, from?_onFault, same .running]
  rcases begun : ((calls n).beginStream p x).from? store with ⟨(fault | _) | feed, left⟩ <;>
    simp only [begun] at still fine ⊢
  · rw [from?_bind_ok (from?_mark left .running .finished)]
    rfl
  · exact drawStream_untold still n (fine feed rfl)

/-! ## Draining a stream -/

/-- What a stream hands out that draws from a feed, the feed does. -/
theorem Untold.poured {store final : Store} (untold : Untold store k p x) {feed : Feed} (apart : feed.ref ≠ .cursor k)
    {items : List Value} {fault : Fault}
    (pours : Pours (·.advance k) (store.withStream k p x (.delegating feed)) items fault final) :
    ∃ told left, Pours (·.draw feed) store items told left ∧ fault = plainEnd told ∧
      final = left.withStream k p x .finished := by
  generalize start : store.withStream k p x (.delegating feed) = begun at pours
  induction pours generalizing store with
  | @stop _ final fault fails =>
    subst start
    obtain ⟨_ | n, ends⟩ := fails
    · cases ends
    · rw [advance_delegating untold n apart] at ends
      rcases drawn : ((calls n).draw feed).from? store with ⟨(told | _) | v, left⟩ <;> rw [drawn] at ends <;> cases ends
      exact ⟨told, left, .stop ⟨n, drawn⟩, rfl, rfl⟩
  | @more _ _ final v items fault gives _ ih =>
    subst start
    obtain ⟨_ | n, ends⟩ := gives
    · cases ends
    · rw [advance_delegating untold n apart] at ends
      have still := (untold.draw n apart).1
      rcases drawn : ((calls n).draw feed).from? store with ⟨(told | _) | v', left⟩ <;> rw [drawn] at ends still <;>
        cases ends
      obtain ⟨told, last, pours, same, same'⟩ := ih still rfl
      exact ⟨told, last, .more ⟨n, drawn⟩ pours, same, same'⟩

/-- What a feed hands out, a stream does that draws from it. -/
theorem Untold.pours {store left : Store} (untold : Untold store k p x) {feed : Feed} (apart : feed.ref ≠ .cursor k)
    {items : List Value} {told : Fault} (pours : Pours (·.draw feed) store items told left) :
    Pours (·.advance k) (store.withStream k p x (.delegating feed)) items (plainEnd told)
      (left.withStream k p x .finished) := by
  induction pours with
  | @stop store after told fails =>
    obtain ⟨n, drawn⟩ := fails
    refine .stop ⟨n + 1, ?_⟩
    rw [advance_delegating untold n apart, drawn]
    rfl
  | @more store left after v items told gives _ ih =>
    obtain ⟨n, drawn⟩ := gives
    have still := (untold.draw n apart).1
    rw [drawn] at still
    refine .more ?_ (ih still)
    refine ⟨n + 1, ?_⟩
    rw [advance_delegating untold n apart, drawn]
    rfl

/-- A stream that draws from a feed hands out what the feed does. -/
theorem pours_delegating {store final : Store} (untold : Untold store k p x) {feed : Feed} (apart : feed.ref ≠ .cursor k)
    {items : List Value} {fault : Fault} :
    Pours (·.advance k) (store.withStream k p x (.delegating feed)) items fault final ↔
      ∃ told left, Pours (·.draw feed) store items told left ∧ fault = plainEnd told ∧
        final = left.withStream k p x .finished := by
  constructor
  · exact untold.poured apart
  · rintro ⟨told, left, pours, rfl, rfl⟩
    exact untold.pours apart pours

/-- What a stream is set up to draw from is not the stream. -/
theorem Untold.begun {store set : Store} (untold : Untold store k p x) (apart : x.Avoids (· = .cursor k)) {feed : Feed}
    (begun : Comes (·.beginStream p x) store (.ok feed) set) : Untold set k p x ∧ feed.ref ≠ .cursor k := by
  obtain ⟨n, begun⟩ := begun
  obtain ⟨still, fine, -⟩ := untold.begin apart n
  rw [begun] at still fine
  exact ⟨still, fine feed rfl⟩

/-- A stream that is set up is where it would be if it had been drawing. -/
theorem comes_begun {store set final : Store} (untold : Untold store k p x) (apart : x.Avoids (· = .cursor k)) {feed : Feed}
    {ended : Except Fault Value} (begun : Comes (·.beginStream p x) store (.ok feed) set) :
    Comes (·.advance k) store ended final ↔ Comes (·.advance k) (set.withStream k p x (.delegating feed)) ended final := by
  obtain ⟨still, apart'⟩ := untold.begun apart begun
  obtain ⟨n, begun⟩ := begun
  refine (widens_advance k).comes_congr (n := n + 1) fun m deep => ?_
  obtain ⟨m, rfl⟩ : ∃ i, m = i + 1 := ⟨m - 1, by omega⟩
  rw [advance_fresh untold apart, advance_delegating still m apart',
    (widens_beginStream p x).deepen (by omega) (.ok feed) begun]
  rfl

/-- A stream that cannot be set up fails. -/
theorem comes_refused {store left : Store} (untold : Untold store k p x) (apart : x.Avoids (· = .cursor k)) {told : Fault}
    (refused : Comes (·.beginStream p x) store (.error told) left) :
    Comes (·.advance k) store (.error (insteadOfEnd .generatorSignalledEnd told)) (left.withStream k p x .finished) := by
  obtain ⟨n, refused⟩ := refused
  refine ⟨n + 1, ?_⟩
  rw [advance_fresh untold apart, refused]
  rfl

/-- A stream that was asked for its first element was set up, or could not be. -/
theorem begins_of_comes {store final : Store} (untold : Untold store k p x) (apart : x.Avoids (· = .cursor k))
    {ended : Except Fault Value} (comes : Comes (·.advance k) store ended final) :
    ∃ begun left, Comes (·.beginStream p x) store begun left := by
  obtain ⟨_ | n, ends⟩ := comes
  · cases ended <;> cases ends
  · rw [advance_fresh untold apart] at ends
    rcases begun : ((calls n).beginStream p x).from? store with ⟨(told | _) | feed, left⟩ <;> simp only [begun] at ends
    · exact ⟨.error told, left, n, begun⟩
    · cases ended <;> cases ends
    · exact ⟨.ok feed, left, n, begun⟩

/-- A stream that was not begun fails as setting it up fails, or hands out what that comes to. -/
theorem pours_fresh {store final : Store} (untold : Untold store k p x) (apart : x.Avoids (· = .cursor k))
    {items : List Value} {fault : Fault} :
    Pours (·.advance k) store items fault final ↔
      (∃ told left, Comes (·.beginStream p x) store (.error told) left ∧ items = [] ∧
        fault = insteadOfEnd .generatorSignalledEnd told ∧ final = left.withStream k p x .finished) ∨
      ∃ feed begun told left, Comes (·.beginStream p x) store (.ok feed) begun ∧ Pours (·.draw feed) begun items told left ∧
        fault = plainEnd told ∧ final = left.withStream k p x .finished := by
  constructor
  · intro pours
    obtain ⟨ended, next, first⟩ : ∃ ended next, Comes (·.advance k) store ended next := by
      cases pours with
      | stop fails => exact ⟨_, _, fails⟩
      | more gives rest => exact ⟨_, _, gives⟩
    obtain ⟨told | feed, left, begun⟩ := begins_of_comes untold apart first
    · have refused := comes_refused untold apart begun
      cases pours with
      | stop fails =>
        obtain ⟨same, rfl⟩ := (widens_advance k).comes_unique fails refused
        exact .inl ⟨told, left, begun, rfl, Except.error.inj same, rfl⟩
      | more gives rest => cases ((widens_advance k).comes_unique gives refused).1
    · obtain ⟨still, apart'⟩ := untold.begun apart begun
      obtain ⟨told, last, poured, same, same'⟩ := (pours_delegating still apart').mp
        (pours.congr fun _ _ => comes_begun untold apart begun)
      exact .inr ⟨feed, left, told, last, begun, poured, same, same'⟩
  · rintro (⟨told, left, begun, rfl, rfl, rfl⟩ | ⟨feed, set, told, left, begun, poured, rfl, rfl⟩)
    · exact .stop (comes_refused untold apart begun)
    · obtain ⟨still, apart'⟩ := untold.begun apart begun
      exact ((pours_delegating still apart').mpr ⟨told, left, poured, rfl, rfl⟩).congr fun _ _ =>
        (comes_begun untold apart begun).symm

/-! ## Both together -/

/-- A collection fails as setting it up fails, or gathers what that comes to. -/
theorem collect_comes {store left : Store} (distinct : store.Deduplicates (.ofSequence p))
    {collected : Except Fault (List Value)} :
    Comes (·.collect p x) store collected left ↔
      (∃ told, Comes (·.beginStream p x) store (.error told) left ∧ collected = .error told) ∨
      ∃ feed begun items told, Comes (·.beginStream p x) store (.ok feed) begun ∧
        Pours (·.draw feed) begun items told left ∧ collected = gathered [] items told := by
  constructor
  · rintro ⟨n, ends⟩
    simp only [collect_begins x distinct] at ends
    rw [from?_bind] at ends
    rcases begun : ((calls n).beginStream p x).from? store with ⟨(told | _) | feed, set⟩ <;> simp only [begun] at ends
    · cases collected <;> cases ends
      exact .inl ⟨told, ⟨n, begun⟩, rfl⟩
    · cases collected <;> cases ends
    · obtain ⟨items, told, pours, same⟩ := gather_comes.mp ⟨n, ends⟩
      exact .inr ⟨feed, set, items, told, ⟨n, begun⟩, pours, same⟩
  · rintro (⟨told, ⟨n, begun⟩, rfl⟩ | ⟨feed, set, items, told, ⟨n, begun⟩, pours, rfl⟩)
    · refine ⟨n, ?_⟩
      simp only [collect_begins x distinct]
      exact from?_bind_error begun
    · obtain ⟨m, ends⟩ := gather_comes.mpr ⟨items, told, pours, rfl⟩
      refine ⟨max n m, ?_⟩
      simp only [collect_begins x distinct]
      rw [from?_bind_ok ((widens_beginStream p x).deepen (Nat.le_max_left n m) (.ok feed) begun)]
      exact (widens_gather feed []).deepen (Nat.le_max_right n m) _ ends

/-- Taking all elements of a stream gathers what it hands out. -/
theorem listOf_comes {store final : Store} (untold : Untold store k p x) {ended : Except Fault (List Value)} :
    Comes (·.listOf (.ofCursor k)) store ended final ↔
      ∃ items fault, Pours (·.advance k) store items fault final ∧ ended = gathered [] items fault := by
  have gathers : Comes (·.listOf (.ofCursor k)) store ended final ↔ Comes (·.gather (.cursor k) []) store ended final :=
    exists_congr fun n => by rw [from?_listOf_stream untold.fresh]
  exact gathers.trans gather_comes

/-- What is gathered of a stream, which tells each end as the plain one, is what a collection gathers. -/
theorem gathered_plainEnd (items : List Value) (told : Fault) : gathered [] items (plainEnd told) =
    (gathered [] items told).mapError (insteadOfEnd .generatorSignalledEnd) := by
  cases isEnd : told.isEnd with
  | true =>
    rw [gathered, gathered, plainEnd, isEnd]
    rfl
  | false => simp [gathered, plainEnd, isEnd, Except.mapError, insteadOfEnd]

/-- A stream that cannot be set up gives no list. -/
theorem gathered_insteadOfEnd (told : Fault) : gathered [] [] (insteadOfEnd .generatorSignalledEnd told) =
    .error (insteadOfEnd .generatorSignalledEnd told) := by
  cases isEnd : told.isEnd with
  | true =>
    rw [insteadOfEnd, isEnd]
    rfl
  | false => simp [insteadOfEnd, gathered, isEnd]

/-- A stream that is drained comes to what a collection comes to, the exception being an end that is signalled while the
chain is set up: the same elements, or the same fault, and the same store, but that the stream is over. Both set up what
they draw from in the same way, and up to a fault the stream hands out what the collection draws. -/
theorem stream_like_collection {store : Store} (untold : Untold store k p x) (apart : x.Avoids (· = .cursor k))
    (distinct : store.Deduplicates (.ofSequence p)) :
    (∀ ended final, Comes (·.listOf (.ofCursor k)) store ended final ↔
      ∃ collected left, Comes (·.collect p x) store collected left ∧
        ended = collected.mapError (insteadOfEnd .generatorSignalledEnd) ∧ final = left.withStream k p x .finished) ∧
    (∀ collected left, Comes (·.collect p x) store collected left ↔
      (∃ told, Comes (·.beginStream p x) store (.error told) left ∧ collected = .error told) ∨
      ∃ feed begun items told, Comes (·.beginStream p x) store (.ok feed) begun ∧
        Pours (·.draw feed) begun items told left ∧ collected = gathered [] items told) ∧
    ∀ items fault final, Pours (·.advance k) store items fault final ↔
      (∃ told left, Comes (·.beginStream p x) store (.error told) left ∧ items = [] ∧
        fault = insteadOfEnd .generatorSignalledEnd told ∧ final = left.withStream k p x .finished) ∨
      ∃ feed begun told left, Comes (·.beginStream p x) store (.ok feed) begun ∧ Pours (·.draw feed) begun items told left ∧
        fault = plainEnd told ∧ final = left.withStream k p x .finished := by
  refine ⟨fun ended final => ?_, fun _ _ => collect_comes distinct, fun _ _ _ => pours_fresh untold apart⟩
  rw [listOf_comes untold]
  constructor
  · rintro ⟨items, fault, pours, rfl⟩
    rcases (pours_fresh untold apart).mp pours with ⟨told, left, begun, rfl, rfl, rfl⟩ |
      ⟨feed, set, told, left, begun, drawn, rfl, rfl⟩
    · exact ⟨_, left, (collect_comes distinct).mpr (.inl ⟨told, begun, rfl⟩), gathered_insteadOfEnd told, rfl⟩
    · exact ⟨_, left, (collect_comes distinct).mpr (.inr ⟨feed, set, items, told, begun, drawn, rfl⟩),
        gathered_plainEnd items told, rfl⟩
  · rintro ⟨collected, left, comes, rfl, rfl⟩
    rcases (collect_comes distinct).mp comes with ⟨told, begun, rfl⟩ | ⟨feed, set, items, told, begun, drawn, rfl⟩
    · exact ⟨[], _, (pours_fresh untold apart).mpr (.inl ⟨told, left, begun, rfl, rfl, rfl⟩),
        (gathered_insteadOfEnd told).symm⟩
    · exact ⟨items, _, (pours_fresh untold apart).mpr (.inr ⟨feed, set, told, left, begun, drawn, rfl, rfl⟩),
        (gathered_plainEnd items told).symm⟩

end

/-- A pipeline of a step and a nested pipeline, a sequence over a list that was asked for two elements and peeked at, and
a stream of the one on the other. -/
def awaited : Store where
  sequences := #[{ body := .pipeline ⟨0⟩ .null .null }, { body := .pipeline ⟨1⟩ .null .null },
    { body := .iterable (.object (.list ⟨2⟩)) (some (.cursor ⟨0⟩)), started := true, peeked := some (.int 2) }]
  cursors := #[.listing ⟨2⟩ 2 false, .streaming ⟨0⟩ (.ofSequence ⟨2⟩) .fresh]
  lists := #[[.object (.step ⟨0⟩), .ofSequence ⟨1⟩], [.object (.step ⟨0⟩)], [.int 1, .int 2, .int 1]]
  steps := #[.distinct .null (.int 10000)]

theorem untold_awaited : Untold awaited ⟨1⟩ ⟨0⟩ (.ofSequence ⟨2⟩) := by
  refine ⟨rfl, hides_of_each ?_ ?_ nofun ?_ nofun nofun ?_ nofun ?_ nofun nofun⟩
  · rintro (_ | _ | _ | i) there -
    · exact ⟨⟨nofun, by decide, by decide⟩, nofun⟩
    · exact ⟨⟨nofun, by decide, by decide⟩, nofun⟩
    · refine ⟨⟨by decide, by simp [Feed.ref]⟩, ?_⟩
      rintro v ⟨⟩
      exact Value.avoids_of_refs_nil rfl
    · exact absurd there (by simp [awaited])
  · rintro (_ | _ | i) there free
    · exact nofun
    · exact absurd rfl free
    · exact absurd there (by simp [awaited])
  · rintro (_ | _ | _ | i) there -
    · exact of_decide_eq_true (p := ∀ v ∈ awaited.list ⟨0⟩, v.Avoids (· = .cursor ⟨1⟩)) rfl
    · exact of_decide_eq_true (p := ∀ v ∈ awaited.list ⟨1⟩, v.Avoids (· = .cursor ⟨1⟩)) rfl
    · exact of_decide_eq_true (p := ∀ v ∈ awaited.list ⟨2⟩, v.Avoids (· = .cursor ⟨1⟩)) rfl
    · exact absurd there (by simp [awaited])
  · rintro (_ | i) there -
    · exact Value.avoids_of_refs_nil rfl
    · exact absurd there (by simp [awaited])
  · rintro id known
    cases known
    exact Nat.one_lt_two

theorem deduplicates_awaited : awaited.Deduplicates (.ofSequence ⟨0⟩) := by
  have step : awaited.Deduplicates (.object (.step ⟨0⟩)) := .step rfl
  have nested : awaited.Deduplicates (.ofSequence ⟨1⟩) :=
    .pipeline rfl (by decide) (List.forall_mem_singleton.mpr step)
  exact .pipeline rfl (by decide) (List.forall_mem_cons.mpr ⟨step, List.forall_mem_singleton.mpr nested⟩)

/-- The stream takes the sequence back first. -/
theorem stream_like_collection_awaited :
    ∃ items final, Comes (·.listOf (.ofCursor ⟨1⟩)) awaited (.ok items) final ∧
      items.filterMap Value.integer? = [1, 2] := by
  have collects : (((calls 14).collect ⟨0⟩ (.ofSequence ⟨2⟩)).from? awaited).1.map (·.filterMap Value.integer?) =
      .ok [1, 2] := by decide +kernel
  obtain ⟨comes, -, -⟩ := stream_like_collection untold_awaited (by decide) deduplicates_awaited
  rcases ends : ((calls 14).collect ⟨0⟩ (.ofSequence ⟨2⟩)).from? awaited with ⟨halt | items, left⟩ <;> rw [ends] at collects
  · cases collects
  · exact ⟨items, _, (comes _ _).mpr ⟨.ok items, left, ⟨14, ends⟩, rfl, rfl⟩, Except.ok.inj collects⟩

end Calls

end FirstSeen
