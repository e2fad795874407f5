import FirstSeen.Proofs.Accounting
import FirstSeen.Proofs.Sifting

/-!
# Secluded sequences

A sequence is *secluded* by operations that do not pull from it. Only pulling, handing out an element and taking a sequence
back change what it is at, and the operations that spare a sequence, or are orderly for it, pull from it nowhere but where
they hand out an element of it. So what these operations ask of each other on the way to an element, or apart from it, is
what secluded operations ask.

A distinct stage is left as it is by all operations that spare it.
-/

set_option autoImplicit false

namespace FirstSeen

open Run

namespace Calls

/-- Operations that do not pull from a sequence. -/
def secluding (c : Calls) (id : SequenceId) : Calls := { c with pull := Function.update c.pull id (throw .outOfFuel) }

variable {c : Calls} {id : SequenceId}

/-! ## What does not pull from the sequence -/

theorem applyAll_secluding : (c.secluding id).applyAll = c.applyAll := by
  funext steps
  induction steps with
  | nil => rfl
  | cons step rest ih =>
    funext supply
    rw [applyAll, applyAll, ih]
    rfl

theorem buildFor_secluding : (c.secluding id).buildFor = c.buildFor := by
  funext pipeline given
  rw [buildFor, buildFor]
  unfold build
  rw [applyAll_secluding]
  rfl

theorem advanceWith_secluding (cursor : CursorId) : (c.secluding id).advanceWith cursor = c.advanceWith cursor := by
  rw [advanceWith, advanceWith]
  unfold advanceStream beginStream
  rw [buildFor_secluding]
  rfl

/-- Other sequences are pulled from as before. -/
theorem pull_secluding {other : SequenceId} (apart : other ≠ id) : (c.secluding id).pull other = c.pull other :=
  Function.update_of_ne apart ..

theorem nextWith_secluding {other : SequenceId} (apart : other ≠ id) : (c.secluding id).nextWith other = c.nextWith other := by
  rw [nextWith, pull_secluding apart]
  rfl

theorem pullWith_secluding {other : SequenceId} (apart : other ≠ id) : (c.secluding id).pullWith other = c.pullWith other := by
  rw [pullWith, pullWith]
  unfold pullDistinct pullPipeline outputOf
  rw [pull_secluding apart, buildFor_secluding]
  rfl

/-! ## Laws -/

section

variable {law : Law} [law.Ambient] (keeping : ∀ other output, (keepOutput other output).Obeys law)
  (others : ∀ other, other ≠ id → law.Serves other)
include keeping others

/-- Operations that make secluded calls obey a law, with others in one place that do. -/
theorem Obeys.deeper_secluding (obeys : (c.secluding id).Obeys law) {next : Run Value} {rewind : Run Unit}
    (hands : next.Obeys law) (back : rewind.Obeys law) : ((c.deeper.instead id next rewind).secluding id).Obeys law := by
  have builds : c.Builds law := ⟨obeys.rewind, obeys.isMulti, obeys.size, obeys.apply⟩
  have outputs := builds.outputOf keeping
  refine { isMulti := builds.isMultiWith outputs, size := builds.sizeWith outputs, apply := builds.applyWith
           gather := obeys.gatherWith, next := fun other => ?_, pull := fun other => ?_, rewind := fun other => ?_
           advance := fun cursor => ?_ }
  · by_cases same : other = id
    · subst same
      simpa [secluding, instead] using back
    · have taken := (others other same).rewind obeys
      change (c.rewindWith other).Obeys law at taken
      simpa [secluding, instead, same, Calls.deeper] using taken
  · by_cases same : other = id
    · subst same
      simpa [secluding, instead] using hands
    · have asked := (others other same).next obeys
      rw [nextWith_secluding same] at asked
      simpa [secluding, instead, same, Calls.deeper] using asked
  · by_cases same : other = id
    · subst same
      simpa [secluding] using obeys_outOfFuel
    · have pulled := obeys.pullWith (obeys.toBuilds.outputOf keeping) (others other same).toFills
      rw [pullWith_secluding same] at pulled
      simpa [secluding, instead, same, Calls.deeper] using pulled
  · have moved := obeys.advanceWith cursor
    rwa [advanceWith_secluding] at moved

omit [law.Ambient] keeping others in
theorem obeys_refused_secluding [law.Composes] : (refused.secluding id).Obeys law := by
  have same : refused.secluding id = refused :=
    congrArg (fun pull => { refused with pull := pull }) (Function.update_eq_self id refused.pull)
  rw [same]
  exact obeys_refused

/-- All operations that spare a sequence and seclude it obey a law, whatever the sequence does. -/
theorem obeys_sparing_secluding (n : Nat) : ((sparing id n).secluding id).Obeys law := by
  induction n with
  | zero => exact obeys_refused_secluding
  | succ n ih => exact ih.deeper_secluding keeping others obeys_outOfFuel obeys_outOfFuel

/-- All orderly operations that seclude a sequence obey a law, if handing out an element of it does where nothing else is
done to it, and taking it back in order. -/
theorem obeys_orderly_secluding (hands : ∀ n, ((sparing id n).nextWith id).Obeys law)
    (back : ∀ n, ((orderly id n).rewindWith id).Obeys law) (n : Nat) : ((orderly id n).secluding id).Obeys law := by
  induction n with
  | zero => exact obeys_refused_secluding
  | succ n ih => exact ih.deeper_secluding keeping others (hands n) (back n)

end

end Calls

/-! ## Programs -/

variable {α : Type} {operation : Calls → Run α} {id : SequenceId}

/-- What is asked does not pull. -/
theorem Asked.secluding (asked : Asked operation) (c : Calls) : operation (c.secluding id) = operation c := by
  cases asked with
  | collect pipeline input =>
    change Calls.collect _ pipeline input = c.collect pipeline input
    rw [Calls.collect, Calls.buildFor_secluding]
    rfl
  | _ => rfl

/-- A program does the same with operations that seclude a sequence. -/
theorem Program.secluding (program : Program operation) (c : Calls) : operation (c.secluding id) = operation c := by
  induction program with
  | own => rfl
  | ask asked => exact asked.secluding c
  | bind _ _ ih ih' => simp only [ih, ih']
  | handle _ _ ih ih' => simp only [ih, ih']

/-! ## Distinct stages -/

/-- The account that a distinct stage is left as it is. -/
def Account.untouched : Account := fun state _ next => state.body.kind = .distinct → next = state

instance (id : SequenceId) : Account.untouched.Open id where
  refl _ _ := rfl
  trans first second distinct := by
    obtain rfl := first distinct
    exact second distinct
  aside _ _ _ _ := rfl
  fresh _ _ distinct := by cases distinct
  output _ form distinct := by
    rw [form] at distinct
    cases distinct

namespace Calls

open Store

variable {stage : SequenceId}

theorem obeys_untouched (stage : SequenceId) (n : Nat) :
    ((sparing stage n).secluding stage).Obeys (.keeping (Accords .untouched stage)) :=
  @obeys_sparing_secluding stage (.keeping (Accords .untouched stage)) _ accords_keepOutput
    (fun _ apart => (accords_moves apart).serves) n

/-- A round of a stage that is spared leaves the stage as it is. -/
theorem sequence_round {store : Store} (distinct : (store.sequence stage).body.kind = .distinct) (supply : SequenceId)
    (key : Value) (multi : Bool) (n : Nat) :
    (((sparing stage n).round supply key multi).from? store).2.sequence stage = store.sequence stage := by
  have obeys := obeys_untouched stage n
  have round : Run.Obeys (.keeping (Accords .untouched stage)) ((sparing stage n).round supply key multi) :=
    (obeys.next supply).bind fun element => (obeys.keyFor key multi element).bind fun _ => obeys_pure _
  obtain ⟨-, _, -, same⟩ := round store
  exact same distinct

end Calls

end FirstSeen
