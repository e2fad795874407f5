import FirstSeen.Proofs.Atomicity
import FirstSeen.Proofs.Pouring
import FirstSeen.Proofs.Representing
import FirstSeen.Proofs.Requesting
import FirstSeen.Proofs.Secluding
import FirstSeen.Proofs.Turning

/-!
# What a stage remembers

The elements that pulling from a distinct stage gave since its beginning, each with its key, are the *emitted* ones. They are
told by pulling with the key along, which does what pulling does. A stage *lives* on from where it was made or taken back
as it is asked, peeked at, taken back and forced, while anything may happen to the rest of the store.

As long as the end was not met, the seen keys of a stage are those of the emitted elements, each once, those on either side
in a collection of its own; an element that waits is the last that was emitted. At its end, and before the first element,
it remembers nothing. One step of a life at a time is looked at for this.

As in `Turning`, nothing may be done to the stage while an element of it is being handed out. A stage that is spread for its
own key function keeps a key past its end.
-/

set_option autoImplicit false

namespace FirstSeen

/-- An element that pulling from a stage gave, and the contents of its key then. -/
structure Emitted where
  element : Value
  key : Value

namespace Calls

open Run Store

/-! ## The emitted elements -/

/-- Pulls from a stage, and gives the key along with the element. What is no stage has no keys, and each element stands for
its own. -/
def pullKeyed (stage : SequenceId) : (n : Nat) → Run Emitted
  | 0 => throw .outOfFuel
  | n + 1 => do
    let state ← Run.sequence stage
    match state.body with
    | .distinct supply key _ _ =>
      let (element, k) ← (calls n).round supply key state.multiValue
      let held ← Run.contents k
      if ← Run.remember stage k then return ⟨element, held⟩ else pullKeyed stage n
    | _ =>
      let element ← (calls n).pullWith stage
      return ⟨element, element⟩

/-- What is pulled from a stage if it is asked for its next element: nothing if an element waits or the end was met. -/
def emitted? (stage : SequenceId) (n : Nat) (store : Store) : Option Emitted :=
  if (store.sequence stage).peeked.isSome || (store.sequence stage).exhausted then none
  else ((pullKeyed stage (n - 1)).from? (store.updated stage fun state => { state with started := true })).1.toOption

/-- What is pulled from a stage until it fails to give an element. -/
def emittedUntil (stage : SequenceId) : (n : Nat) → Store → List Emitted
  | 0, _ => []
  | n + 1, store =>
    let asked := ((calls n).next stage).from? store
    (emitted? stage n store).toList ++ if asked.1.isOk then emittedUntil stage n asked.2 else []

/-- The elements emitted since the beginning, after a use of a stage. -/
def Use.emitted (stage : SequenceId) (n : Nat) (store : Store) (earlier : List Emitted) : Use → List Emitted
  | next | peek => earlier ++ (emitted? stage n store).toList
  | rewind => if (((calls n).rewind stage).from? store).1.isOk then [] else earlier
  | force =>
    if (store.sequence stage).started then
      let rewound := ((calls n).rewind stage).from? store
      if rewound.1.isOk then emittedUntil stage n rewound.2 else earlier
    else earlier ++ emittedUntil stage n store

/-- Whether a stage may have come to a store, and emitted these elements since its beginning: it was made there, or used in
order, or nothing was done to it. -/
inductive Lived (stage supply : SequenceId) (key limit : Value) : List Emitted → Store → Prop
  | made {store : Store} (multi : Bool)
      (new : store.sequence stage = { body := .distinct supply key limit .empty, multiValue := multi }) :
      Lived stage supply key limit [] store
  | used {store : Store} {emitted : List Emitted} (earlier : Lived stage supply key limit emitted store) (use : Use) (n : Nat)
      (inOrder : IsOrderly stage (fun c => use.run c stage) n store) :
      Lived stage supply key limit (use.emitted stage n store emitted) ((use.run (calls n) stage).from? store).2
  | aside {store after : Store} {emitted : List Emitted} (earlier : Lived stage supply key limit emitted store)
      (same : after.sequence stage = store.sequence stage) : Lived stage supply key limit emitted after

section

variable {stage supply : SequenceId} {key limit : Value} {seen : Seen} {emitted : List Emitted} {store after : Store} {n : Nat}

/-- Pulling with the key along does what pulling does. -/
theorem from?_pullKeyed (stage : SequenceId) (n : Nat) (store : Store) :
    (Emitted.element <$> pullKeyed stage n).from? store = ((calls n).pull stage).from? store := by
  induction n generalizing store with
  | zero => rfl
  | succ n ih =>
    change _ = ((calls n).pullWith stage).from? store
    rw [pullKeyed, map_bind, from?_bind_ok (from?_sequence ..)]
    cases body : (store.sequence stage).body with
    | distinct supply key limit seen =>
      rw [pullWith_round body]
      simp only [map_bind]
      rcases drawn : ((calls n).round supply key (store.sequence stage).multiValue).from? store with ⟨halt | ⟨element, k⟩, left⟩
      · rw [from?_bind_error drawn, from?_bind_error drawn]
      · rw [from?_bind_ok drawn, from?_bind_ok drawn, from?_bind_ok (from?_contents ..)]
        rcases remembered : (Run.remember stage k).from? left with ⟨halt | fresh, kept⟩
        · rw [from?_bind_error remembered, from?_bind_error remembered]
        · rw [from?_bind_ok remembered, from?_bind_ok remembered]
          cases fresh with
          | true => rfl
          | false => exact ih kept
    | _ =>
      simp only [map_bind, map_pure, bind_pure]

/-! ## What is remembered -/

variable (supply key limit seen emitted) in
/-- Whether a stage with these seen keys remembers the emitted elements: their keys in turn as long as the end was not met,
and none from then on. -/
structure Recalls (state : SequenceState) : Prop where
  body : state.body = .distinct supply key limit seen
  ordered : state.Ordered
  recorded : state.exhausted = false → seen.Recorded (emitted.map Emitted.key)
  forgotten : state.exhausted = true → seen = .empty
  idle : state.started = false → emitted = []
  awaited : ∀ v, state.peeked = some v → ∃ k, emitted.getLast? = some ⟨v, k⟩

/-- A stage at its beginning remembers nothing. -/
theorem recalls_new (multi : Bool) :
    Recalls supply key limit .empty [] { body := .distinct supply key limit .empty, multiValue := multi } :=
  ⟨rfl, ⟨nofun, nofun⟩, fun _ => .nil, fun _ => rfl, fun _ => rfl, nofun⟩

/-- A stage between its beginning and its end remembers the emitted elements if it has recorded their keys. -/
theorem recalls_underway {state : SequenceState} (body : state.body = .distinct supply key limit seen)
    (underway : state.Underway) (recorded : seen.Recorded (emitted.map Emitted.key)) :
    Recalls supply key limit seen emitted state where
  body := body
  ordered := underway.ordered
  recorded _ := recorded
  forgotten ended := absurd (underway.unended.symm.trans ended) Bool.false_ne_true
  idle idle := absurd (idle.symm.trans underway.started) Bool.false_ne_true
  awaited v waiting := absurd (underway.unawaited.symm.trans waiting) (by simp)

/-- A stage at its end remembers nothing. -/
theorem recalls_over {state : SequenceState} (body : state.body = .distinct supply key limit .empty)
    (started : state.started = true) (ended : state.exhausted = true) (unawaited : state.peeked = none) :
    Recalls supply key limit .empty emitted state where
  body := body
  ordered := ⟨fun _ => started, fun awaited => by rw [unawaited] at awaited; cases awaited⟩
  recorded before := absurd (before.symm.trans ended) Bool.false_ne_true
  forgotten _ := rfl
  idle idle := absurd (idle.symm.trans started) Bool.false_ne_true
  awaited v waiting := absurd (unawaited.symm.trans waiting) (by simp)

/-! ### Pulling -/

/-- Remembering a key changes a stage only if it is fresh, and then records it. -/
theorem sequence_remember (body : (store.sequence stage).body = .distinct supply key limit seen) (k : Value) :
    ∃ outcome after, (Run.remember stage k).from? store = (Except.mapError Halt.fault outcome, after) ∧
      (outcome ≠ .ok true → after.sequence stage = store.sequence stage) ∧
      (outcome = .ok true → ∃ seen', seen.Adds (store.contents k) seen' ∧
        after.sequence stage = { store.sequence stage with body := .distinct supply key limit seen' }) := by
  obtain ⟨journal, remembered⟩ := from?_remember k body
  let recording := recordingIn limit seen store k
  have state : (store.updated stage fun state => { state with body := .distinct supply key limit recording.seen }).sequence
      stage = { store.sequence stage with body := .distinct supply key limit recording.seen } :=
    sequence_updated (sequence_inside body (by simp))
  refine ⟨recording.outcome, _, remembered, fun unfresh => state.trans ?_, fun fresh =>
    ⟨recording.seen, ⟨_, _, fresh, rfl⟩, state⟩⟩
  rw [Seen.record_unfresh unfresh, ← body]

/-- Where a stage is pulled from between its beginning and its end, and nothing else is done to it meanwhile, it records the
key of an element that it gives. -/
theorem recalls_pull (underway : (store.sequence stage).Underway)
    (recalls : Recalls supply key limit seen emitted (store.sequence stage))
    (spared : (((sparing stage n).pull stage).from? store).1 ≠ .error .outOfFuel) :
    ∃ seen', Recalls supply key limit seen' (emitted ++ ((pullKeyed stage n).from? store).1.toOption.toList)
        (((pullKeyed stage n).from? store).2.sequence stage) ∧
      (((pullKeyed stage n).from? store).2.sequence stage).Underway := by
  have body := recalls.body
  -- Every element that is skipped takes one call more, and leaves the stage as it is.
  induction n generalizing store with
  | zero => exact absurd rfl spared
  | succ n ih =>
    have pulls : ((sparing stage (n + 1)).pull stage).from? store = ((sparing stage n).pullWith stage).from? store := rfl
    rw [pulls, pullWith_round body] at spared
    rw [pullKeyed, from?_bind_ok (from?_sequence ..), body]
    simp only
    have distinct : (store.sequence stage).body.kind = .distinct := by rw [body]; rfl
    have untouched := sequence_round distinct supply key (store.sequence stage).multiValue n
    have same : ((calls n).round supply key (store.sequence stage).multiValue).from? store =
        ((sparing stage n).round supply key (store.sequence stage).multiValue).from? store :=
      (within_round (within_sparing stage n) store).resolve_left fun spent => spared (halts_bind spent)
    rcases drawn : ((sparing stage n).round supply key (store.sequence stage).multiValue).from? store with
      ⟨halt | ⟨element, k⟩, left⟩ <;> rw [drawn] at same untouched
    · have untouched : left.sequence stage = store.sequence stage := untouched
      rw [from?_bind_error same, untouched]
      exact ⟨seen, by simpa [Except.toOption] using recalls, underway⟩
    · have untouched : left.sequence stage = store.sequence stage := untouched
      rw [from?_bind_ok drawn] at spared
      rw [from?_bind_ok same, from?_bind_ok (from?_contents ..)]
      have body' : (left.sequence stage).body = .distinct supply key limit seen := by rw [untouched, body]
      obtain ⟨outcome, kept, remembered, unfresh, fresh⟩ := sequence_remember body' k
      rw [untouched] at unfresh fresh
      rcases outcome with fault | _ | _
      · rw [from?_bind_error remembered, unfresh (by simp)]
        exact ⟨seen, by simpa [Except.toOption] using recalls, underway⟩
      · rw [from?_bind_ok remembered] at spared ⊢
        rw [← unfresh (by simp)] at underway recalls body
        exact ih underway recalls spared body
      · obtain ⟨seen', adds, here⟩ := fresh rfl
        have underway' : (kept.sequence stage).Underway := here ▸ ⟨underway.started, underway.unended, underway.unawaited⟩
        have recorded : seen'.Recorded ((emitted ++ [Emitted.mk element (left.contents k)]).map Emitted.key) := by
          rw [List.map_append]
          exact (recalls.recorded underway.unended).snoc adds
        rw [from?_bind_ok remembered]
        exact ⟨seen', recalls_underway (congrArg SequenceState.body here) underway' recorded, underway'⟩

/-! ### Handing out an element -/

/-- A stage at its end forgets what it has seen. -/
theorem sequence_ended (body : (store.sequence stage).body = .distinct supply key limit seen) :
    ((signalEnd stage).from? store).2.sequence stage =
      { store.sequence stage with exhausted := true, body := .distinct supply key limit .empty } := by
  let marked := store.updated stage fun state => { state with exhausted := true }
  have state : marked.sequence stage = { store.sequence stage with exhausted := true } :=
    sequence_updated (sequence_inside body (by simp))
  have ended : (marked.sequence stage).body = .distinct supply key limit seen := by rw [state, body]
  have clears : ∀ left : Store, (left.sequence stage).body = .distinct supply key limit seen →
      ((cleanUp stage).from? left).2.sequence stage =
        { left.sequence stage with body := .distinct supply key limit .empty } := fun left body => by
    rw [cleanUp, from?_bind_ok (from?_sequence ..), body]
    exact sequence_updated (sequence_inside body (by simp))
  rw [signalEnd, from?_bind_ok (from?_updateSequence ..), from?_bind_ok (from?_sequence ..),
    from?_bind_ok (from?_tell ..)]
  refine (clears _ (by exact ended)).trans ?_
  exact congrArg (fun state : SequenceState => { state with body := .distinct supply key limit .empty }) state

/-- In order, a stage is spared by the operations that it asks while it hands out an element. -/
theorem spared_of_orderly (inOrder : IsOrderly stage (·.next stage) n store) :
    ∃ m, n = m + 1 ∧ (((sparing stage m).nextWith stage).from? store).1 ≠ .error .outOfFuel := by
  cases n with
  | zero => exact absurd rfl inOrder
  | succ m => exact ⟨m, rfl, by simpa [IsOrderly, orderly, instead] using inOrder⟩

/-- Asked for its next element in order, a stage remembers what is emitted. An element that it hands out without one waiting
is emitted. -/
theorem Recalls.next (recalls : Recalls supply key limit seen emitted (store.sequence stage))
    (inOrder : IsOrderly stage (·.next stage) n store) :
    ∃ seen', Recalls supply key limit seen' (emitted ++ (emitted? stage n store).toList)
        ((((calls n).next stage).from? store).2.sequence stage) ∧
      ((store.sequence stage).Unawaited → ∀ v, (((calls n).next stage).from? store).1 = .ok v →
        ((((calls n).next stage).from? store).2.sequence stage).Underway ∧ ∃ k, emitted? stage n store = some ⟨v, k⟩) := by
  obtain ⟨m, rfl, spared⟩ := spared_of_orderly inOrder
  change ∃ seen', Recalls supply key limit seen' _ ((((calls m).nextWith stage).from? store).2.sequence stage) ∧
    (_ → ∀ v, (((calls m).nextWith stage).from? store).1 = .ok v →
      ((((calls m).nextWith stage).from? store).2.sequence stage).Underway ∧ _)
  have inside := sequence_inside recalls.body (by simp)
  cases waiting : (store.sequence stage).peeked with
  | some v =>
    have untold : emitted? stage (m + 1) store = none := by simp [emitted?, waiting]
    have state : (store.handedOut stage).sequence stage = { store.sequence stage with peeked := none } :=
      sequence_updated inside
    rw [next_awaited waiting, untold, state, Option.toList_none, List.append_nil]
    exact ⟨seen, ⟨recalls.body, ⟨recalls.ordered.exhausted, by simp⟩, recalls.recorded, recalls.forgotten, recalls.idle, by simp⟩,
      fun unawaited => absurd (unawaited.symm.trans waiting) (by simp)⟩
  | none =>
    cases before : (store.sequence stage).exhausted with
    | true =>
      have untold : emitted? stage (m + 1) store = none := by simp [emitted?, before]
      rw [next_over ⟨before, waiting⟩, untold, Option.toList_none, List.append_nil]
      exact ⟨seen, recalls, fun _ _ handed => (by cases handed)⟩
    | false =>
      let marked := store.updated stage fun state => { state with started := true }
      have state : marked.sequence stage = { store.sequence stage with started := true } := sequence_updated inside
      have begun : (marked.sequence stage).Underway := state ▸ ⟨rfl, before, waiting⟩
      have pulls : (((sparing stage m).pull stage).from? marked).1 ≠ .error .outOfFuel := by
        intro spent
        have pulled : ((sparing stage m).pull stage).from? marked = (.error .outOfFuel, _) := Prod.ext spent rfl
        exact spared (by rw [next_unawaited waiting before, pulled])
      have told : emitted? stage (m + 1) store = ((pullKeyed stage m).from? marked).1.toOption := by
        simp [emitted?, waiting, before, marked]
      obtain ⟨seen', recalls', underway⟩ :=
        recalls_pull begun (recalls_underway (by rw [state, recalls.body]) begun (recalls.recorded before)) pulls
      have pulled := from?_pullKeyed stage m marked
      rw [next_unawaited waiting before, ← pulled, told, from?_map]
      rcases drawn : (pullKeyed stage m).from? marked with ⟨(fault | _) | e, left⟩ <;> rw [drawn] at recalls' underway
      · refine Exists.imp (fun _ recalled => ⟨recalled, fun _ _ handed => (by cases handed)⟩) ?_
        change ∃ seen'', Recalls supply key limit seen'' _
          ((if fault.isEnd then ((signalEnd stage).from? left).2 else left).sequence stage)
        split
        · rw [sequence_ended recalls'.body]
          exact ⟨.empty, recalls_over rfl underway.started rfl underway.unawaited⟩
        · exact ⟨seen', recalls'⟩
      · exact ⟨seen', recalls', fun _ _ handed => (by cases handed)⟩
      · refine ⟨seen', recalls', fun _ v handed => ⟨underway, e.key, ?_⟩⟩
        cases handed
        rfl

/-- Peeked at in order, a stage remembers what is emitted, an element that waits then included. -/
theorem Recalls.peek (recalls : Recalls supply key limit seen emitted (store.sequence stage))
    (inOrder : IsOrderly stage (·.peek stage) n store) :
    ∃ seen', Recalls supply key limit seen' (emitted ++ (emitted? stage n store).toList)
      ((((calls n).peek stage).from? store).2.sequence stage) := by
  cases waiting : (store.sequence stage).peeked with
  | some v =>
    have untold : emitted? stage n store = none := by simp [emitted?, waiting]
    rw [peek_awaited waiting, untold, Option.toList_none, List.append_nil]
    exact ⟨seen, recalls⟩
  | none =>
    have asks : IsOrderly stage (·.next stage) n store := by
      intro spent
      have asked : ((orderly stage n).next stage).from? store = (.error .outOfFuel, _) := Prod.ext spent rfl
      exact inOrder (by rw [peek_unawaited waiting, asked])
    obtain ⟨seen', recalls', gives⟩ := recalls.next asks
    rw [peek_unawaited waiting]
    rcases asked : ((calls n).next stage).from? store with ⟨halt | v, left⟩ <;> rw [asked] at recalls' gives
    · exact ⟨seen', recalls'⟩
    · obtain ⟨underway, k, told⟩ := gives waiting v rfl
      have state : (left.awaiting stage v).sequence stage = { left.sequence stage with peeked := some v } :=
        sequence_updated (sequence_inside recalls'.body (by simp))
      refine ⟨seen', ?_⟩
      change Recalls supply key limit seen' _ ((left.awaiting stage v).sequence stage)
      rw [state]
      refine ⟨recalls'.body, ⟨fun _ => underway.started, fun _ => ⟨underway.started, underway.unended⟩⟩, recalls'.recorded,
        recalls'.forgotten, recalls'.idle, fun w same => ?_⟩
      cases same
      exact ⟨k, by rw [told, Option.toList_some, List.getLast?_concat]⟩

/-! ### Beginning again -/

/-- A stage that was taken back remembers nothing, and one that could not be remembers what it did. -/
theorem Recalls.rewind (recalls : Recalls supply key limit seen emitted (store.sequence stage))
    (ends : (((calls n).rewind stage).from? store).1 ≠ .error .outOfFuel) :
    ∃ seen', Recalls supply key limit seen' (if (((calls n).rewind stage).from? store).1.isOk then [] else emitted)
      ((((calls n).rewind stage).from? store).2.sequence stage) := by
  rcases rewound : ((calls n).rewind stage).from? store with ⟨(fault | _) | _, after⟩
  · have same : after.sequence stage = store.sequence stage := by
      rw [Store.sequence, (unmoved_of_rewind rewound).sequences]
      rfl
    exact ⟨seen, by simpa [Except.isOk, Except.toBool, same] using recalls⟩
  · exact absurd (congrArg Prod.fst rewound) ends
  · cases n with
    | zero => cases rewound
    | succ m =>
      change ((calls m).reset stage >>= fun _ => restart stage).from? store = _ at rewound
      obtain ⟨_, _, impossible⟩ | ⟨_, left, reset, restarted⟩ := bind_ends rewound
      · cases impossible
      rw [Calls.reset, from?_bind_ok (from?_sequence ..), recalls.body] at reset
      obtain ⟨_, _, impossible⟩ | ⟨_, below, supplied, cleared⟩ := bind_ends reset
      · cases impossible
      cases cleared
      cases restarted
      have grows : Lasts SequenceState.Unawaited stage store _ := (lasts_calls stage m).rewind supply store
      rw [supplied] at grows
      have inside : stage.index < below.sequences.size := Nat.lt_of_lt_of_le (sequence_inside recalls.body (by simp)) grows.size
      let clear : SequenceState → SequenceState := fun state => { state with body := .distinct supply key limit .empty }
      have state : (below.updated stage clear).sequence stage = clear (below.sequence stage) := sequence_updated inside
      have again : ((below.updated stage clear).updated stage SequenceState.restarted).sequence stage =
          (clear (below.sequence stage)).restarted := by
        rw [sequence_updated (by simpa using inside), state]
      refine ⟨.empty, ?_⟩
      change Recalls supply key limit .empty []
        (((below.updated stage clear).updated stage SequenceState.restarted).sequence stage)
      rw [again]
      exact recalls_new _

/-! ### Taking all elements -/

/-- Where all further elements are taken in order, a stage remembers what is emitted. -/
theorem Recalls.gather (earlier : List Value) (recalls : Recalls supply key limit seen emitted (store.sequence stage))
    (inOrder : IsOrderly stage (·.gather (.sequence stage) earlier) n store) :
    ∃ seen', Recalls supply key limit seen' (emitted ++ emittedUntil stage n store)
      ((((calls n).gather (.sequence stage) earlier).from? store).2.sequence stage) := by
  induction n generalizing store seen emitted earlier with
  | zero => exact absurd rfl inOrder
  | succ n ih =>
    change (((orderly stage n).gatherWith (.sequence stage) earlier).from? store).1 ≠ _ at inOrder
    rw [from?_gatherWith] at inOrder
    have asks : IsOrderly stage (·.next stage) n store := by
      intro spent
      have drawn : ((orderly stage n).draw (.sequence stage)).from? store = (.error .outOfFuel, _) := Prod.ext spent rfl
      rw [drawn] at inOrder
      exact inOrder rfl
    obtain ⟨seen', recalls', -⟩ := recalls.next asks
    have same : ((orderly stage n).draw (.sequence stage)).from? store = ((calls n).draw (.sequence stage)).from? store :=
      (asks.leaves (.ask (.next stage))).symm
    rw [same] at inOrder
    rw [gather_succ, emittedUntil]
    rcases asked : ((calls n).next stage).from? store with ⟨(fault | _) | v, left⟩ <;> rw [asked] at recalls' <;>
      have drawn : ((calls n).draw (.sequence stage)).from? store = _ := asked <;> rw [drawn] at inOrder ⊢
    · exact ⟨seen', by simpa [Except.isOk, Except.toBool] using recalls'⟩
    · exact absurd rfl inOrder
    · obtain ⟨seen'', later⟩ := ih (v :: earlier) recalls' inOrder
      exact ⟨seen'', by simpa [Except.isOk, Except.toBool] using later⟩

/-- Where all elements are taken in order, from the beginning if it was left, a stage remembers what is emitted. -/
theorem Recalls.force (recalls : Recalls supply key limit seen emitted (store.sequence stage))
    (inOrder : IsOrderly stage (·.force stage) n store) :
    ∃ seen', Recalls supply key limit seen' (Use.force.emitted stage n store emitted)
      ((((calls n).force stage).from? store).2.sequence stage) := by
  have forces : ∀ c : Calls, (c.force stage).from? store =
      if (store.sequence stage).started then (c.rewind stage >>= fun _ => c.gather (.sequence stage) []).from? store
      else (c.gather (.sequence stage) []).from? store := fun c => by
    rw [Calls.force, from?_bind_ok (from?_sequence ..), from?_ite]
    rfl
  change (((orderly stage n).force stage).from? store).1 ≠ _ at inOrder
  rw [forces] at inOrder ⊢
  rw [Use.emitted]
  split at inOrder <;> rename_i started
  · rw [if_pos started, if_pos started]
    have inOrder : IsOrderly stage (fun c => c.rewind stage >>= fun _ => c.gather (.sequence stage) []) n store := inOrder
    have rewinds : IsOrderly stage (·.rewind stage) n store := inOrder.first
    have rest : ∀ left, ((calls n).rewind stage).from? store = (.ok (), left) →
        IsOrderly stage (·.gather (.sequence stage) []) n left := fun _ => inOrder.rest (.ask (.rewind stage))
    obtain ⟨seen', recalls'⟩ := recalls.rewind (by rw [rewinds.leaves (.ask (.rewind stage))]; exact rewinds)
    rcases rewound : ((calls n).rewind stage).from? store with ⟨halt | _, left⟩ <;> rw [rewound] at recalls'
    · rw [from?_bind_error rewound]
      exact ⟨seen', recalls'⟩
    · rw [from?_bind_ok rewound]
      exact Recalls.gather [] recalls' (rest left rewound)
  · rw [if_neg started, if_neg started]
    exact recalls.gather [] inOrder

/-! ## Lives -/

/-- A use of a stage in order is one step of its life. -/
theorem Recalls.use (recalls : Recalls supply key limit seen emitted (store.sequence stage)) (use : Use)
    (inOrder : IsOrderly stage (fun c => use.run c stage) n store) :
    ∃ seen', Recalls supply key limit seen' (use.emitted stage n store emitted)
      (((use.run (calls n) stage).from? store).2.sequence stage) := by
  cases use with
  | next =>
    obtain ⟨seen', later, -⟩ := recalls.next inOrder.first
    change ∃ seen', Recalls supply key limit seen' _ ((((fun v => [v]) <$> (calls n).next stage).from? store).2.sequence stage)
    rw [from?_map]
    exact ⟨seen', later⟩
  | peek =>
    change ∃ seen', Recalls supply key limit seen' _ ((((fun v => [v]) <$> (calls n).peek stage).from? store).2.sequence stage)
    rw [from?_map]
    exact recalls.peek inOrder.first
  | rewind =>
    change ∃ seen', Recalls supply key limit seen' _ ((((fun _ => []) <$> (calls n).rewind stage).from? store).2.sequence stage)
    rw [from?_map]
    have rewinds : IsOrderly stage (·.rewind stage) n store := inOrder.first
    exact recalls.rewind (by rw [rewinds.leaves (.ask (.rewind stage))]; exact rewinds)
  | force => exact recalls.force inOrder

/-- Whatever the life of a stage, it remembers what was emitted since its beginning. -/
theorem Lived.recalls (lived : Lived stage supply key limit emitted store) :
    ∃ seen, Recalls supply key limit seen emitted (store.sequence stage) := by
  induction lived with
  | made multi new => exact ⟨.empty, new ▸ recalls_new multi⟩
  | used _ use n inOrder ih =>
    obtain ⟨seen, recalls⟩ := ih
    exact recalls.use use inOrder
  | aside _ same ih => rwa [same]

/-! ### Programs -/

variable (stage supply key limit) in
/-- The law that the life of a stage goes on wherever calls suffice. -/
def living : Law := fun _ run store => ∀ emitted, Lived stage supply key limit emitted store →
  (run.from? store).1 ≠ .error .outOfFuel → ∃ later, Lived stage supply key limit later (run.from? store).2

/-- The life of a stage goes on where the stage is left as it is. -/
theorem living_of_accords {α : Type} {run : Run α} (accords : Accords .untouched stage store (run.from? store).2) :
    living stage supply key limit α run store := by
  intro emitted lived _
  obtain ⟨seen, recalls⟩ := lived.recalls
  obtain ⟨-, _, -, same⟩ := accords
  exact ⟨emitted, lived.aside (same (by rw [recalls.body]; rfl))⟩

theorem living_of_keeps {α : Type} {run : Run α} (keeps : run.Obeys (.keeping (Accords .untouched stage))) :
    run.Obeys (living stage supply key limit) := fun store => living_of_accords (keeps store)

instance : (living stage supply key limit).Composes where
  pure a := living_of_keeps (obeys_pure a)
  fail fault := living_of_keeps (obeys_fail fault)
  outOfFuel := living_of_keeps obeys_outOfFuel
  view unseeing := living_of_keeps (obeys_view unseeing)
  bind {_ _ run _ store} first rest emitted lived ends := by
    have later := first emitted lived
    rcases drawn : run.from? store with ⟨halt | a, left⟩ <;> rw [drawn] at later
    · rw [from?_bind_error drawn] at ends ⊢
      exact later fun spent => ends (by cases spent; rfl)
    · rw [from?_bind_ok drawn] at ends ⊢
      obtain ⟨emitted', lived'⟩ := later nofun
      exact rest a left drawn emitted' lived' ends
  onFault {_ run _ store} first handled emitted lived ends := by
    have later := first emitted lived
    rw [from?_onFault] at ends ⊢
    rcases drawn : run.from? store with ⟨(fault | _) | a, left⟩ <;> rw [drawn] at ends later
    · obtain ⟨emitted', lived'⟩ := later nofun
      exact handled fault left drawn emitted' lived' ends
    · exact absurd rfl ends
    · exact later nofun

/-- The life of a stage goes on where changes are made around it. -/
instance : (living stage supply key limit).Furnished where
  newSequence body multi := living_of_keeps (Law.Makes.newSequence body multi)
  newList items := living_of_keeps (Law.Makes.newList items)
  newCursor cursor unbegun := living_of_keeps (Law.Ambient.newCursor cursor unbegun)
  setCursor id cursor unbegun := living_of_keeps (Law.Ambient.setCursor id cursor unbegun)
  looked _ lives := lives
  entered {_ id next store _ _ _ _} there begun same lives := by
    change living stage supply key limit _ (next (store.cursor id)) store
    rw [there, same]
    exact Law.Composes.bind (living_of_accords (.of_sequences rfl rfl)) fun _ left _ => lives left
  newDatum v := living_of_keeps (Law.Ambient.newDatum v)
  counted id f more := living_of_keeps (Law.Ambient.counted id f more)
  asked id args := living_of_keeps (Law.Ambient.asked id args)
  newStream pipeline input := living_of_keeps (Law.Furnished.newStream pipeline input)
  updateList id f := living_of_keeps (Law.Furnished.updateList id f)
  newMeter := living_of_keeps Law.Furnished.newMeter
  newSource source := living_of_keeps (Law.Furnished.newSource source)
  newKey key := living_of_keeps (Law.Furnished.newKey key)
  newStep step := living_of_keeps (Law.Furnished.newStep step)
  newFault object := living_of_keeps (Law.Furnished.newFault object)

/-- The life of a stage goes on where other sequences move on. -/
theorem living_serves {other : SequenceId} (apart : other ≠ stage) : (living stage supply key limit).Serves other := by
  have moves : (Law.keeping (Accords .untouched stage)).Moves other := accords_moves apart
  have lives : (living stage supply key limit).Moves other :=
    { body := fun _ _ _ _ _ => living_of_accords (.of_other apart _)
      noted := fun notice about live untold => living_of_keeps (moves.noted notice about live untold)
      handed := living_of_keeps moves.handed
      begun := living_of_keeps moves.begun
      ended := living_of_keeps moves.ended
      toldEnd := fun kind => living_of_keeps (moves.toldEnd kind)
      restarted := living_of_keeps moves.restarted }
  exact lives.serves

/-- The life of a stage goes on where it is used in order, whatever is made of the answer. -/
theorem Lived.goesOn {α : Type} {operation : Calls → Run α} {f : α → List Value}
    (lived : Lived stage supply key limit emitted store) (use : Use) (runs : ∀ c, use.run c stage = f <$> operation c)
    (inOrder : IsOrderly stage operation n store) :
    ∃ later, Lived stage supply key limit later ((operation (calls n)).from? store).2 := by
  have mapped : IsOrderly stage (fun c => use.run c stage) n store := by
    intro spent
    refine inOrder ?_
    simp only [runs, from?_map] at spent
    rcases drawn : (operation (orderly stage n)).from? store with ⟨halt | a, left⟩ <;> rw [drawn] at spent <;> cases spent
    rfl
  have used := lived.used use n mapped
  rw [runs, from?_map] at used
  exact ⟨_, used⟩

/-- The life of a stage goes on with all orderly operations that do not pull from it besides. -/
theorem obeys_living (n : Nat) : ((orderly stage n).secluding stage).Obeys (living stage supply key limit) := by
  refine obeys_orderly_secluding (fun other output => living_of_keeps (accords_keepOutput other output))
    (fun _ apart => living_serves apart) (fun n store emitted lived ends => ?_) (fun n store emitted lived ends => ?_) n
  · have handed : ((orderly stage (n + 1)).next stage).from? store = ((sparing stage n).nextWith stage).from? store := by
      simp [orderly, instead]
    have inOrder : IsOrderly stage (·.next stage) (n + 1) store := by rwa [IsOrderly, handed]
    have later := lived.goesOn (f := fun v => [v]) .next (fun _ => rfl) inOrder
    rwa [inOrder.leaves (.ask (.next stage)), handed] at later
  · have taken : ((orderly stage (n + 1)).rewind stage).from? store = ((orderly stage n).rewindWith stage).from? store := by
      simp [orderly, instead]
    have inOrder : IsOrderly stage (·.rewind stage) (n + 1) store := by rwa [IsOrderly, taken]
    have later := lived.goesOn (f := fun _ => []) .rewind (fun _ => rfl) inOrder
    rwa [inOrder.leaves (.ask (.rewind stage)), taken] at later

/-- The life of a stage goes on where a sequence is peeked at in order. -/
theorem living_peek (n : Nat) (other : SequenceId) :
    (((orderly stage n).secluding stage).peek other).Obeys (living stage supply key limit) := by
  by_cases same : other = stage
  · subst same
    intro store emitted lived ends
    have inOrder : IsOrderly other (·.peek other) n store := ends
    have later := lived.goesOn (f := fun v => [v]) .peek (fun _ => rfl) inOrder
    rwa [inOrder.leaves (.ask (.peek other))] at later
  · refine (obeys_sequence other).bind fun state => ?_
    have waits : ∀ v, (updateSequence other fun state => { state with peeked := some v }).Obeys
        (living stage supply key limit) := fun v => living_of_keeps (accords_updateSequence_ne same _)
    split
    · exact obeys_pure _
    · exact ((obeys_living n).next other).bind fun v => (waits v).bind fun _ => obeys_pure v

/-- Whatever a program does in order, the life of a stage goes on. -/
theorem Lived.program {α : Type} {operation : Calls → Run α} (program : Program operation)
    (lived : Lived stage supply key limit emitted store) (inOrder : IsOrderly stage operation n store) :
    ∃ later, Lived stage supply key limit later ((operation (calls n)).from? store).2 := by
  have lives : Run.Obeys (living stage supply key limit) (operation ((orderly stage n).secluding stage)) :=
    program.obeys (obeys_living n) (living_peek n)
  rw [program.secluding] at lives
  rw [inOrder.leaves program]
  exact lives store emitted lived inOrder

end

end Calls

end FirstSeen
