import FirstSeen.Proofs.History.Beginning
import FirstSeen.Proofs.Overlooking

/-!
# Rewinding happens or does not

A sequence is taken back layer by layer: what it draws from first, itself then. The layer at the bottom alone can refuse,
and when it does no layer above has changed. So a rewind that fails leaves every sequence as it is and tells nothing. It
leaves the whole store as it is unless it failed because the iterator that the source holds could not be closed, which is
the iterator's own matter.

The same holds of the rewinds that other requests begin with: taking all elements of a sequence that was started, running
a pipeline on an input that was started, and asking a stream for its first element. A stream is over then, and this is all
that is left of the attempt: clients that do not ask the stream cannot tell that there was one.
-/

set_option autoImplicit false

namespace FirstSeen

open Run

namespace Store

/-- Whether a chain leads from one sequence down to another: from a distinct stage to its supply, from a pipeline to its
output. -/
inductive LeadsTo (store : Store) : SequenceId → SequenceId → Prop
  | here (id : SequenceId) : LeadsTo store id id
  | supply {id supply bottom : SequenceId} {key limit : Value} {seen : Seen}
      (body : (store.sequence id).body = .distinct supply key limit seen) (below : LeadsTo store supply bottom) :
      LeadsTo store id bottom
  | output {id out bottom : SequenceId} {steps : ListId} {input : Value}
      (body : (store.sequence id).body = .pipeline steps input (.ofSequence out)) (below : LeadsTo store out bottom) :
      LeadsTo store id bottom

/-- Whether the source of a chain holds an iterator that fails to close, with this fault and this store. -/
def FailsToClose (store : Store) (id : SequenceId) (fault : Fault) (after : Store) : Prop :=
  ∃ bottom factory size feed, store.LeadsTo id bottom ∧
    (store.sequence bottom).body = .produced factory size (some feed) ∧
    (closeFeed feed).from? store = (.error (.fault fault), after)

/-- A store in which no sequence has changed and nothing was told. -/
structure Unmoved (before after : Store) : Prop where
  sequences : after.sequences = before.sequences
  journal : after.journal = before.journal

instance : IsPreorder Store Unmoved where
  refl _ := ⟨rfl, rfl⟩
  trans _ _ _ h k := ⟨k.sequences.trans h.sequences, k.journal.trans h.journal⟩

theorem withStream_withStream (store : Store) (k : CursorId) (p : SequenceId) (input : Value) (phase later : StreamPhase) :
    (store.withStream k p input phase).withStream k p input later = store.withStream k p input later := by
  have same : (store.cursors.modify k.index fun _ => .streaming p input phase).modify k.index
      (fun _ => .streaming p input later) = store.cursors.modify k.index fun _ => .streaming p input later := by
    ext i inside inside'
    · simp
    · by_cases here : k.index = i
      · simp [Array.getElem_modify, here]
      · simp [Array.getElem_modify, here]
  simp only [withStream, same]

end Store

/-! ## Closing -/

namespace Run

/-- Closing an iterator changes no sequence and tells nothing. -/
theorem unmoved_closeFeed (feed : Feed) : (closeFeed feed).Keeps Store.Unmoved := by
  have noted : ∀ meter closing, (noteClose meter closing).Keeps Store.Unmoved := by
    intro meter closing
    cases closing with
    | silent => exact keeps_pure ()
    | counted fault =>
      refine Keeps.bind ?_ fun _ => ?_
      · cases meter with
        | none => exact keeps_pure ()
        | some meter => exact fun _ => ⟨rfl, rfl⟩
      · cases fault with
        | none => exact keeps_pure ()
        | some fault => exact keeps_fail fault
  have set : ∀ id cursor, (setCursor id cursor).Keeps Store.Unmoved := fun _ _ _ => ⟨rfl, rfl⟩
  cases feed with
  | sequence id => exact keeps_pure ()
  | cursor id =>
    refine (keeps_view _).bind fun cursor => ?_
    cases cursor with
    | walking name script position meter closing => exact noted meter closing
    | listing | ranging => exact keeps_pure ()
    | generating script position phase meter closing =>
      exact (set id _).bind fun _ => .ite ((noted meter closing).onFault fun _ => keeps_fail _) (keeps_pure ())
    | streaming pipeline input phase => exact .ite ((keeps_fail _).bind fun _ => set id _) (set id _)

/-- Beginning again in the eyes of others cannot fail. -/
theorem restart_ends (id : SequenceId) (store : Store) :
    (restart id).from? store = (.ok (), ((restart id).from? store).2) := rfl

end Run

namespace Calls

variable {c : Calls} {n : Nat} {id : SequenceId} {store after : Store} {fault : Fault}

/-! ## One rewind -/

/-- A rewind fails as the reset does that it begins with. -/
theorem reset_of_rewind (ends : (c.rewindWith id).from? store = (.error (.fault fault), after)) :
    (c.reset id).from? store = (.error (.fault fault), after) := by
  change (c.reset id >>= fun _ => restart id).from? store = _ at ends
  rw [from?_bind] at ends
  rcases reset : (c.reset id).from? store with ⟨halt | _, left⟩ <;> rw [reset] at ends
  · exact ends
  · cases (restart_ends id left).symm.trans ends

/-- A rewind that fails leaves the store as it is, unless the source of the chain holds an iterator that fails to
close. -/
theorem rewind_fails (ends : ((calls n).rewind id).from? store = (.error (.fault fault), after)) :
    after = store ∨ store.FailsToClose id fault after := by
  induction n generalizing id after with
  | zero => cases ends
  | succ n ih =>
    have fails := reset_of_rewind (c := calls n) ends
    rw [reset, from?_bind_ok (from?_sequence ..)] at fails
    cases form : (store.sequence id).body with
    | «abstract» | scripted =>
      rw [form] at fails
      cases fails
      exact .inl rfl
    | iterable data feed =>
      -- A one-shot iterator refuses before anything is done.
      simp only [form] at fails
      split at fails
      · cases fails
        exact .inl rfl
      · cases fails
    | produced factory size feed =>
      simp only [form] at fails
      cases feed with
      | none => cases fails
      | some feed =>
        rw [from?_bind] at fails
        rcases closed : (closeFeed feed).from? store with ⟨halt | _, left⟩ <;> rw [closed] at fails <;> cases fails
        exact .inr ⟨id, factory, size, feed, .here id, form, closed⟩
    | distinct supply key limit seen =>
      -- Nothing was cleared when the supply refuses.
      simp only [form] at fails
      rw [from?_bind] at fails
      rcases below : ((calls n).rewind supply).from? store with ⟨halt | _, left⟩ <;> rw [below] at fails <;> cases fails
      refine (ih below).imp_right ?_
      rintro ⟨bottom, factory, size, feed, leads, held⟩
      exact ⟨bottom, factory, size, feed, .supply form leads, held⟩
    | pipeline steps input output =>
      simp only [form] at fails
      split at fails
      · cases fails
      · unfold sequenceFor at fails
        split at fails
        · rename_i out
          refine (ih fails).imp_right ?_
          rintro ⟨bottom, factory, size, feed, leads, held⟩
          exact ⟨bottom, factory, size, feed, .output form leads, held⟩
        · cases fails
          exact .inl rfl

/-- A rewind that fails changes no sequence and tells nothing. -/
theorem unmoved_of_rewind (ends : ((calls n).rewind id).from? store = (.error (.fault fault), after)) :
    store.Unmoved after := by
  rcases rewind_fails ends with rfl | ⟨_, _, _, feed, _, _, closed⟩
  · exact ⟨rfl, rfl⟩
  · have unmoved := unmoved_closeFeed feed store
    rw [closed] at unmoved
    exact unmoved

/-! ## Rewinds that other requests begin with -/

/-- What begins with a rewind, perhaps. -/
inductive Attempt where
  | rewind (id : SequenceId)
  | force (id : SequenceId)
  | collect (id : SequenceId) (input : Value)
  | pull (stream : CursorId)

namespace Attempt

/-- What is asked, without what comes of it. -/
def run (c : Calls) : Attempt → Run Unit
  | rewind id => c.rewind id
  | force id => (fun _ => ()) <$> c.force id
  | collect id input => (fun _ => ()) <$> c.collect id input
  | pull stream => (fun _ => ()) <$> c.advanceWith stream

/-- The fault that a request ends with when its rewind fails. An end leaves a stream as another fault. -/
def raised (fault : Fault) : Attempt → Fault
  | pull _ => insteadOfEnd .generatorSignalledEnd fault
  | _ => fault

/-- The store after a request that changed nothing, apart from a stream that is over. -/
def spent (store : Store) : Attempt → Store
  | pull stream =>
    match store.cursor stream with
    | .streaming id input _ => store.withStream stream id input .finished
    | _ => store
  | _ => store

end Attempt

/-- Building a chain on a sequence that was started begins with rewinding it. -/
theorem buildFor_rewinds {input : SequenceId} {steps : ListId} {output : Value}
    (body : (store.sequence id).body = .pipeline steps .null output) (started : (store.sequence input).started = true)
    (fails : (c.rewind input).from? store = (.error (.fault fault), after)) :
    (c.buildFor id (.ofSequence input)).from? store = (.error (.fault fault), after) := by
  rw [buildFor, from?_bind_ok (from?_sequence ..), body]
  have given : (ofExcept (inputOf (.ofSequence input) .null)).from? store = (.ok (.ofSequence input), store) := rfl
  simp only
  rw [from?_bind_ok given, build, from?_bind_ok (show (toSequence (.ofSequence input) _).from? store = (.ok input, store)
    from rfl), from?_bind_ok (from?_sequence ..), started]
  exact from?_bind_error fails

/-- A stream whose first element needs a rewind that fails is over, and what it fails with is no end. -/
theorem advance_fails {stream : CursorId} {input : Value} (fresh : store.cursor stream = .streaming id input .fresh)
    (fails : (c.beginStream id input).from? (store.withStream stream id input .running) =
      (.error (.fault fault), after)) :
    (c.advanceWith stream).from? store = (.error (.fault (insteadOfEnd .generatorSignalledEnd fault)),
      after.withStream stream id input .finished) := by
  rw [advanceWith, from?_bind_ok (from?_cursor ..), fresh]
  change (setCursor stream (.streaming id input .running) >>= _).from? store = _
  rw [from?_bind_ok (from?_setCursor ..)]
  refine from?_bind_error ?_
  unfold Store.withStream at fails
  rw [from?_onFault, fails]
  rfl

end Calls

end FirstSeen
