import FirstSeen.Attribute

/-!
# What a run ends with

A run from a store ends with an answer or a halt, and with a store. The equations below compute both for
the operations that runs are made of, so that a longer run can be followed one operation at a time.
-/

set_option autoImplicit false

namespace FirstSeen

/-- The sequence that a notice is about. -/
def Notice.subject : Notice → SequenceId
  | exhausted id _ | rewound id _ | listLookup id _ | limitReached id => id

namespace Run

variable {α β : Type}

/-- An answer without a computation leaves the store as it is. -/
@[simp] theorem from?_pure (a : α) (store : Store) : (pure a : Run α).from? store = (.ok a, store) :=
  rfl

/-- A run goes on from the store that its first part left, unless that part was halted. -/
theorem from?_bind (run : Run α) (next : α → Run β) (store : Store) :
    (run >>= next).from? store =
      match run.from? store with
      | (.ok a, left) => (next a).from? left
      | (.error halt, left) => (.error halt, left) := by
  simp only [from?, ExceptT.run_bind, StateT.run_bind]
  rcases run.run.run store with ⟨_ | _, left⟩ <;> rfl

/-- After an answer the second part of a run decides. -/
theorem from?_bind_ok {run : Run α} {next : α → Run β} {store left : Store} {a : α}
    (ends : run.from? store = (.ok a, left)) : (run >>= next).from? store = (next a).from? left := by
  rw [from?_bind, ends]

/-- A run whose first part is halted is halted. -/
theorem from?_bind_error {run : Run α} {next : α → Run β} {store left : Store} {halt : Halt}
    (ends : run.from? store = (.error halt, left)) :
    (run >>= next).from? store = (.error halt, left) := by
  rw [from?_bind, ends]

/-- A run is halted where its first part is. -/
theorem halts_bind {run : Run α} {next : α → Run β} {store : Store} {halt : Halt}
    (halts : (run.from? store).1 = .error halt) : ((run >>= next).from? store).1 = .error halt := by
  have ends : run.from? store = (.error halt, _) := Prod.ext halts rfl
  rw [from?_bind_error ends]

/-- A run ends with its first part if that is halted, and else with the rest. -/
theorem bind_ends {run : Run α} {next : α → Run β} {store after : Store} {ended : Except Halt β}
    (ends : (run >>= next).from? store = (ended, after)) :
    (∃ halt, run.from? store = (.error halt, after) ∧ ended = .error halt) ∨
      ∃ a left, run.from? store = (.ok a, left) ∧ (next a).from? left = (ended, after) := by
  rcases first : run.from? store with ⟨halt | a, left⟩
  · rw [from?_bind_error first] at ends
    cases ends
    exact .inl ⟨halt, rfl, rfl⟩
  · rw [from?_bind_ok first] at ends
    exact .inr ⟨a, left, rfl, ends⟩

/-- Changing the answer of a run changes nothing else. -/
@[simp] theorem from?_map (run : Run α) (f : α → β) (store : Store) :
    (f <$> run).from? store = ((run.from? store).1.map f, (run.from? store).2) := by
  change (run >>= fun a => pure (f a)).from? store = _
  rw [from?_bind]
  rcases run.from? store with ⟨_ | _, left⟩ <;> rfl

/-- A fault leaves the store as it is. -/
@[simp] theorem from?_fail (fault : Fault) (store : Store) :
    (fail fault : Run α).from? store = (.error (.fault fault), store) := rfl

/-- Running out of fuel leaves the store as it is. -/
@[simp] theorem from?_outOfFuel (store : Store) :
    (throw .outOfFuel : Run α).from? store = (.error .outOfFuel, store) := rfl

/-- A handler is given faults, with the store that was left, and nothing else. -/
theorem from?_onFault (body : Run α) (handler : Fault → Run α) (store : Store) :
    (onFault body handler).from? store =
      match body.from? store with
      | (.ok a, left) => (.ok a, left)
      | (.error (.fault fault), left) => (handler fault).from? left
      | (.error .outOfFuel, left) => (.error .outOfFuel, left) := by
  simp only [onFault, from?, ExceptT.run_tryCatch, StateT.run_bind]
  change (fun ended : Except Halt α × Store => StateT.run _ ended.2) (body.run.run store) = _
  rcases body.run.run store with ⟨(_ | _) | _, left⟩ <;> rfl

/-- The answer of a computation without a store. -/
theorem from?_ofExcept (result : Except Fault α) (store : Store) :
    (ofExcept result).from? store = (result.mapError Halt.fault, store) := by
  cases result <;> rfl

/-- A run that depends on a condition. -/
theorem from?_ite (c : Prop) [Decidable c] (run other : Run α) (store : Store) :
    (if c then run else other).from? store = if c then run.from? store else other.from? store := by
  split <;> rfl

@[simp] theorem from?_view (f : Store → α) (store : Store) :
    (view f).from? store = (.ok (f store), store) := rfl

@[simp] theorem from?_sequence (id : SequenceId) (store : Store) :
    (sequence id).from? store = (.ok (store.sequence id), store) := rfl

@[simp] theorem from?_cursor (id : CursorId) (store : Store) :
    (cursor id).from? store = (.ok (store.cursor id), store) := rfl

@[simp] theorem from?_list (id : ListId) (store : Store) :
    (list id).from? store = (.ok (store.list id), store) := rfl

@[simp] theorem from?_plain (v : Value) (store : Store) :
    (plain v).from? store = (.ok (store.plain v), store) := rfl

@[simp] theorem from?_contents (v : Value) (store : Store) :
    (contents v).from? store = (.ok (store.contents v), store) := rfl

@[simp] theorem from?_typeName (v : Value) (store : Store) :
    (typeName v).from? store = (.ok (store.typeName v), store) := rfl

@[simp] theorem from?_updateSequence (id : SequenceId) (f : SequenceState → SequenceState)
    (store : Store) :
    (updateSequence id f).from? store =
      (.ok (), { store with sequences := store.sequences.modify id.index f }) := rfl

@[simp] theorem from?_setBody (id : SequenceId) (body : Body) (store : Store) :
    (setBody id body).from? store =
      (.ok (), { store with
        sequences := store.sequences.modify id.index fun state => { state with body := body } }) := rfl

@[simp] theorem from?_newSequence (state : SequenceState) (store : Store) :
    (newSequence state).from? store =
      (.ok ⟨store.sequences.size⟩, { store with sequences := store.sequences.push state }) := rfl

@[simp] theorem from?_setCursor (id : CursorId) (cursor : Cursor) (store : Store) :
    (setCursor id cursor).from? store =
      (.ok (), { store with cursors := store.cursors.modify id.index fun _ => cursor }) := rfl

@[simp] theorem from?_newCursor (cursor : Cursor) (store : Store) :
    (newCursor cursor).from? store =
      (.ok ⟨store.cursors.size⟩, { store with cursors := store.cursors.push cursor }) := rfl

@[simp] theorem from?_newDatum (v : Value) (store : Store) :
    (newDatum v).from? store = (.ok ⟨store.data.size⟩, { store with data := store.data.push v }) := rfl

@[simp] theorem from?_newList (items : List Value) (store : Store) :
    (newList items).from? store =
      (.ok ⟨store.lists.size⟩, { store with lists := store.lists.push items }) := rfl

@[simp] theorem from?_updateMeter (id : MeterId) (f : Meter → Meter) (store : Store) :
    (updateMeter id f).from? store =
      (.ok (), { store with meters := store.meters.modify id.index f }) := rfl

@[simp] theorem from?_tell (notice : Notice) (store : Store) :
    (tell notice).from? store = (.ok (), { store with journal := store.journal.push notice }) := rfl

/-- A value becomes one object: itself, or a new datum. -/
theorem from?_newObject (v : Value) (store : Store) :
    (newObject v).from? store =
      if v.isCanonical then (.ok v, store)
      else (.ok (.object (.datum ⟨store.data.size⟩)), { store with data := store.data.push v }) := by
  unfold newObject
  rw [from?_ite]
  rfl

/-- Signalling an end cannot fail. -/
theorem signalEnd_ends (store : Store) (id : SequenceId) : ∃ after, (signalEnd id).from? store = (.ok (), after) := by
  rw [signalEnd, from?_bind_ok (from?_updateSequence ..), from?_bind_ok (from?_sequence ..),
    from?_bind_ok (from?_tell ..), cleanUp, from?_bind_ok (from?_sequence ..)]
  split <;> exact ⟨_, rfl⟩

end Run

end FirstSeen
