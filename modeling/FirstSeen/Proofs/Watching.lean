import FirstSeen.Proofs.Obeying
import FirstSeen.Proofs.Requesting
import FirstSeen.Proofs.Tower.Ground

/-!
# Watching a sequence at its source

What a sequence over an iterable or a factory does with its source leaves few traces in a store: whether an iterator met
its end, or was closed, is told nowhere. Here the operations of such a sequence are run with a log. Whatever they do with
the source is noted there along with how it ended: iterating the data or calling the factory, drawing from an iterator,
closing one, and where pulls and rewinds begin.

Without their logs these are the operations of the sequence itself: they end alike and leave the same store.
-/

set_option autoImplicit false

namespace FirstSeen

/-- What a sequence does with its source. -/
inductive Dealing where
  /-- It begins to pull. -/
  | pulling
  /-- It iterates its data, or what its factory gives when it is called. -/
  | opening (result : Except Halt Feed)
  | drawing (feed : Feed) (result : Except Halt Value)
  /-- It begins to go back to its beginning. -/
  | rewinding
  | closing (feed : Feed) (result : Except Halt Unit)
  /-- It has gone back to its beginning. -/
  | rewound

/-- A computation over a store and a log. -/
abbrev Watched (α : Type) := ExceptT Halt (StateM (Store × List Dealing)) α

namespace Watched

open Run

variable {α β : Type}

/-- What a computation from a store and a log ends with, and the store and the log that it leaves. -/
def from? (watched : Watched α) (store : Store) (log : List Dealing) : Except Halt α × Store × List Dealing :=
  watched.run.run (store, log)

/-- A run of which nothing is noted. -/
def quiet (run : Run α) : Watched α :=
  ExceptT.mk fun (store, log) => ((run.from? store).1, (run.from? store).2, log)

/-- A run that is noted along with how it ends. -/
def noting (dealing : Except Halt α → Dealing) (run : Run α) : Watched α :=
  ExceptT.mk fun (store, log) => ((run.from? store).1, (run.from? store).2, log ++ [dealing (run.from? store).1])

/-- Notes something. -/
def note (dealing : Dealing) : Watched Unit := noting (fun _ => dealing) (pure ())

/-- Hands a fault to a handler. -/
def onFault (body : Watched α) (handler : Fault → Watched α) : Watched α :=
  tryCatch body fun halt =>
    match halt with
    | .fault fault => handler fault
    | .outOfFuel => throw .outOfFuel

/-! ## The operations of a sequence -/

/-- Pulls, with so many nested calls at most. -/
def pull (id : SequenceId) : (n : Nat) → Watched Value
  | 0 => throw .outOfFuel
  | n + 1 => do
    note .pulling
    let body := (← quiet (sequence id)).body
    if body.isGround then
      match body.feed with
      | some feed => noting (.drawing feed) ((calls n).draw feed)
      | none =>
        let feed ← noting .opening body.opener
        quiet (setBody id (body.withFeed (some feed)))
        noting (.drawing feed) ((calls n).draw feed)
    else quiet ((calls n).pullWith id)

/-- Hands out the next element. -/
def next (id : SequenceId) : (n : Nat) → Watched Value
  | 0 => throw .outOfFuel
  | n + 1 => do
    let state ← quiet (sequence id)
    match state.peeked with
    | some v =>
      quiet (updateSequence id fun state => { state with peeked := none })
      return v
    | none =>
      if state.exhausted then quiet (fail .ended)
      quiet (updateSequence id fun state => { state with started := true })
      onFault (pull id n) fun fault => quiet do
        if fault.isEnd then signalEnd id
        fail fault

/-- Resets what the sequence holds. -/
def reset (id : SequenceId) (n : Nat) : Watched Unit := do
  match (← quiet (sequence id)).body with
  | .produced factory size (some feed) =>
    noting (.closing feed) (closeFeed feed)
    quiet (setBody id (.produced factory size none))
  | _ => quiet ((calls n).reset id)

/-- Takes the sequence back to its beginning. -/
def rewind (id : SequenceId) : (n : Nat) → Watched Unit
  | 0 => throw .outOfFuel
  | n + 1 => do
    note .rewinding
    reset id n
    quiet (restart id)
    note .rewound

/-- The next element, which stays the next one. -/
def peek (id : SequenceId) (n : Nat) : Watched Value := do
  match (← quiet (sequence id)).peeked with
  | some v => return v
  | none =>
    let v ← next id n
    quiet (updateSequence id fun state => { state with peeked := some v })
    return v

/-- All further elements. -/
def gather (id : SequenceId) : (n : Nat) → List Value → Watched (List Value)
  | 0, _ => throw .outOfFuel
  | n + 1, earlier => do
    let drawn ← onFault (some <$> next id n) fun fault =>
      if fault.isEnd then pure none else quiet (fail fault)
    match drawn with
    | some v => gather id n (v :: earlier)
    | none => return earlier.reverse

/-- All elements. -/
def force (id : SequenceId) (n : Nat) : Watched (List Value) := do
  if (← quiet (sequence id)).started then rewind id n
  gather id n []

/-- A use of the sequence. -/
def use (id : SequenceId) (n : Nat) : Calls.Use → Watched (List Value)
  | .next => do return [← next id n]
  | .peek => do return [← peek id n]
  | .rewind => do
    rewind id n
    return []
  | .force => force id n

/-- What becomes of uses in turn, the store that they leave, and the log of all of them. -/
def uses (id : SequenceId) (n : Nat) :
    List Calls.Use → Store → List Dealing → List (Except Halt (List Value)) × Store × List Dealing
  | [], store, log => ([], store, log)
  | first :: rest, store, log =>
    let used := (use id n first).from? store log
    let later := uses id n rest used.2.1 used.2.2
    (used.1 :: later.1, later.2)

/-! ## Without the log -/

section

variable {watched : Watched α} {run : Run α} {store left : Store} {log more : List Dealing}

theorem from?_bind (watched : Watched α) (rest : α → Watched β) (store : Store) (log : List Dealing) :
    (watched >>= rest).from? store log =
      match watched.from? store log with
      | (.ok a, left, more) => (rest a).from? left more
      | (.error halt, left, more) => (.error halt, left, more) := by
  simp only [from?, ExceptT.run_bind, StateT.run_bind]
  rcases watched.run.run (store, log) with ⟨_ | _, left, more⟩ <;> rfl

theorem from?_bind_ok {rest : α → Watched β} {a : α} (ends : watched.from? store log = (.ok a, left, more)) :
    (watched >>= rest).from? store log = (rest a).from? left more := by
  rw [from?_bind, ends]

theorem from?_bind_error {rest : α → Watched β} {halt : Halt} (ends : watched.from? store log = (.error halt, left, more)) :
    (watched >>= rest).from? store log = (.error halt, left, more) := by
  rw [from?_bind, ends]

theorem from?_quiet (run : Run α) (store : Store) (log : List Dealing) :
    (quiet run).from? store log = ((run.from? store).1, (run.from? store).2, log) := rfl

theorem from?_noting (dealing : Except Halt α → Dealing) (run : Run α) (store : Store) (log : List Dealing) :
    (noting dealing run).from? store log =
      ((run.from? store).1, (run.from? store).2, log ++ [dealing (run.from? store).1]) := rfl

theorem from?_onFault (watched : Watched α) (handler : Fault → Watched α) (store : Store) (log : List Dealing) :
    (onFault watched handler).from? store log =
      match watched.from? store log with
      | (.error (.fault fault), left, more) => (handler fault).from? left more
      | (.error .outOfFuel, left, more) => (.error .outOfFuel, left, more)
      | (.ok a, left, more) => (.ok a, left, more) := by
  simp only [onFault, from?, ExceptT.run_tryCatch, StateT.run_bind]
  change (fun ended : Except Halt α × Store × List Dealing => StateT.run _ ended.2) (watched.run.run (store, log)) = _
  rcases watched.run.run (store, log) with ⟨(_ | _) | _, left, more⟩ <;> rfl

/-- Whether a watched run does what a run does, from a store on, and only adds to the log. -/
def Mirrors (watched : Watched α) (run : Run α) (store : Store) : Prop :=
  ∀ log, ∃ more, watched.from? store log = ((run.from? store).1, (run.from? store).2, log ++ more)

theorem mirrors_quiet (run : Run α) (store : Store) : (quiet run).Mirrors run store :=
  fun log => ⟨[], by rw [from?_quiet, List.append_nil]⟩

theorem mirrors_noting (dealing : Except Halt α → Dealing) (run : Run α) (store : Store) :
    (noting dealing run).Mirrors run store :=
  fun _ => ⟨_, from?_noting ..⟩

theorem mirrors_pure (a : α) (store : Store) : (pure a : Watched α).Mirrors (pure a) store :=
  mirrors_quiet (pure a) store

theorem mirrors_throw (halt : Halt) (store : Store) : (throw halt : Watched α).Mirrors (throw halt) store :=
  mirrors_quiet (throw halt) store

theorem Mirrors.bind {rest : α → Watched β} {rest' : α → Run β} (first : watched.Mirrors run store)
    (later : ∀ a left, run.from? store = (.ok a, left) → (rest a).Mirrors (rest' a) left) :
    (watched >>= rest).Mirrors (run >>= rest') store := by
  intro log
  obtain ⟨more, ends⟩ := first log
  rcases ended : run.from? store with ⟨halt | a, left⟩
  · rw [ended] at ends
    rw [from?_bind_error ends, Run.from?_bind_error ended]
    exact ⟨more, rfl⟩
  · rw [ended] at ends
    obtain ⟨further, ends'⟩ := later a left ended (log ++ more)
    rw [from?_bind_ok ends, Run.from?_bind_ok ended, ends', List.append_assoc]
    exact ⟨more ++ further, rfl⟩

theorem Mirrors.onFault {handler : Fault → Watched α} {handler' : Fault → Run α} (first : watched.Mirrors run store)
    (handled : ∀ fault left, (handler fault).Mirrors (handler' fault) left) :
    (Watched.onFault watched handler).Mirrors (Run.onFault run handler') store := by
  intro log
  obtain ⟨more, ends⟩ := first log
  rw [from?_onFault, Run.from?_onFault]
  rcases ended : run.from? store with ⟨(fault | _) | a, left⟩ <;> rw [ended] at ends <;> rw [ends]
  · obtain ⟨further, ends'⟩ := handled fault left (log ++ more)
    simp only [ends', List.append_assoc]
    exact ⟨more ++ further, rfl⟩
  · exact ⟨more, rfl⟩
  · exact ⟨more, rfl⟩

/-- A note changes nothing but the log. -/
theorem Mirrors.noted (first : watched.Mirrors run store) (dealing : Dealing) :
    (note dealing >>= fun _ => watched).Mirrors run store := by
  intro log
  obtain ⟨more, ends⟩ := first (log ++ [dealing])
  have noted : (note dealing).from? store log = (.ok (), store, log ++ [dealing]) := rfl
  rw [from?_bind_ok noted, ends, List.append_assoc]
  exact ⟨[dealing] ++ more, rfl⟩

variable (id : SequenceId)

theorem mirrors_pull (n : Nat) (store : Store) : (pull id n).Mirrors ((calls n).pull id) store := by
  cases n with
  | zero => exact mirrors_throw .outOfFuel store
  | succ n =>
    have drawn : ∀ feed left, (noting (.drawing feed) ((calls n).draw feed)).Mirrors ((calls n).draw feed) left :=
      fun feed left => mirrors_noting _ _ left
    refine .noted ?_ .pulling
    intro log
    change ∃ more, Watched.from? (if (store.sequence id).body.isGround = true then _ else _) store log =
      ((((calls n).pullWith id).from? store).1, (((calls n).pullWith id).from? store).2, log ++ more)
    cases ground : (store.sequence id).body.isGround with
    | false => exact mirrors_quiet _ store log
    | true =>
      rw [if_pos rfl, Store.from?_pullWith_ground (calls n) rfl ground]
      cases held : (store.sequence id).body.feed with
      | some feed => exact drawn feed store log
      | none =>
        refine Mirrors.bind (mirrors_noting _ _ _) (fun feed left _ => ?_) log
        exact (mirrors_quiet _ _).bind fun _ left _ => drawn feed left

theorem mirrors_next (n : Nat) (store : Store) : (next id n).Mirrors ((calls n).next id) store := by
  cases n with
  | zero => exact mirrors_throw .outOfFuel store
  | succ n =>
    refine (mirrors_quiet (sequence id) store).bind fun state left _ => ?_
    cases state.peeked with
    | some v => exact (mirrors_quiet _ _).bind fun _ left _ => mirrors_pure v left
    | none =>
      have pulled : ∀ left, (do
          quiet (updateSequence id fun state => { state with started := true })
          Watched.onFault (pull id n) fun fault => quiet do
            if fault.isEnd then signalEnd id
            fail fault).Mirrors (do
          updateSequence id fun state => { state with started := true }
          Run.onFault ((calls n).pull id) fun fault => do
            if fault.isEnd then signalEnd id
            fail fault) left := fun left =>
        (mirrors_quiet _ _).bind fun _ left _ => (mirrors_pull id n left).onFault fun fault left => mirrors_quiet _ left
      cases ended : state.exhausted with
      | true =>
        simp only [if_true]
        exact (mirrors_quiet _ _).bind fun _ left _ => pulled left
      | false =>
        simp only [Bool.false_eq_true, if_false]
        exact pulled left

theorem mirrors_reset (n : Nat) (store : Store) : (reset id n).Mirrors ((calls n).reset id) store := by
  intro log
  have looked : (reset id n).from? store log = Watched.from? (match (store.sequence id).body with
      | .produced factory size (some feed) => do
        noting (.closing feed) (closeFeed feed)
        quiet (setBody id (.produced factory size none))
      | _ => quiet ((calls n).reset id)) store log := rfl
  rw [looked]
  split
  · rename_i factory size feed form
    have resets : ((calls n).reset id).from? store = (do
        closeFeed feed
        setBody id (.produced factory size none)).from? store := by
      rw [Calls.reset, Run.from?_bind_ok (from?_sequence ..), form]
    rw [resets]
    exact Mirrors.bind (mirrors_noting _ _ _) (fun _ left _ => mirrors_quiet _ left) log
  · exact mirrors_quiet _ store log

theorem mirrors_rewind (n : Nat) (store : Store) : (rewind id n).Mirrors ((calls n).rewind id) store := by
  cases n with
  | zero => exact mirrors_throw .outOfFuel store
  | succ n =>
    refine .noted ?_ .rewinding
    exact (mirrors_reset id n store).bind fun _ left _ log => ⟨[.rewound], rfl⟩

theorem mirrors_peek (n : Nat) (store : Store) : (peek id n).Mirrors ((calls n).peek id) store := by
  refine (mirrors_quiet (sequence id) store).bind fun state left _ => ?_
  cases state.peeked with
  | some v => exact mirrors_pure v left
  | none =>
    refine (mirrors_next id n left).bind fun v left _ => ?_
    exact (mirrors_quiet _ _).bind fun _ left _ => mirrors_pure v left

theorem mirrors_gather (n : Nat) (earlier : List Value) (store : Store) :
    (gather id n earlier).Mirrors ((calls n).gather (.sequence id) earlier) store := by
  induction n generalizing earlier store with
  | zero => exact mirrors_throw .outOfFuel store
  | succ n ih =>
    have drawn : (Watched.onFault (some <$> next id n) fun fault =>
        if fault.isEnd then pure none else quiet (fail fault)).Mirrors
          (Run.onFault (some <$> (calls n).next id) fun fault => if fault.isEnd then pure none else fail fault) store := by
      refine Mirrors.onFault ?_ fun fault left => ?_
      · exact (mirrors_next id n store).bind fun v left _ => mirrors_pure (some v) left
      · split
        · exact mirrors_pure none left
        · exact mirrors_quiet _ left
    refine drawn.bind fun found left _ => ?_
    cases found with
    | none => exact mirrors_pure earlier.reverse left
    | some v => exact ih (v :: earlier) left

/-- Each use ends as it does without a log, and leaves the same store. -/
theorem mirrors_use (n : Nat) (use : Calls.Use) (store : Store) :
    (Watched.use id n use).Mirrors (use.run (calls n) id) store := by
  cases use with
  | next => exact (mirrors_next id n store).bind fun v left _ => mirrors_pure [v] left
  | peek => exact (mirrors_peek id n store).bind fun v left _ => mirrors_pure [v] left
  | rewind => exact (mirrors_rewind id n store).bind fun _ left _ => mirrors_pure [] left
  | force =>
    refine (mirrors_quiet (sequence id) store).bind fun state left _ => ?_
    have gathers : ∀ left, (gather id n []).Mirrors ((calls n).drain id) left := mirrors_gather id n []
    cases state.started with
    | true => exact (mirrors_rewind id n left).bind fun _ left _ => gathers left
    | false => exact gathers left

/-- Uses with a log end as they do without, and leave the same store. -/
theorem mirrors_uses (n : Nat) (all : List Calls.Use) (store : Store) (log : List Dealing) :
    (uses id n all store log).1 = (calls n).outcomes id all store ∧
      (uses id n all store log).2.1 = (calls n).leftBy id all store := by
  induction all generalizing store log with
  | nil => exact ⟨rfl, rfl⟩
  | cons first rest ih =>
    obtain ⟨more, ends⟩ := mirrors_use id n first store log
    obtain ⟨same, left⟩ := ih ((first.run (calls n) id).from? store).2 (log ++ more)
    rw [uses, Calls.outcomes, Calls.leftBy, ends, same, left]
    exact ⟨rfl, rfl⟩

end

end Watched

end FirstSeen
