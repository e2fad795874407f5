import FirstSeen.Proofs.Sources
import FirstSeen.Proofs.Tending

/-!
# The life cycle of a source

Each operation of a sequence over a factory, or over data that are no iterator, does with the source what is due: where it
stands with its source is told by the body of the sequence, by whether the sequence is exhausted, by how many iterators
there are and by how often the factory was called. So whatever is done with the sequence, it tends its source.
-/

set_option autoImplicit false

namespace FirstSeen

/-- Whether a sequence with this body lets go of its iterator at its end: it does if it is over a factory. -/
def Body.drops (body : Body) : Bool := body.factory?.isSome

/-- Whether the iterator that is held is there, and no stream. -/
def Store.Owns (store : Store) (held : Option Feed) : Prop :=
  ∀ feed, held = some feed → ∃ k : CursorId, feed = .cursor k ∧ k.index < store.cursors.size ∧
    (store.cursor k).isStream = false

theorem Store.owns_none (store : Store) : store.Owns none := fun _ same => by cases same

/-- The store once an end is signalled, if it was met. -/
def Store.concluded (store : Store) (id : SequenceId) : Except Halt Value → Store
  | .error (.fault fault) => if fault.isEnd then ((Run.signalEnd id).from? store).2 else store
  | _ => store

/-- Whether a sequence with this body stands with its source as told. -/
structure SequenceId.Tended (id : SequenceId) (origin : Body) (t : Tending) (store : Store) : Prop where
  inside : id.index < store.sequences.size
  body : (store.sequence id).body = origin.withFeed t.held
  exhausted : (store.sequence id).exhausted = t.ended
  iterators : store.cursors.size = t.iterators
  attempts : ∀ factory, origin.factory? = some factory → store.factoryCalls factory = t.attempts
  renews : origin.Renews store
  own : store.Owns t.held

namespace Watched

open Run

variable {α β : Type} {id : SequenceId} {origin : Body}

/-- Whether what a watched run does with the source is due, wherever the sequence stands with it. -/
def Tends (id : SequenceId) (origin : Body) (watched : Watched α) : Prop :=
  ∀ store t log, id.Tended origin t store → t.stage = .idle → ∃ ended left dealings,
    watched.from? store log = (ended, left, log ++ dealings) ∧ t.Lawful origin.drops dealings ∧
      id.Tended origin (t.reach origin.drops dealings) left ∧ (t.reach origin.drops dealings).stage = .idle

theorem Tends.bind {watched : Watched α} {rest : α → Watched β} (first : watched.Tends id origin)
    (later : ∀ a, (rest a).Tends id origin) : (watched >>= rest).Tends id origin := by
  intro store t log tended idle
  obtain ⟨ended, left, dealings, ends, lawful, tended, idle⟩ := first store t log tended idle
  cases ended with
  | error halt => exact ⟨_, left, dealings, from?_bind_error ends, lawful, tended, idle⟩
  | ok a =>
    obtain ⟨ended, last, more, ends', lawful', tended, idle⟩ := later a left _ (log ++ dealings) tended idle
    rw [← Tending.reach_append] at tended idle
    refine ⟨ended, last, dealings ++ more, ?_, Tending.lawful_append.mpr ⟨lawful, lawful'⟩, tended, idle⟩
    rw [from?_bind_ok ends, ends', List.append_assoc]

theorem Tends.onFault {watched : Watched α} {handler : Fault → Watched α} (first : watched.Tends id origin)
    (handled : ∀ fault, (handler fault).Tends id origin) : (onFault watched handler).Tends id origin := by
  intro store t log tended idle
  obtain ⟨ended, left, dealings, ends, lawful, tended, idle⟩ := first store t log tended idle
  rcases ended with (fault | _) | a
  · obtain ⟨ended, last, more, ends', lawful', tended, idle⟩ := handled fault left _ (log ++ dealings) tended idle
    rw [← Tending.reach_append] at tended idle
    refine ⟨ended, last, dealings ++ more, ?_, Tending.lawful_append.mpr ⟨lawful, lawful'⟩, tended, idle⟩
    rw [from?_onFault, ends]
    simp only [ends', List.append_assoc]
  · exact ⟨_, left, dealings, by rw [from?_onFault, ends], lawful, tended, idle⟩
  · exact ⟨_, left, dealings, by rw [from?_onFault, ends], lawful, tended, idle⟩

/-- A run of which nothing is noted does nothing with the source if the sequence stands with it as before. -/
theorem tends_quiet {run : Run α} (same : ∀ store t, id.Tended origin t store → id.Tended origin t (run.from? store).2) :
    (quiet run).Tends id origin := fun store t log tended idle =>
  ⟨_, _, [], by rw [from?_quiet, List.append_nil], trivial, same store t tended, idle⟩

theorem tends_pure (a : α) : (pure a : Watched α).Tends id origin :=
  show (quiet (pure a)).Tends id origin from tends_quiet fun _ _ tended => tended

/-- To look at a sequence does nothing with its source. -/
theorem tends_sequence : (quiet (sequence id)).Tends id origin := tends_quiet fun _ _ tended => tended

theorem tends_throw (halt : Halt) : (throw halt : Watched α).Tends id origin :=
  show (quiet (throw halt)).Tends id origin from tends_quiet fun _ _ tended => tended

end Watched

namespace SequenceId

open Store Run

variable {id : SequenceId} {origin : Body} {t : Tending} {store left : Store}

/-! ## Where a sequence stands -/

/-- The sequence may change, as long as its body does only by what it holds. -/
theorem Tended.updated (tended : id.Tended origin t store) {f : SequenceState → SequenceState} {held : Option Feed}
    {ended : Bool}
    (body : (f (store.sequence id)).body = origin.withFeed held) (exhausted : (f (store.sequence id)).exhausted = ended)
    (own : store.Owns held) :
    id.Tended origin { t with held := held, ended := ended } (store.updated id f) where
  inside := by simpa using tended.inside
  body := by rw [sequence_updated tended.inside, body]
  exhausted := by rw [sequence_updated tended.inside, exhausted]
  iterators := tended.iterators
  attempts := tended.attempts
  renews := SameCallables.body ⟨rfl, rfl, fun _ => rfl, rfl⟩ tended.renews
  own := own

/-- What is noted in the journal does not matter. -/
theorem Tended.told (tended : id.Tended origin t store) (notice : Notice) :
    id.Tended origin t ((tell notice).from? store).2 :=
  { tended with renews := SameCallables.body ⟨rfl, rfl, fun _ => rfl, rfl⟩ tended.renews }

/-- Iterators that moved or were closed do not matter. -/
theorem Tended.settled (tended : id.Tended origin t store) (settled : store.Settled left) : id.Tended origin t left where
  inside := by rw [settled.sequences]; exact tended.inside
  body := by rw [Store.sequence, settled.sequences]; exact tended.body
  exhausted := by rw [Store.sequence, settled.sequences]; exact tended.exhausted
  iterators := settled.added.trans tended.iterators
  attempts factory same := (settled.factoryCalls factory).trans (tended.attempts factory same)
  renews := settled.toSameCallables.body tended.renews
  own feed same := by
    obtain ⟨k, form, there, leaf⟩ := tended.own feed same
    exact ⟨k, form, Nat.lt_of_lt_of_le there settled.size, (settled.streams k there).trans leaf⟩

/-- At the end, a sequence over a factory lets go of its iterator. -/
theorem Tended.cleanUp (tended : id.Tended origin t store) :
    id.Tended origin { t with held := if origin.drops then none else t.held } ((Run.cleanUp id).from? store).2 := by
  have renews := tended.renews
  rw [Run.cleanUp, from?_bind_ok (from?_sequence ..), tended.body]
  cases origin with
  | iterable data feed => exact tended
  | produced factory size feed =>
    exact tended.updated (f := fun state => { state with body := .produced factory size none }) rfl tended.exhausted
      store.owns_none
  | _ => exact renews.elim

theorem Tended.signalEnd (tended : id.Tended origin t store) :
    id.Tended origin { t with held := if origin.drops then none else t.held, ended := true }
      ((Run.signalEnd id).from? store).2 := by
  have marked := tended.updated (f := fun state => { state with exhausted := true }) tended.body rfl tended.own
  rw [Run.signalEnd, from?_bind_ok (from?_updateSequence ..), from?_bind_ok (from?_sequence ..), from?_bind_ok (from?_tell ..)]
  exact (marked.told _).cleanUp

/-- Once the end is signalled if it was met, a sequence stands with its source as that tells. -/
theorem Tended.concluded (tended : id.Tended origin t store) (before : t.ended = false) (ended : Except Halt Value) :
    id.Tended origin
      { t with
        held := if origin.drops && metEnd ended then none else t.held
        ended := metEnd ended
        stage := .idle }
      (store.concluded id ended) := by
  have same : id.Tended origin { t with ended := false } store := by
    rw [← before]
    exact { tended with }
  rcases ended with (fault | _) | v
  · cases isEnd : fault.isEnd with
    | true =>
      have met : metEnd (.error (.fault fault) : Except Halt Value) = true := isEnd
      rw [Store.concluded, if_pos isEnd, met, Bool.and_true]
      exact { tended.signalEnd with }
    | false =>
      have unmet : metEnd (.error (.fault fault) : Except Halt Value) = false := isEnd
      rw [unmet, Bool.and_false, Store.concluded, isEnd, if_neg Bool.false_ne_true]
      exact { same with }
  · rw [show metEnd (.error .outOfFuel : Except Halt Value) = false from rfl, Bool.and_false]
    exact { same with }
  · rw [show metEnd (.ok v : Except Halt Value) = false from rfl, Bool.and_false]
    exact { same with }

/-- Back at the beginning the end is not met. -/
theorem Tended.restart (tended : id.Tended origin t store) :
    id.Tended origin { t with ended := false } ((Run.restart id).from? store).2 := by
  have begun := tended.updated (f := fun state => { state with started := false, exhausted := false, peeked := none })
    tended.body rfl tended.own
  rw [Run.restart, from?_bind_ok (from?_updateSequence ..), from?_bind_ok (from?_sequence ..)]
  exact begun.told _

/-- A sequence may hold another iterator that is there. -/
theorem Tended.refilled (tended : id.Tended origin t store) {held : Option Feed} (own : store.Owns held) :
    id.Tended origin { t with held := held } ((setBody id (origin.withFeed held)).from? store).2 :=
  tended.updated (f := fun state => { state with body := origin.withFeed held }) rfl tended.exhausted own

/-- What is opened is new, and then there. -/
theorem Tended.opened (tended : id.Tended origin t store) :
    let result := (origin.opener.from? store).1
    let left := (origin.opener.from? store).2
    id.Tended origin { t with iterators := left.cursors.size, attempts := t.attempts + 1 } left ∧
      (∀ feed, result = .ok feed →
        feed = .cursor ⟨t.iterators⟩ ∧ left.cursors.size = t.iterators + 1 ∧ left.Owns (some feed)) ∧
      ∀ halt, result = .error halt → left.cursors.size = t.iterators := by
  obtain ⟨⟨stays, new, none⟩, calls⟩ := opened_opener tended.renews
  refine ⟨?_, fun feed same => ?_, fun halt same => (none halt same).trans tended.iterators⟩
  · exact
    { inside := by rw [stays.sequences]; exact tended.inside
      body := by rw [Store.sequence, stays.sequences]; exact tended.body
      exhausted := by rw [Store.sequence, stays.sequences]; exact tended.exhausted
      iterators := rfl
      attempts := fun factory same => (calls factory same).trans (congrArg (· + 1) (tended.attempts factory same))
      renews := stays.toSameCallables.body tended.renews
      own := fun feed same => by
        obtain ⟨k, form, there, leaf⟩ := tended.own feed same
        exact ⟨k, form, Nat.lt_of_lt_of_le there stays.size, (stays.streams k there).trans leaf⟩ }
  · obtain ⟨rfl, size, leaf⟩ := new feed same
    rw [tended.iterators] at size
    refine ⟨by rw [tended.iterators], size, fun other same => ?_⟩
    cases same
    exact ⟨_, rfl, by rw [size, tended.iterators]; exact Nat.lt_succ_self _, leaf⟩

/-- Drawing from the iterator that is held only moves it on. -/
theorem Tended.drawn (tended : id.Tended origin t store) {feed : Feed} (holds : t.held = some feed) (n : Nat) :
    id.Tended origin t (((calls n).draw feed).from? store).2 := by
  obtain ⟨k, rfl, there, leaf⟩ := tended.own feed holds
  exact tended.settled (settles_advance k n store there leaf)

/-- Closing the iterator that is held only closes it. -/
theorem Tended.shut (tended : id.Tended origin t store) {feed : Feed} (holds : t.held = some feed) :
    id.Tended origin t ((closeFeed feed).from? store).2 := by
  obtain ⟨k, rfl, there, leaf⟩ := tended.own feed holds
  exact tended.settled (settles_closeCursor k store there leaf)

end SequenceId

namespace Watched

open Run Store

variable {α : Type} {id : SequenceId} {origin : Body} {t : Tending} {store : Store}

/-! ## What is due -/

/-- A pull is noted, and opens an iterator if none is held. -/
theorem from?_pull (tended : id.Tended origin t store) (n : Nat) (log : List Dealing) :
    (pull id (n + 1)).from? store log = Watched.from? (match t.held with
      | some feed => noting (.drawing feed) ((calls n).draw feed)
      | none => do
        let feed ← noting .opening origin.opener
        quiet (setBody id (origin.withFeed (some feed)))
        noting (.drawing feed) ((calls n).draw feed)) store (log ++ [.pulling]) := by
  have ground : origin.isGround = true := Body.Renews.ground tended.renews
  obtain ⟨opener, feed, refilled⟩ := Store.withFeed_ground ground t.held
  have ground' : (origin.withFeed t.held).isGround = true := by
    cases origin with
    | iterable | produced => rfl
    | _ => cases ground
  have looked : (pull id (n + 1)).from? store log = Watched.from? (
      let body := (store.sequence id).body
      if body.isGround then
        match body.feed with
        | some feed => noting (.drawing feed) ((calls n).draw feed)
        | none => do
          let feed ← noting .opening body.opener
          quiet (setBody id (body.withFeed (some feed)))
          noting (.drawing feed) ((calls n).draw feed)
      else quiet ((calls n).pullWith id)) store (log ++ [.pulling]) := rfl
  rw [looked, tended.body]
  simp only [ground', if_true, feed, opener, refilled]

/-- A pull does what is due, and until an end is signalled the sequence stands with its source as if it had not met it. -/
theorem pulled (tended : id.Tended origin t store) (idle : t.stage = .idle) (before : t.ended = false) (n : Nat)
    (log : List Dealing) : ∃ ended left dealings s,
      (pull id n).from? store log = (ended, left, log ++ dealings) ∧ t.Lawful origin.drops dealings ∧
        id.Tended origin s left ∧ s.ended = false ∧ t.reach origin.drops dealings =
          { s with held := if origin.drops && metEnd ended then none else s.held, ended := metEnd ended, stage := .idle } := by
  obtain ⟨held, ended, stage, iterators, attempts⟩ := t
  obtain rfl : ended = false := before
  obtain rfl : stage = .idle := idle
  cases n with
  | zero =>
    refine ⟨.error .outOfFuel, store, [], _, by rw [List.append_nil]; rfl, trivial, tended, rfl, ?_⟩
    rw [show metEnd (.error .outOfFuel : Except Halt Value) = false from rfl, Bool.and_false]
    rfl
  | succ n =>
    rw [from?_pull tended]
    cases held with
    | some feed =>
      refine ⟨(((calls n).draw feed).from? store).1, _, [.pulling, .drawing feed (((calls n).draw feed).from? store).1], _, ?_,
        ⟨⟨rfl, rfl⟩, ⟨rfl, rfl⟩, trivial⟩, tended.drawn rfl n, rfl, rfl⟩
      exact (from?_noting ..).trans (by rw [List.append_assoc]; rfl)
    | none =>
      obtain ⟨opened, new, none⟩ := tended.opened
      have noted := from?_noting .opening origin.opener store (log ++ [.pulling])
      rcases ends : origin.opener.from? store with ⟨halt | feed, left⟩ <;> rw [ends] at opened new none noted
      · obtain size := none halt rfl
        refine ⟨.error halt, left, [.pulling, .opening (.error halt)], _, ?_,
          ⟨⟨rfl, rfl⟩, ⟨rfl, rfl, rfl, nofun⟩, trivial⟩, opened, rfl, ?_⟩
        · exact (from?_bind_error noted).trans (by rw [List.append_assoc]; rfl)
        · rw [size, ite_self]
          cases halt <;> rfl
      · obtain ⟨rfl, size, own⟩ := new feed rfl
        have refilled := opened.refilled own
        let drawn := ((calls n).draw (.cursor ⟨iterators⟩)).from?
          ((setBody id (origin.withFeed (some (.cursor ⟨iterators⟩)))).from? left).2
        refine ⟨drawn.1, drawn.2,
          [.pulling, .opening (.ok (.cursor ⟨iterators⟩)), .drawing (.cursor ⟨iterators⟩) drawn.1], _, ?_,
          ⟨⟨rfl, rfl⟩, ⟨rfl, rfl, rfl, fun _ same => (by cases same; rfl)⟩, ⟨rfl, rfl⟩, trivial⟩,
          refilled.drawn rfl n, rfl, ?_⟩
        · refine (from?_bind_ok noted).trans ?_
          rw [from?_bind_ok (from?_quiet ..), from?_noting]
          simp only [List.append_assoc]
          rfl
        · rw [size]
          rfl

/-- What is handed on of something concludes it. -/
theorem from?_concluding {watched : Watched Value} {ended : Except Halt Value} {left : Store} {log more : List Dealing}
    (ends : watched.from? store log = (ended, left, more)) :
    (onFault watched fun fault => quiet do
      if fault.isEnd then signalEnd id
      fail fault).from? store log = (ended, left.concluded id ended, more) := by
  rw [from?_onFault, ends]
  rcases ended with (fault | _) | v
  · rw [Store.concluded]
    simp only
    split
    · obtain ⟨after, signalled⟩ := signalEnd_ends left id
      rw [from?_quiet, Run.from?_bind_ok signalled, signalled]
      rfl
    · rfl
  · rfl
  · rfl

/-- Asking for the next element does what is due. -/
theorem tends_next (id : SequenceId) (origin : Body) (n : Nat) : (next id n).Tends id origin := by
  cases n with
  | zero => exact tends_throw .outOfFuel
  | succ n =>
    intro store t log tended idle
    rw [next, from?_bind_ok (from?_quiet ..)]
    simp only [Run.from?_sequence]
    cases (store.sequence id).peeked with
    | some v =>
      have handed := tended.updated (f := fun state => { state with peeked := none }) tended.body tended.exhausted tended.own
      exact ⟨.ok v, _, [], by rw [List.append_nil]; rfl, trivial, handed, idle⟩
    | none =>
      rw [tended.exhausted]
      cases before : t.ended with
      | true => exact ⟨.error (.fault .ended), store, [], by rw [List.append_nil]; rfl, trivial, tended, idle⟩
      | false =>
        have begun := tended.updated (f := fun state => { state with started := true }) tended.body tended.exhausted tended.own
        obtain ⟨ended, left, dealings, s, ends, lawful, stands, unmet, reached⟩ := pulled begun idle before n log
        exact ⟨ended, left.concluded id ended, dealings, from?_concluding ends, lawful,
          reached ▸ stands.concluded unmet ended, congrArg Tending.stage reached⟩

/-- Resetting only lets go of what the sequence holds, unless that was given by a factory. -/
theorem from?_reset_quiet (tended : id.Tended origin t store) (free : origin.drops = true → t.held = none) (n : Nat)
    (log : List Dealing) :
    (reset id n).from? store log = (.ok (), ((setBody id (origin.withFeed none)).from? store).2, log) := by
  have renews := tended.renews
  have body := tended.body
  cases origin with
  | iterable data feed =>
    have plain : Store.isOneShot data = false := renews
    have looked : (reset id n).from? store log = (quiet ((calls n).reset id)).from? store log := by
      rw [reset, from?_bind_ok (from?_quiet ..)]
      simp only [Run.from?_sequence, body]
      rfl
    have resets : ((calls n).reset id).from? store = (setBody id (.iterable data none)).from? store := by
      rw [Calls.reset, Run.from?_bind_ok (from?_sequence ..), body]
      simp only [Body.withFeed, plain, Bool.false_and, Bool.false_eq_true, if_false]
    rw [looked, from?_quiet, resets]
    rfl
  | produced factory size feed =>
    rw [free rfl] at body
    have looked : (reset id n).from? store log = (quiet ((calls n).reset id)).from? store log := by
      rw [reset, from?_bind_ok (from?_quiet ..)]
      simp only [Run.from?_sequence, body]
      rfl
    have resets : ((calls n).reset id).from? store = (setBody id (.produced factory size none)).from? store := by
      rw [Calls.reset, Run.from?_bind_ok (from?_sequence ..), body]
      rfl
    rw [looked, from?_quiet, resets]
    rfl
  | _ => exact renews.elim

/-- Resetting closes the iterator that is held if a factory gave it. -/
theorem from?_reset_closing (tended : id.Tended origin t store) (drops : origin.drops = true) {feed : Feed}
    (holds : t.held = some feed) (n : Nat) (log : List Dealing) :
    (reset id n).from? store log = Watched.from? (do
      noting (.closing feed) (closeFeed feed)
      quiet (setBody id (origin.withFeed none))) store log := by
  have body := tended.body
  rw [holds] at body
  cases origin with
  | produced factory size feed' =>
    rw [reset, from?_bind_ok (from?_quiet ..)]
    simp only [Run.from?_sequence, body]
    rfl
  | _ => cases drops

/-- Back at the beginning, a sequence holds no iterator. -/
theorem tended_rewound (tended : id.Tended origin t store) :
    id.Tended origin { t with held := none, ended := false, stage := .idle }
      ((restart id).from? ((setBody id (origin.withFeed none)).from? store).2).2 :=
  { (tended.refilled store.owns_none).restart with }

/-- Going back to the beginning does what is due. -/
theorem tends_rewind (id : SequenceId) (origin : Body) (n : Nat) : (rewind id n).Tends id origin := by
  cases n with
  | zero => exact tends_throw .outOfFuel
  | succ n =>
    intro store t log tended idle
    have restarted : ∀ left more, (quiet (restart id) >>= fun _ => note .rewound).from? left more =
        (.ok (), ((restart id).from? left).2, more ++ [.rewound]) := fun _ _ => rfl
    have begun : (rewind id (n + 1)).from? store log = (do
        reset id n
        quiet (restart id)
        note .rewound : Watched Unit).from? store (log ++ [.rewinding]) := rfl
    rw [begun]
    by_cases free : origin.drops = true → t.held = none
    · have rewound := tended_rewound tended
      refine ⟨.ok (), _, [.rewinding, .rewound], ?_, ⟨idle, ⟨rfl, free⟩, trivial⟩, rewound, rfl⟩
      rw [from?_bind_ok (from?_reset_quiet tended free n _), restarted, List.append_assoc]
      rfl
    · obtain ⟨drops, holds⟩ := Classical.not_imp.mp free
      obtain ⟨feed, holds⟩ := Option.ne_none_iff_exists'.mp holds
      have shut := tended.shut holds
      have closes := from?_reset_closing tended drops holds n (log ++ [.rewinding])
      have noted := from?_noting (.closing feed) (closeFeed feed) store (log ++ [.rewinding])
      rcases ends : (closeFeed feed).from? store with ⟨halt | _, left⟩ <;> rw [ends] at shut noted
      · refine ⟨.error halt, left, [.rewinding, .closing feed (.error halt)], ?_,
          ⟨idle, ⟨rfl, holds, drops⟩, trivial⟩, { shut with }, rfl⟩
        rw [from?_bind_error (closes.trans (from?_bind_error noted)), List.append_assoc]
        rfl
      · have rewound := tended_rewound shut
        refine ⟨.ok (), _, [.rewinding, .closing feed (.ok ()), .rewound], ?_,
          ⟨idle, ⟨rfl, holds, drops⟩, ⟨rfl, fun _ => rfl⟩, trivial⟩, rewound, rfl⟩
        have reset : (Watched.reset id n).from? store (log ++ [.rewinding]) =
            (.ok (), ((setBody id (origin.withFeed none)).from? left).2,
              log ++ [.rewinding] ++ [.closing feed (.ok ())]) := closes.trans (from?_bind_ok noted)
        rw [from?_bind_ok reset, restarted]
        simp only [List.append_assoc]
        rfl

theorem tends_peek (id : SequenceId) (origin : Body) (n : Nat) : (peek id n).Tends id origin := by
  refine tends_sequence.bind fun state => ?_
  cases state.peeked with
  | some v => exact tends_pure v
  | none =>
    refine (tends_next id origin n).bind fun v => ?_
    have awaiting : ∀ store t, id.Tended origin t store → id.Tended origin t
        ((updateSequence id fun state => { state with peeked := some v }).from? store).2 := fun store t tended =>
      tended.updated (f := fun state => { state with peeked := some v }) tended.body tended.exhausted tended.own
    exact (tends_quiet awaiting).bind fun _ => tends_pure v

theorem tends_gather (id : SequenceId) (origin : Body) (n : Nat) (earlier : List Value) :
    (gather id n earlier).Tends id origin := by
  induction n generalizing earlier with
  | zero => exact tends_throw .outOfFuel
  | succ n ih =>
    have drawn : (onFault (some <$> next id n) fun fault =>
        if fault.isEnd then pure none else quiet (fail fault)).Tends id origin := by
      refine Tends.onFault ((tends_next id origin n).bind fun v => tends_pure (some v)) fun fault => ?_
      split
      · exact tends_pure none
      · exact tends_quiet fun _ _ tended => tended
    refine drawn.bind fun found => ?_
    cases found with
    | none => exact tends_pure earlier.reverse
    | some v => exact ih (v :: earlier)

/-- Each use does what is due. -/
theorem tends_use (id : SequenceId) (origin : Body) (n : Nat) (use : Calls.Use) : (Watched.use id n use).Tends id origin := by
  cases use with
  | next => exact (tends_next id origin n).bind fun v => tends_pure [v]
  | peek => exact (tends_peek id origin n).bind fun v => tends_pure [v]
  | rewind => exact (tends_rewind id origin n).bind fun _ => tends_pure []
  | force =>
    refine tends_sequence.bind fun state => ?_
    cases state.started with
    | true => exact (tends_rewind id origin n).bind fun _ => tends_gather id origin n []
    | false => exact tends_gather id origin n []

/-- Uses in turn do what is due. -/
theorem tends_uses (tended : id.Tended origin t store) (idle : t.stage = .idle) (n : Nat) (all : List Calls.Use)
    (log : List Dealing) : ∃ dealings, (uses id n all store log).2.2 = log ++ dealings ∧ t.Lawful origin.drops dealings ∧
      id.Tended origin (t.reach origin.drops dealings) (uses id n all store log).2.1 ∧
      (t.reach origin.drops dealings).stage = .idle := by
  induction all generalizing store t log with
  | nil => exact ⟨[], (List.append_nil log).symm, trivial, tended, idle⟩
  | cons first rest ih =>
    obtain ⟨ended, left, dealings, ends, lawful, tended, idle⟩ := tends_use id origin n first store t log tended idle
    obtain ⟨more, logged, lawful', tended, idle⟩ := ih tended idle (log ++ dealings)
    rw [← Tending.reach_append] at tended idle
    rw [uses, ends]
    exact ⟨dealings ++ more, by rw [logged, List.append_assoc], Tending.lawful_append.mpr ⟨lawful, lawful'⟩, tended, idle⟩

/-- Where a sequence stands that holds no iterator. -/
theorem tended_free (inside : id.index < store.sequences.size) (free : (store.sequence id).body.feed = none)
    (renews : (store.sequence id).body.Renews store) : ∃ calls, id.Tended (store.sequence id).body
      { ended := (store.sequence id).exhausted, iterators := store.cursors.size, attempts := calls } store := by
  have same : (store.sequence id).body = (store.sequence id).body.withFeed none := by
    rw [← free, withFeed_feed]
  refine ⟨((store.sequence id).body.factory?.map store.factoryCalls).getD 0, inside, same, rfl, rfl, ?_, renews,
    store.owns_none⟩
  intro factory found
  rw [found]
  rfl

/-- However a sequence over a factory that gives new iterators is used, or one over data that are no iterator, from when it
holds no iterator, it tends its source: this is what the log of the uses tells, without which they end alike and leave the
same store. The iterator that is held is told by the log, those that were opened are new, and the factory was called once for
each attempt to open. -/
theorem uses_tend_source (inside : id.index < store.sequences.size) (free : (store.sequence id).body.feed = none)
    (renews : (store.sequence id).body.Renews store) (n : Nat) (all : List Calls.Use) :
    let body := (store.sequence id).body
    let (outcomes, left, log) := uses id n all store []
    (outcomes = (calls n).outcomes id all store ∧ left = (calls n).leftBy id all store) ∧
      Dealing.Tends body.drops log ∧ (left.sequence id).body = body.withFeed (Dealing.held body.drops log) ∧
      (∀ feed ∈ log.filterMap Dealing.opened?, ∃ k : CursorId, feed = .cursor k ∧ store.cursors.size ≤ k.index) ∧
      left.cursors.size = store.cursors.size + (log.filterMap Dealing.opened?).length ∧
      ∀ factory, body.factory? = some factory →
        left.factoryCalls factory = store.factoryCalls factory + (log.filterMap Dealing.attempt?).length := by
  obtain ⟨attempts, tended⟩ := tended_free inside free renews
  obtain ⟨log, logged, lawful, stands, idle⟩ := tends_uses tended rfl n all []
  rw [List.nil_append] at logged
  have accounts := Tending.Accounts.run (Tending.accounts_nil rfl) lawful
  refine ⟨mirrors_uses id n all store [], ?_, ?_, ?_, ?_, fun factory found => ?_⟩ <;> rw [logged]
  · exact lawful.tends rfl rfl idle
  · rw [stands.body, Tending.reach_held_of_none rfl]
  · intro feed member
    obtain ⟨k, form, low, -⟩ := accounts.new feed member
    exact ⟨k, form, low⟩
  · rw [stands.iterators, Tending.reach_iterators]
  · rw [stands.attempts factory found, Tending.reach_attempts, tended.attempts factory found]

/-- A sequence over a generator of two elements, whose closing is counted. -/
def replayed : Store where
  sequences := #[{ body := .produced (.object (.source ⟨0⟩)) .null none }]
  sources := #[{ typeName := "function"
                 meter := ⟨0⟩
                 product := some (.generator (.ofValues [.int 1, .int 2]) (.counted none)) }]
  meters := #[{}]

/-- After the first element and a rewind, the factory is called again for all elements: one iterator was closed, and one met
its end. -/
theorem uses_tend_source_replayed :
    let log := (uses ⟨0⟩ 8 [.next, .rewind, .force] replayed []).2.2
    Dealing.Tends true log ∧ (log.filterMap Dealing.opened?).length = 2 ∧
      ((calls 8).leftBy ⟨0⟩ [.next, .rewind, .force] replayed).factoryCalls (.object (.source ⟨0⟩)) = 2 := by
  have renews : (replayed.sequence ⟨0⟩).body.Renews replayed :=
    ⟨⟨rfl, Nat.one_pos⟩, fun product made => by cases made; trivial⟩
  have tends := @uses_tend_source ⟨0⟩ replayed Nat.one_pos rfl renews 8 [.next, .rewind, .force]
  exact ⟨tends.2.1, by decide +kernel, by decide +kernel⟩

end Watched

end FirstSeen
