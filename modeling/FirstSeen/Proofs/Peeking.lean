import FirstSeen.Proofs.History.Beginning
import FirstSeen.Proofs.Lasting
import FirstSeen.Traversal

/-!
# Peeking is transparent

Peeking at any sequence, in any store, fails exactly where asking for the next element would, and leaves the same store
then. If it gives an element, then it gives that element again without changing anything, the next element is that
element and is handed out without a pull, and the store that is left is the one that a single request for the next
element leaves.

So if requests and peeks that are mixed in any order give elements and ends only, then the requests give the same without
the peeks. An error in between would make a difference: a source may go on after it, and peeking meets it first.
-/

set_option autoImplicit false

namespace FirstSeen

/-- Handing out what waits changes nothing if nothing waits. -/
theorem SequenceState.handed_unawaited {state : SequenceState} (unawaited : state.Unawaited) :
    { state with peeked := none } = state := by
  cases state
  cases unawaited
  rfl

namespace Store

variable {store : Store} {id : SequenceId} {v : Value}

/-- The store in which an element of a sequence waits to be handed out. -/
def awaiting (store : Store) (id : SequenceId) (v : Value) : Store :=
  store.updated id fun state => { state with peeked := some v }

/-- The store in which what waited was handed out. -/
def handedOut (store : Store) (id : SequenceId) : Store := store.updated id fun state => { state with peeked := none }

/-- An element that waits where none waited before leaves nothing behind when it is handed out. -/
theorem handedOut_awaiting (unawaited : (store.sequence id).Unawaited) : (store.awaiting id v).handedOut id = store := by
  have same : (store.sequences.modify id.index fun state => { state with peeked := some v }).modify id.index
      (fun state => { state with peeked := none }) = store.sequences := by
    ext i inside inside'
    · simp
    · by_cases here : id.index = i
      · subst here
        have state : store.sequence id = store.sequences[id.index] := by
          simp [Store.sequence, Array.getD_eq_getD_getElem?, inside']
        simp only [Array.getElem_modify, if_true]
        exact SequenceState.handed_unawaited (state ▸ unawaited)
      · simp [Array.getElem_modify, here]
  simp only [handedOut, awaiting, updated, same]

end Store

namespace Calls

open Run Store

variable {c : Calls} {store left : Store} {id : SequenceId} {v : Value}

/-! ## One request -/

/-- Looking at an element that waits changes nothing. -/
theorem peek_awaited (peeked : (store.sequence id).peeked = some v) : (c.peek id).from? store = (.ok v, store) := by
  rw [peek, from?_bind_ok (from?_sequence ..), peeked]
  rfl

/-- An element that waits is handed out without asking for one. -/
theorem next_awaited (peeked : (store.sequence id).peeked = some v) :
    (c.nextWith id).from? store = (.ok v, store.handedOut id) := by
  rw [nextWith, from?_bind_ok (from?_sequence ..), peeked]
  rfl

/-- If no element waits, peeking asks for one and makes it wait. -/
theorem peek_unawaited (unawaited : (store.sequence id).Unawaited) :
    (c.peek id).from? store = match (c.next id).from? store with
      | (.ok v, left) => (.ok v, left.awaiting id v)
      | (.error halt, left) => (.error halt, left) := by
  rw [peek, from?_bind_ok (from?_sequence ..), unawaited, from?_bind]
  rcases (c.next id).from? store with ⟨_ | _, left⟩ <;> rfl

/-- At the end, asking for the next element fails and changes nothing. -/
theorem next_over (isOver : (store.sequence id).Over) : (c.nextWith id).from? store = (.error (.fault .ended), store) := by
  rw [nextWith, from?_bind_ok (from?_sequence ..), isOver.2]
  simp only [isOver.1, if_true]
  rfl

/-- If no element waits and the end was not met, asking for the next element pulls. -/
theorem next_unawaited (unawaited : (store.sequence id).Unawaited) (before : (store.sequence id).exhausted = false) :
    (c.nextWith id).from? store =
      match (c.pull id).from? (store.updated id fun state => { state with started := true }) with
      | (.ok v, left) => (.ok v, left)
      | (.error (.fault fault), left) =>
        (.error (.fault fault), if fault.isEnd then ((signalEnd id).from? left).2 else left)
      | (.error .outOfFuel, left) => (.error .outOfFuel, left) := by
  rw [nextWith, from?_bind_ok (from?_sequence ..), unawaited]
  simp only [before, Bool.false_eq_true, if_false]
  rw [from?_bind_ok (from?_updateSequence ..), from?_onFault]
  unfold updated
  generalize (c.pull id).from? _ = pulled
  rcases pulled with ⟨(fault | _) | v, left⟩
  · simp only
    split
    · obtain ⟨after, signalled⟩ := signalEnd_ends left id
      rw [from?_bind_ok signalled, signalled]
      rfl
    · rfl
  · rfl
  · rfl

/-- No element can be pulled where there is no sequence, and no end is signalled there. -/
theorem pull_outside (n : Nat) (outside : ¬id.index < store.sequences.size) :
    ∃ halt, ((calls n).pull id).from? store = (.error halt, store) ∧ ∀ fault, halt = .fault fault → fault.isEnd = false := by
  cases n with
  | zero => exact ⟨.outOfFuel, rfl, fun _ same => by cases same⟩
  | succ n =>
    have absent : store.sequence id = default := sequence_outside outside
    refine ⟨.fault .notImplemented, ?_, fun fault same => by cases same; rfl⟩
    change ((calls n).pullWith id).from? store = _
    rw [pullWith, from?_bind_ok (from?_sequence ..), absent]
    rfl

/-- Asking for the next element does not make one wait. -/
theorem unawaited_next {n : Nat} {ended : Except Halt Value} (unawaited : (store.sequence id).Unawaited)
    (ends : ((calls n).next id).from? store = (ended, left)) : (left.sequence id).Unawaited := by
  have lasts : Lasts SequenceState.Unawaited id store _ := (lasts_calls id n).next id store
  rw [ends] at lasts
  exact lasts.lasts (.inr fun _ _ => rfl) unawaited

/-- A sequence that hands out an element is there, and stays there. -/
theorem inside_of_next {n : Nat} (unawaited : (store.sequence id).Unawaited)
    (ends : ((calls n).next id).from? store = (.ok v, left)) : id.index < left.sequences.size := by
  have lasts : Lasts SequenceState.Unawaited id store _ := (lasts_calls id n).next id store
  rw [ends] at lasts
  refine Nat.lt_of_lt_of_le (Decidable.byContradiction fun outside => ?_) lasts.size
  cases n with
  | zero => cases ends
  | succ n =>
    have absent : store.sequence id = default := sequence_outside outside
    change ((calls n).nextWith id).from? store = _ at ends
    rw [next_unawaited unawaited (by rw [absent]; rfl)] at ends
    have outside' : ¬id.index < (store.updated id fun state => { state with started := true }).sequences.size := by
      simpa using outside
    obtain ⟨halt, pulled, -⟩ := pull_outside n outside'
    rw [pulled] at ends
    rcases halt with fault | _ <;> cases ends

/-- Signalling the end of a sequence that is there leaves what waited, and marks it as exhausted. -/
theorem sequence_signalEnd (inside : id.index < store.sequences.size) :
    ∃ body, ((signalEnd id).from? store).2.sequence id = { store.sequence id with exhausted := true, body := body } := by
  let marked := store.updated id fun state => { state with exhausted := true }
  have state : marked.sequence id = { store.sequence id with exhausted := true } := sequence_updated inside
  have inside' : id.index < marked.sequences.size := by simpa [marked] using inside
  have body : ∀ (journal : Array Notice) (body : Body),
      (({ marked with journal := journal } : Store).updated id fun state => { state with body := body }).sequence id =
        { store.sequence id with exhausted := true, body := body } := by
    intro journal body
    rw [sequence_updated (by exact inside')]
    exact congrArg (fun state : SequenceState => { state with body := body }) state
  rw [signalEnd, from?_bind_ok (from?_updateSequence ..), from?_bind_ok (from?_sequence ..),
    from?_bind_ok (from?_tell ..), cleanUp, from?_bind_ok (from?_sequence ..)]
  split
  · exact ⟨_, body _ _⟩
  · exact ⟨_, body _ _⟩
  · exact ⟨_, state⟩

/-- Where asking for the next element met an end, the sequence is over. -/
theorem over_of_next {n : Nat} {fault : Fault} (isEnd : fault.isEnd = true)
    (ends : ((calls n).next id).from? store = (.error (.fault fault), left)) : (left.sequence id).Over := by
  cases n with
  | zero => cases ends
  | succ n =>
    change ((calls n).nextWith id).from? store = _ at ends
    cases waiting : (store.sequence id).peeked with
    | some v =>
      rw [next_awaited waiting] at ends
      cases ends
    | none =>
      cases met : (store.sequence id).exhausted with
      | true =>
        rw [next_over ⟨met, waiting⟩] at ends
        cases ends
        exact ⟨met, waiting⟩
      | false =>
        rw [next_unawaited waiting met] at ends
        have lasts : Lasts SequenceState.Unawaited id store _ :=
          ((lasts_updateSequence id (by exact fun _ => SequenceState.Lasting.begun)).bind fun _ =>
            (lasts_calls id n).pull id) store
        rw [from?_bind_ok (from?_updateSequence ..)] at lasts
        change Lasts _ id store (((calls n).pull id).from? (store.updated id fun state => { state with started := true })).2
          at lasts
        rcases pulled : ((calls n).pull id).from? (store.updated id fun state => { state with started := true }) with
          ⟨(fault' | _) | v, between⟩ <;> rw [pulled] at ends lasts <;> cases ends
        -- The pull met the end, so that there is a sequence, which is marked.
        have inside : id.index < store.sequences.size := Decidable.byContradiction fun outside => by
          have outside' : ¬id.index < (store.updated id fun state => { state with started := true }).sequences.size := by
            simpa using outside
          obtain ⟨halt, fails, noEnd⟩ := pull_outside n outside'
          rw [pulled] at fails
          cases fails
          rw [noEnd fault rfl] at isEnd
          cases isEnd
        have unawaited := lasts.lasts (.inr fun _ _ => rfl) waiting
        obtain ⟨body, state⟩ := sequence_signalEnd (Nat.lt_of_lt_of_le inside lasts.size)
        rw [if_pos isEnd, SequenceState.Over, state]
        exact ⟨rfl, unawaited⟩

/-! ## Peeking -/

/-- What peeking at a sequence comes to, told by what asking for the next element comes to. -/
structure PeeksThrough (n : Nat) (id : SequenceId) (store : Store) : Prop where
  /-- Peeking fails as asking for the next element does, and leaves the same store. -/
  fails : ∀ halt left, ((calls (n + 1)).peek id).from? store = (.error halt, left) ↔
    ((calls (n + 1)).next id).from? store = (.error halt, left)
  /-- Peeking again gives the same element and changes nothing, though no calls are allowed. -/
  again : ∀ v looked, ((calls (n + 1)).peek id).from? store = (.ok v, looked) →
    ∀ m, ((calls m).peek id).from? looked = (.ok v, looked)
  /-- The next element is the one that was peeked at. It is handed out though no calls are allowed. -/
  next : ∀ v looked, ((calls (n + 1)).peek id).from? store = (.ok v, looked) →
    ∀ m, ((calls (m + 1)).next id).from? looked = (.ok v, looked.handedOut id)
  /-- Without peeking, the same element comes and leaves the same store. -/
  same : ∀ v looked, ((calls (n + 1)).peek id).from? store = (.ok v, looked) →
    ((calls (n + 1)).next id).from? store = (.ok v, looked.handedOut id)

theorem peeksThrough (n : Nat) (id : SequenceId) (store : Store) : PeeksThrough n id store := by
  cases waiting : (store.sequence id).peeked with
  | some w =>
    -- The element waits already: peeking changes nothing.
    have peeks : ∀ m, ((calls m).peek id).from? store = (.ok w, store) := fun m => peek_awaited waiting
    have nexts : ∀ m, ((calls (m + 1)).next id).from? store = (.ok w, store.handedOut id) := fun m => next_awaited waiting
    refine ⟨fun halt left => ?_, fun v looked ends => ?_, fun v looked ends => ?_, fun v looked ends => ?_⟩
    · rw [peeks, nexts]
      exact ⟨nofun, nofun⟩
    · rw [peeks] at ends
      cases ends
      exact peeks
    · rw [peeks] at ends
      cases ends
      exact nexts
    · rw [peeks] at ends
      cases ends
      exact nexts n
  | none =>
    have peeks := peek_unawaited (c := calls (n + 1)) waiting
    rcases ends : ((calls (n + 1)).next id).from? store with ⟨halt | w, left⟩ <;> rw [ends] at peeks
    · have never : ∀ {v looked}, ((calls (n + 1)).peek id).from? store ≠ (.ok v, looked) := fun same => by
        rw [peeks] at same
        cases same
      exact ⟨fun _ _ => by rw [peeks, ends], fun _ _ same => absurd same never, fun _ _ same => absurd same never,
        fun _ _ same => absurd same never⟩
    · -- The element was pulled: it waits in the store that the pull left.
      have unawaited := unawaited_next waiting ends
      have waits : ((left.awaiting id w).sequence id).peeked = some w := by
        rw [awaiting, sequence_updated (inside_of_next waiting ends)]
      refine ⟨fun halt left => ?_, fun v looked same => ?_, fun v looked same => ?_, fun v looked same => ?_⟩
      · rw [peeks, ends]
        exact ⟨nofun, nofun⟩
      · rw [peeks] at same
        cases same
        exact fun m => peek_awaited waits
      · rw [peeks] at same
        cases same
        exact fun m => next_awaited waits
      · rw [peeks] at same
        cases same
        rw [ends, handedOut_awaiting unawaited]

/-! ## Many requests -/

/-- A request: for the next element, or for a look at it. -/
inductive Ask where
  | next
  | peek
deriving DecidableEq

/-- What a request asks of a sequence. -/
def Ask.run (c : Calls) (id : SequenceId) : Ask → Run Value
  | .next => c.next id
  | .peek => c.peek id

/-- Requests in turn, each with its outcome. -/
def replies (c : Calls) (id : SequenceId) : List Ask → Store → List (Ask × Except Halt Value)
  | [], _ => []
  | ask :: rest, store =>
    let (reply, left) := (ask.run c id).from? store
    (ask, reply) :: c.replies id rest left

/-- An outcome that is no error: an element, or none at an end. -/
def calm? : Except Halt Value → Option (Option Value)
  | .ok v => some (some v)
  | .error (.fault fault) => if fault.isEnd then some none else none
  | .error .outOfFuel => none

/-- The requests for the next element, without the peeks. -/
def nextsOf (asks : List Ask) : List Ask := asks.filter (· = .next)

/-- The outcomes of the requests for the next element. -/
def nextReplies (replies : List (Ask × Except Halt Value)) : List (Option (Option Value)) :=
  (replies.filter fun reply => reply.1 = .next).map fun reply => calm? reply.2

/-- Where a sequence is with peeks, compared with where it is without them: at the same place, or an element waits that
is the next one there, or the end was met that is met next there. -/
inductive Ahead (n : Nat) (id : SequenceId) (store : Store) : Store → Prop
  | level : Ahead n id store store
  | element {v looked} : ((calls (n + 1)).peek id).from? store = (.ok v, looked) → Ahead n id store looked
  | ended {fault last} : fault.isEnd = true → (last.sequence id).Over →
      ((calls (n + 1)).next id).from? store = (.error (.fault fault), last) → Ahead n id store last

/-- A request to a sequence that is ahead: a peek leaves it ahead, and a request for the next element gives what it gives
without the peeks. -/
theorem Ahead.reply {n : Nat} {store ahead left : Store} {ask : Ask} {reply : Except Halt Value}
    (here : Ahead n id store ahead) (ends : (ask.run (calls (n + 1)) id).from? ahead = (reply, left))
    (calm : (calm? reply).isSome = true) :
    match ask with
    | .peek => Ahead n id store left
    | .next => ∃ reply' left', ((calls (n + 1)).next id).from? store = (reply', left') ∧ calm? reply' = calm? reply ∧
        Ahead n id left' left := by
  have through := peeksThrough n id store
  cases here with
  | level =>
    cases ask with
    | next => exact ⟨reply, left, ends, rfl, .level⟩
    | peek =>
      rcases reply with (fault | _) | v
      · have isEnd : fault.isEnd = true := by
          by_contra noEnd
          simp [calm?, noEnd] at calm
        have ends' := (through.fails _ _).mp ends
        exact .ended isEnd (over_of_next isEnd ends') ends'
      · cases calm
      · exact .element ends
  | element peeked =>
    cases ask with
    | next =>
      have ends' := (through.next _ _ peeked n).symm.trans ends
      cases ends'
      exact ⟨_, _, through.same _ _ peeked, rfl, .level⟩
    | peek =>
      have ends' := (through.again _ _ peeked (n + 1)).symm.trans ends
      cases ends'
      exact .element peeked
  | ended isEnd isOver met =>
    have stays : ((calls (n + 1)).next id).from? ahead = (.error (.fault .ended), ahead) := next_over isOver
    cases ask with
    | next =>
      have ends' := stays.symm.trans ends
      cases ends'
      refine ⟨_, _, met, ?_, .level⟩
      simp only [calm?, isEnd, if_true]
      rfl
    | peek =>
      have ends' := ((peeksThrough n id ahead).fails _ _).mpr stays
      cases ends'.symm.trans ends
      exact .ended isEnd isOver met

/-- Requests that give elements and ends only give the same where the sequence is not ahead and no peek is among them. -/
theorem nextReplies_ahead {n : Nat} {asks : List Ask} {store ahead : Store} (here : Ahead n id store ahead)
    (calm : ∀ reply ∈ replies (calls (n + 1)) id asks ahead, (calm? reply.2).isSome = true) :
    nextReplies (replies (calls (n + 1)) id (nextsOf asks) store) =
      nextReplies (replies (calls (n + 1)) id asks ahead) := by
  induction asks generalizing store ahead with
  | nil => rfl
  | cons ask rest ih =>
    rcases ends : (ask.run (calls (n + 1)) id).from? ahead with ⟨reply, left⟩
    have step : replies (calls (n + 1)) id (ask :: rest) ahead = (ask, reply) :: replies (calls (n + 1)) id rest left := by
      rw [replies, ends]
    rw [step] at calm ⊢
    obtain ⟨first, others⟩ := List.forall_mem_cons.mp calm
    have next := here.reply ends first
    cases ask with
    | peek => exact ih next others
    | next =>
      obtain ⟨reply', left', ends', same, there⟩ := next
      have step' : replies (calls (n + 1)) id (nextsOf (.next :: rest)) store =
          (.next, reply') :: replies (calls (n + 1)) id (nextsOf rest) left' := by
        rw [nextsOf, List.filter_cons_of_pos (by rfl), replies, Ask.run, ends']
        rfl
      rw [step']
      change calm? reply' :: nextReplies _ = calm? reply :: nextReplies _
      rw [same, ih there others]

/-- Peeking at any sequence in any store is transparent: it fails as asking for the next element does, and what it shows
is what comes next, with the same store left as without it. In any mix of requests and peeks without errors, the requests
give what they give without the peeks. -/
theorem peek_transparent (n : Nat) (id : SequenceId) (store : Store) :
    PeeksThrough n id store ∧
      ∀ asks, (∀ reply ∈ replies (calls (n + 1)) id asks store, (calm? reply.2).isSome = true) →
        nextReplies (replies (calls (n + 1)) id (nextsOf asks) store) =
          nextReplies (replies (calls (n + 1)) id asks store) :=
  ⟨peeksThrough n id store, fun _ calm => nextReplies_ahead .level calm⟩

/-- Peeking at a pipeline over a list. -/
theorem peek_transparent_list :
    (∃ v looked, ((calls 14).peek ⟨0⟩).from? (.sample (.object (.list ⟨1⟩))) = (.ok v, looked) ∧
        ((calls 1).next ⟨0⟩).from? looked = (.ok v, looked.handedOut ⟨0⟩)) ∧
      nextReplies (replies (calls 14) ⟨0⟩ [.next, .next, .next] (.sample (.object (.list ⟨1⟩)))) =
        nextReplies (replies (calls 14) ⟨0⟩ [.peek, .next, .peek, .peek, .next, .peek, .next, .peek]
          (.sample (.object (.list ⟨1⟩)))) := by
  obtain ⟨through, transparent⟩ := peek_transparent 13 ⟨0⟩ (.sample (.object (.list ⟨1⟩)))
  have shows : (((calls 14).peek ⟨0⟩).from? (.sample (.object (.list ⟨1⟩)))).1.isOk = true := by decide +kernel
  refine ⟨?_, transparent [.peek, .next, .peek, .peek, .next, .peek, .next, .peek] ?_⟩
  · rcases peeked : ((calls 14).peek ⟨0⟩).from? (.sample (.object (.list ⟨1⟩))) with ⟨halt | v, looked⟩
    · rw [peeked] at shows
      cases shows
    · exact ⟨v, looked, rfl, through.next v looked peeked 0⟩
  · decide +kernel

end Calls

end FirstSeen
