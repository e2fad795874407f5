import FirstSeen.Proofs.History.Lending
import FirstSeen.Proofs.Sites

/-!
# Operations on a pipeline take it from site to site

Whatever is asked of a pipeline of distinct stages over data, or of its streams, takes the pipeline from one site to another, as
long as recording a key never signals an end: handing out elements, looking ahead, taking back, gathering, and asking for its
size or for how it passes elements on.
-/

set_option autoImplicit false

namespace FirstSeen

namespace Run

open Store

section

variable (p : SequenceId) (steps : ListId) (data : Value) (many : Nat) (streams : List CursorId)

/-- Whether a run takes a pipeline from site to site, unless calls do not suffice, and answers with something good. -/
def Tours {α : Type} (good : α → Prop) (run : Run α) : Prop :=
  ∀ site store, store.AtSite p steps data many streams site → (run.from? store).1 ≠ .error .outOfFuel →
    (∃ site' laps, Goes p steps data many streams site site' laps store (run.from? store).2) ∧
      ∀ a, (run.from? store).1 = .ok a → good a

end

variable {p : SequenceId} {steps : ListId} {data : Value} {many n : Nat} {streams : List CursorId} {α β : Type}
  {good : α → Prop} {good' : β → Prop}

theorem tours_pure {a : α} (fine : good a) : (pure a : Run α).Tours p steps data many streams good :=
  fun _ _ stands _ => ⟨⟨_, _, stands.stays⟩, fun _ same => by cases same; exact fine⟩

theorem tours_fail (fault : Fault) : (fail fault : Run α).Tours p steps data many streams good :=
  fun _ _ stands _ => ⟨⟨_, _, stands.stays⟩, fun _ same => by cases same⟩

theorem tours_outOfFuel : (throw .outOfFuel : Run α).Tours p steps data many streams good :=
  fun _ _ _ enough => absurd rfl enough

theorem tours_view (f : Store → α) : (view f).Tours p steps data many streams fun _ => True :=
  fun _ _ stands _ => ⟨⟨_, _, stands.stays⟩, fun _ _ => trivial⟩

theorem Tours.bind {run : Run α} {next : α → Run β} (first : run.Tours p steps data many streams good)
    (rest : ∀ a, good a → (next a).Tours p steps data many streams good') :
    (run >>= next).Tours p steps data many streams good' := by
  intro site store stands enough
  rcases ends : run.from? store with ⟨halt | a, left⟩
  · rw [from?_bind_error ends] at enough ⊢
    have arrives := (first site store stands (by rw [ends]; exact fun same => enough (by cases same; rfl))).1
    rw [ends] at arrives
    exact ⟨arrives, fun _ same => by cases same⟩
  · rw [from?_bind_ok ends] at enough ⊢
    obtain ⟨⟨site', laps, goes⟩, fine⟩ := first site store stands (by simp [ends])
    rw [ends] at goes fine
    obtain ⟨⟨site'', laps', goes'⟩, fine'⟩ := rest a (fine a rfl) site' left goes.arrives enough
    exact ⟨⟨site'', _, goes.trans goes'⟩, fine'⟩

theorem Tours.onFault {run : Run α} {handler : Fault → Run α} (first : run.Tours p steps data many streams good)
    (handled : ∀ fault, (handler fault).Tours p steps data many streams good) :
    (onFault run handler).Tours p steps data many streams good := by
  intro site store stands enough
  rw [from?_onFault] at enough ⊢
  rcases ends : run.from? store with ⟨(fault | _) | a, left⟩ <;> rw [ends] at enough
  · obtain ⟨⟨site', laps, goes⟩, -⟩ := first site store stands (by simp [ends])
    rw [ends] at goes
    obtain ⟨⟨site'', laps', goes'⟩, fine⟩ := handled fault site' left goes.arrives enough
    exact ⟨⟨site'', _, goes.trans goes'⟩, fine⟩
  · exact absurd rfl enough
  · have first := first site store stands (by simp [ends])
    rw [ends] at first
    exact first

theorem Tours.ite {c : Prop} [Decidable c] {run other : Run α} (tours : run.Tours p steps data many streams good)
    (tours' : other.Tours p steps data many streams good) :
    (if c then run else other).Tours p steps data many streams good := by
  split
  · exact tours
  · exact tours'

theorem Tours.map {run : Run α} (tours : run.Tours p steps data many streams good) (f : α → β) :
    (f <$> run).Tours p steps data many streams fun _ => True :=
  tours.bind fun _ _ => tours_pure trivial

/-- A stream marks where it is. -/
theorem tours_setCursor {k : CursorId} (member : k ∈ streams) {phase : StreamPhase}
    (fits : ∀ feed, phase = .delegating feed → feed = .sequence p) :
    (setCursor k (.streaming p .null phase)).Tours p steps data many streams fun _ => True :=
  fun _ _ stands _ => ⟨⟨_, _, stands.placed member fits rfl⟩, fun _ _ => trivial⟩

/-- What is done after a pipeline is taken back, if it was started. -/
theorem Tours.restarted {rest : Run α} (tours : rest.Tours p steps data many streams good) :
    (do
      if (← Run.sequence p).started then (Calls.quiet n).rewind p
      rest : Run α).Tours p steps data many streams good := by
  intro site store stands enough
  rw [from?_bind_ok (from?_sequence ..)] at enough ⊢
  cases begun : (store.sequence p).started with
  | false =>
    simp only [begun, Bool.false_eq_true, if_false] at enough ⊢
    exact tours site store stands enough
  | true =>
    simp only [begun, if_true] at enough ⊢
    have isBuilt : site.below ≠ [] := by
      cases stands with
      | planned plans length top => rw [top.started] at begun; cases begun
      | built form column length => exact List.ne_nil_of_length_eq_add_one length
    rcases ends : ((Calls.quiet n).rewind p).from? store with ⟨halt | _, left⟩
    · rw [from?_bind_error ends] at enough ⊢
      rcases Calls.rewind_goes stands isBuilt ends (fun same => enough (by cases same; rfl)) with ⟨same, -⟩ | ⟨fault, -, goes⟩
      · cases same
      · exact ⟨⟨_, _, goes⟩, fun _ same => by cases same⟩
    · rw [from?_bind_ok ends] at enough ⊢
      rcases Calls.rewind_goes stands isBuilt ends (by simp) with ⟨-, goes⟩ | ⟨fault, same, -⟩
      · obtain ⟨⟨site', laps, goes'⟩, fine⟩ := tours _ left goes.arrives enough
        exact ⟨⟨site', _, goes.trans goes'⟩, fine⟩
      · cases same

end Run

namespace Calls

open Run Store

variable {p : SequenceId} {steps : ListId} {data : Value} {many : Nat} {streams : List CursorId} {k : CursorId}
  {good : Value → Prop}

/-! ## Elements -/

theorem tours_next (n : Nat) : ((quiet n).next p).Tours p steps data many streams fun _ => True := by
  intro site store stands enough
  obtain ⟨site', laps, goes, -⟩ := next_goes stands rfl enough
  exact ⟨⟨site', laps, goes⟩, fun _ _ => trivial⟩

/-- An element that is looked at waits at the pipeline. -/
theorem tours_peek (n : Nat) : ((quiet n).peek p).Tours p steps data many streams fun _ => True := by
  intro site store stands enough
  refine ⟨?_, fun _ _ => trivial⟩
  cases waiting : (store.sequence p).peeked with
  | some v =>
    rw [peek_awaited waiting]
    exact ⟨_, _, stands.stays⟩
  | none =>
    rw [peek_unawaited waiting] at enough ⊢
    rcases ends : ((quiet n).next p).from? store with ⟨halt | v, left⟩ <;> rw [ends] at enough
    · obtain ⟨site', laps, goes, -⟩ := next_goes stands ends (fun same => enough (by cases same; rfl))
      exact ⟨site', laps, goes⟩
    · obtain ⟨site', laps, goes, -, isBuilt, fine⟩ := next_goes stands ends (by simp)
      exact ⟨site', _, goes.trans (goes.arrives.waiting isBuilt fun w same => by cases same; exact fine v rfl)⟩

/-- What is gathered from what takes a pipeline from site to site. -/
theorem tours_gather {feed : Feed} (draws : ∀ n, ((quiet n).draw feed).Tours p steps data many streams fun _ => True)
    (n : Nat) (earlier : List Value) : ((quiet n).gather feed earlier).Tours p steps data many streams fun _ => True := by
  induction n generalizing earlier with
  | zero => exact tours_outOfFuel
  | succ n ih =>
    exact (((draws n).map some).onFault fun fault => .ite (tours_pure trivial) (tours_fail _)).bind fun drawn _ => by
      cases drawn with
      | some v => exact ih (v :: earlier)
      | none => exact tours_pure trivial

/-- All elements of a pipeline. -/
theorem tours_force (n : Nat) : ((quiet n).force p).Tours p steps data many streams fun _ => True :=
  (tours_gather tours_next n []).restarted

/-! ## Streams -/

theorem tours_drawStream (member : k ∈ streams) (n : Nat) :
    ((quiet n).drawStream k p .null (.sequence p)).Tours p steps data many streams fun _ => True :=
  ((tours_next n).onFault fun _ => (tours_setCursor member fun _ same => by cases same).bind fun _ _ => tours_fail _).bind fun _ _ =>
    (tours_setCursor member fun _ same => (by cases same; rfl)).bind fun _ _ => tours_pure trivial

theorem tours_advanceStream (member : k ∈ streams) {phase : StreamPhase}
    (fits : ∀ feed, phase = .delegating feed → feed = .sequence p) (n : Nat) :
    ((quiet n).advanceStream k p .null phase).Tours p steps data many streams fun _ => True := by
  cases phase with
  | finished | running => exact tours_fail _
  | delegating feed =>
    cases fits feed rfl
    exact (tours_setCursor member fun _ same => by cases same).bind fun _ _ => tours_drawStream member n
  | fresh =>
    have chosen : (pure (.sequence p) : Run Feed).Tours p steps data many streams (· = .sequence p) := tours_pure rfl
    have begins : ((quiet n).beginStream p .null).Tours p steps data many streams (· = .sequence p) := chosen.restarted
    refine (tours_setCursor member fun _ same => by cases same).bind fun _ _ => (begins.onFault fun _ =>
      (tours_setCursor member fun _ same => by cases same).bind fun _ _ => tours_fail _).bind fun feed same => ?_
    subst same
    exact tours_drawStream member n

theorem tours_advance (member : k ∈ streams) (n : Nat) :
    ((quiet n).advance k).Tours p steps data many streams fun _ => True := by
  cases n with
  | zero => exact tours_outOfFuel
  | succ n =>
    intro site store stands enough
    obtain ⟨phase, state, fits⟩ := stands.attends k member
    have same : ((quiet (n + 1)).advance k).from? store = ((quiet n).advanceStream k p .null phase).from? store := by
      change ((quiet n).advanceWith k).from? store = _
      rw [advanceWith, from?_bind_ok (from?_cursor ..), state]
    rw [same] at enough ⊢
    exact tours_advanceStream member fits n site store stands enough

/-- All further elements of a stream. -/
theorem tours_drainStream (member : k ∈ streams) (n : Nat) :
    ((quiet n).listOf (.ofCursor k)).Tours p steps data many streams fun _ => True := by
  intro site store stands enough
  obtain ⟨phase, state, -⟩ := stands.attends k member
  have remaining : (remainingOf (.ofCursor k)).from? store = (.ok .null, store) := by
    change (Run.cursor k >>= _).from? store = _
    rw [from?_bind_ok (from?_cursor ..), state]
    rfl
  have room : (makeRoom (.ofCursor k)).from? store = (.ok (), store) := by
    rw [makeRoom, from?_bind, from?_onFault, remaining]
    rfl
  rw [listOf, from?_bind_ok (show (openFeed (.ofCursor k)).from? store = (.ok (.cursor k), store) from rfl),
    from?_bind_ok room] at enough ⊢
  exact tours_gather (tours_advance member) n [] site store stands enough

/-! ## Questions about a pipeline -/

/-- The output of a pipeline is built on first use, which changes no flag and tells nothing. -/
theorem output_goes {site : Site} {store after : Store} {kept : Value} {n : Nat} {ended : Except Halt Value}
    (stands : store.AtSite p steps data many streams site) (form : (store.sequence p).body = .pipeline steps data kept)
    (ends : ((quiet n).outputOf p kept).from? store = (ended, after)) (enough : ended ≠ .error .outOfFuel) :
    ∃ site' top rest, ended = .ok (.ofSequence top) ∧ site'.below = top :: rest ∧
      Goes p steps data many streams site site' [] store after := by
  cases stands with
  | planned plans length top attends =>
    rw [plans.form] at form
    cases form
    obtain ⟨out, chain, rfl, raises, form, length'⟩ := raises_outputOf plans ends enough
    obtain ⟨body, state⟩ := raises.top
    refine ⟨⟨out :: chain, false, false⟩, out, chain, rfl, rfl, .built form raises.column (by simp [length', length])
      (by rw [state]; exact top.started) (by rw [state]; exact top.exhausted) raises.abreast
      (attends.congr fun k _ => by rw [Store.cursor, raises.cursors]; rfl), fun isBuilt => absurd rfl isBuilt, rfl, ?_,
      fun none => by cases none⟩
    simp [milestones, raises.journal]
  | built form'' column length starts ends' abreast attends =>
    cases stack : column.stack with
    | pipeline form' below =>
      rw [form'] at form
      cases form
      cases ends
      exact ⟨_, _, _, rfl, rfl, (AtSite.built form' column length starts ends' abreast attends).stays⟩
    | _ => simp_all

/-- What changes nothing of the column that was built leaves the pipeline where it is. -/
theorem goes_below {site : Site} {store after : Store} {top : SequenceId} {rest : List SequenceId}
    (stands : store.AtSite p steps data many streams site) (isBuilt : site.below = top :: rest)
    (beyond : store.Column (p :: top :: rest) streams (top :: rest) → Beyond (p :: top :: rest) streams store after) :
    Goes p steps data many streams site site [] store after := by
  cases stands with
  | planned => cases isBuilt
  | built form column length starts ends abreast attends =>
    cases isBuilt
    exact (beyond column.below).goes form column length starts ends abreast attends

/-- Asking the output of a pipeline for something that changes nothing leaves the pipeline where it is, once it is built. -/
theorem goes_asked {α : Type} {site : Site} {store : Store} {kept : Value} {n : Nat} {name : String}
    {ask : SequenceId → Run α} (stands : store.AtSite p steps data many streams site)
    (form : (store.sequence p).body = .pipeline steps data kept)
    (asks : ∀ {ids : List SequenceId} {top : SequenceId} {rest : List SequenceId} {left after : Store} {ended : Except Halt α},
      left.Column ids streams (top :: rest) → (ask top).from? left = (ended, after) → ended ≠ .error .outOfFuel →
      Beyond ids streams left after)
    (enough : ((do ask (← sequenceFor name (← (quiet n).outputOf p kept)) : Run α).from? store).1 ≠ .error .outOfFuel) :
    ∃ site' laps, Goes p steps data many streams site site' laps store
      ((do ask (← sequenceFor name (← (quiet n).outputOf p kept)) : Run α).from? store).2 := by
  rcases outputs : ((quiet n).outputOf p kept).from? store with ⟨halt | output, left⟩
  · rw [from?_bind_error outputs] at enough
    obtain ⟨_, _, _, same, -⟩ := output_goes stands form outputs fun same => enough (by cases same; rfl)
    cases same
  · obtain ⟨site', top, rest, same, isBuilt, goes⟩ := output_goes stands form outputs (by simp)
    cases same
    rw [from?_bind_ok outputs] at enough ⊢
    exact ⟨site', _, goes.trans (goes_below goes.arrives isBuilt fun column => asks column rfl enough)⟩

/-- Asking a pipeline for its size takes it no further than to be built. -/
theorem tours_size (n : Nat) : ((quiet n).size p).Tours p steps data many streams fun _ => True := by
  cases n with
  | zero => exact tours_outOfFuel
  | succ n =>
    intro site store stands enough
    obtain ⟨kept, form⟩ := stands.isPipeline
    have same : ((quiet (n + 1)).size p).from? store =
        (do (quiet n).size (← sequenceFor "size" (← (quiet n).outputOf p kept)) : Run Value).from? store := by
      change ((quiet n).sizeWith p).from? store = _
      rw [sizeWith, from?_bind_ok (from?_sequence ..), form]
    rw [same] at enough ⊢
    exact ⟨goes_asked stands form (inStep_quiet _ streams n).size enough, fun _ _ => trivial⟩

/-- Asking a pipeline whether its elements are taken apart takes it no further than to be built. -/
theorem tours_isMulti (n : Nat) : ((quiet n).isMulti p).Tours p steps data many streams fun _ => True := by
  cases n with
  | zero => exact tours_outOfFuel
  | succ n =>
    intro site store stands enough
    obtain ⟨kept, form⟩ := stands.isPipeline
    have same : ((quiet (n + 1)).isMulti p).from? store =
        (if data.isNull then pure (store.sequence p).multiValue
          else do (quiet n).isMulti (← sequenceFor "multi_value" (← (quiet n).outputOf p kept)) : Run Bool).from? store := by
      change ((quiet n).isMultiWith p).from? store = _
      rw [isMultiWith, from?_bind_ok (from?_sequence ..), form]
    rw [same] at enough ⊢
    cases bound : data.isNull with
    | true => exact ⟨⟨_, _, stands.stays⟩, fun _ _ => trivial⟩
    | false =>
      simp only [bound, Bool.false_eq_true, if_false] at enough ⊢
      exact ⟨goes_asked stands form (inStep_quiet _ streams n).isMulti enough, fun _ _ => trivial⟩

end Calls

end FirstSeen
