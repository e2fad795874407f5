import FirstSeen.Proofs.History.Session
import FirstSeen.Proofs.Tower.Building
import Mathlib.Data.List.Forall2

/-!
# What a sequence counts as

A sequence *holds* a tower if it stands as the tower or rests before it. Whatever is asked of the sequence,
deep enough for a chain to be built, then ends as it does for the tower, and leaves a sequence that holds
what is left of the tower. Nothing but the chain changes that a stream could notice.

Gathering elements is the same for all that elements can be drawn from: if each draw ends as is told, so does
what is gathered up to the end.
-/

set_option autoImplicit false

namespace FirstSeen

namespace Tower

theorem height_pos (tower : Tower) : 0 < tower.height := by
  cases tower <;> simp [height]

theorem height_restart (tower : Tower) : tower.restart.2.height = tower.height := by
  rw [restart]
  split
  · exact height_rewind tower
  · rfl

end Tower

namespace Store

/-- A store that has grown, with all streams where they were. -/
structure Keeps (before after : Store) : Prop where
  grows : before.Grows after
  streams : ∀ id, (before.cursor id).isStream → after.cursor id = before.cursor id

/-- Whether a run ended as is told: with the same fault, or with an answer that is told. -/
def Agrees {α β : Type} (tells : α → β → Prop) : Except Halt α → Except Fault β → Prop
  | .ok a, .ok b => tells a b
  | .error halt, .error fault => halt = .fault fault
  | _, _ => False

/-- Whether a run ended as a step from a state does: out of fuel, or as is told, in a store that is where the
step ends. -/
def EndsLike {α β σ : Type} (tells : Store → α → β → Prop) (rel : Store → σ → Prop)
    (ending : Except Halt α × Store) : Option (Except Fault β × σ) → Prop
  | none => ending.1 = .error .outOfFuel
  | some (told, left) => Agrees (tells ending.2) ending.1 told ∧ rel ending.2 left

variable (D : Item → Prop) (aside : Option CursorId) (multi : Bool)

/-- Whether values show elements in turn. -/
def ShowsAll (store : Store) (values : List Value) (items : List Item) : Prop :=
  List.Forall₂ (fun v item => store.Shows D item v) values items

/-- Whether a sequence stands as a tower with some chain. -/
def Awake (store : Store) (id : SequenceId) (tower : Tower) : Prop :=
  ∃ ids, store.Stands D aside multi id ids tower

/-- Whether a sequence stands as a tower or rests before it. -/
def Holds (store : Store) (id : SequenceId) (tower : Tower) : Prop :=
  store.Awake D aside multi id tower ∨
    ∃ ids, store.Rests D aside multi id ids tower ∧ tower.pass = {}

variable {D aside multi}

/-! ## What stays -/

theorem Keeps.refl (store : Store) : store.Keeps store := ⟨.refl store, fun _ _ => rfl⟩

theorem Keeps.trans {first second third : Store} (h : first.Keeps second) (k : second.Keeps third) :
    first.Keeps third :=
  ⟨h.grows.trans k.grows, fun id stream => by
    have kept := h.streams id stream
    rw [k.streams id (by rwa [kept]), kept]⟩

theorem Works.keeps {ids : List SequenceId} {before after : Store} (h : before.Works ids after) :
    before.Keeps after :=
  ⟨h.grows, h.streams⟩

theorem Grows.showsAll {before after : Store} (h : before.Grows after) {values : List Value}
    {items : List Item} (all : before.ShowsAll D values items) : after.ShowsAll D values items :=
  all.imp fun _ _ shows' => h.shows shows'

theorem Awake.holds {store : Store} {id : SequenceId} {tower : Tower}
    (h : store.Awake D aside multi id tower) : store.Holds D aside multi id tower :=
  .inl h

theorem Holds.passes {store : Store} {id : SequenceId} {tower : Tower}
    (h : store.Holds D aside multi id tower) : store.Passes D id tower.pass := by
  obtain ⟨ids, stands⟩ | ⟨ids, rests, -⟩ := h
  · exact stands.passes
  · exact rests.passes

/-- What spares every sequence leaves what they hold. -/
theorem Holds.spared {before after : Store} {id : SequenceId} {tower : Tower}
    (h : before.Holds D aside multi id tower) (spares : ∀ ids, before.Spares ids after) :
    after.Holds D aside multi id tower := by
  obtain ⟨ids, stands⟩ | ⟨ids, rests, fresh⟩ := h
  · exact .inl ⟨ids, stands.spared (spares ids)⟩
  · exact .inr ⟨ids, rests.spared (spares ids), fresh⟩

theorem Awake.spared {before after : Store} {id : SequenceId} {tower : Tower}
    (h : before.Awake D aside multi id tower) (spares : ∀ ids, before.Spares ids after) :
    after.Awake D aside multi id tower := by
  obtain ⟨ids, stands⟩ := h
  exact ⟨ids, stands.spared (spares ids)⟩

/-- A pipeline that rests at its beginning counts as a tower at its beginning. -/
theorem Rests.fresh {store : Store} {id : SequenceId} {ids : List SequenceId} {tower : Tower}
    (h : store.Rests D aside multi id ids tower) (begun : tower.pass = {}) : tower.Fresh := by
  cases h with
  | raw passes flag form bound lists taken backs free => exact ⟨begun, Tower.fresh_filters ⟨rfl, free⟩⟩
  | upon passes form apart lists fresh rest => exact ⟨begun, Tower.fresh_filters fresh⟩

/-! ## How runs end -/

theorem EndsLike.imp {α β σ : Type} {tells tells' : Store → α → β → Prop} {rel rel' : Store → σ → Prop}
    {ending : Except Halt α × Store} {told : Option (Except Fault β × σ)}
    (h : EndsLike tells rel ending told)
    (more : ∀ a b, tells ending.2 a b → tells' ending.2 a b)
    (further : ∀ left, rel ending.2 left → rel' ending.2 left) : EndsLike tells' rel' ending told := by
  rcases told with _ | ⟨answer, left⟩
  · exact h
  · obtain ⟨agrees, related⟩ := h
    refine ⟨?_, further left related⟩
    rcases ending with ⟨halt | a, after⟩ <;> rcases answer with fault | b
    · exact agrees
    · exact agrees
    · exact agrees
    · exact more a b agrees

theorem EndsLike.further {α β σ : Type} {tells : Store → α → β → Prop} {rel rel' : Store → σ → Prop}
    {ending : Except Halt α × Store} {told : Option (Except Fault β × σ)}
    (h : EndsLike tells rel ending told) (more : ∀ left, rel ending.2 left → rel' ending.2 left) :
    EndsLike tells rel' ending told :=
  h.imp (fun _ _ same => same) more

/-- What ends as a step of a tower is told to ends like it. -/
theorem EndsAs.like {store : Store} {id : SequenceId} {ids : List SequenceId}
    {ending : Except Halt Value × Store} {told : Option (Draw × Tower)}
    (h : store.EndsAs D aside multi id ids ending told) :
    EndsLike (fun after v item => after.Shows D item v)
      (fun after left => after.Stands D aside multi id ids left ∧ store.Works ids after) ending told := by
  rcases told with _ | ⟨answer, left⟩
  · exact h
  · obtain ⟨delivers, stands, works⟩ := h
    refine ⟨?_, stands, works⟩
    rcases ending with ⟨halt | v, after⟩ <;> rcases answer with fault | item <;> exact delivers

/-- A sequence that was asked as its tower is awake. -/
theorem EndsAs.awake {store : Store} {id : SequenceId} {ids : List SequenceId}
    {ending : Except Halt Value × Store} {told : Option (Draw × Tower)}
    (h : store.EndsAs D aside multi id ids ending told) :
    EndsLike (fun after v item => after.Shows D item v)
      (fun after left => after.Awake D aside multi id left ∧ store.Keeps after) ending told :=
  h.like.further fun _ ⟨stands, works⟩ => ⟨⟨ids, stands⟩, works.keeps⟩

/-! ## Gathering -/

/-- What is gathered after one draw that ends as is told. -/
theorem gather_step {σ : Type} {draw : Nat → σ → Option (Draw × σ)} {rel : Store → σ → Prop}
    (rel' : Store → σ → Prop) {feed : Feed} {n : Nat} {store : Store} {state : σ} {earlier : List Value} {items : List Item}
    (drawn : EndsLike (fun after v item => after.Shows D item v)
      (fun after left => rel after left ∧ store.Grows after) (((calls n).draw feed).from? store)
      (draw n state))
    (rest : ∀ after left, rel after left → store.Grows after → ∀ v item, after.Shows D item v →
      EndsLike (fun last => last.ShowsAll D) (fun last left => rel' last left ∧ after.Grows last)
        (((calls n).gather feed (v :: earlier)).from? after) (gatherBy draw n left (item :: items)))
    (spent : ∀ after left, rel after left → rel' after left)
    (all : store.ShowsAll D earlier items) :
    EndsLike (fun last => last.ShowsAll D) (fun last left => rel' last left ∧ store.Grows last)
      (((calls (n + 1)).gather feed earlier).from? store) (gatherBy draw (n + 1) state items) := by
  change EndsLike _ _ (((calls n).gatherWith feed earlier).from? store) _
  rw [Calls.gatherWith, Run.from?_bind, Run.from?_onFault, Run.from?_map]
  rcases ends : ((calls n).draw feed).from? store with ⟨ended, after⟩
  rw [ends] at drawn
  rw [gatherBy]
  cases told : draw n state with
  | none =>
    rw [told] at drawn
    obtain rfl : ended = .error .outOfFuel := drawn
    rfl
  | some pair =>
    obtain ⟨fault | item, left⟩ := pair <;> rw [told] at drawn <;> obtain ⟨agrees, related, grows⟩ := drawn
    · rcases ended with halt | v
      · obtain rfl : halt = .fault fault := agrees
        by_cases signals : fault.isEnd
        · simp only [signals, if_true, Except.map]
          refine ⟨?_, spent after left related, grows⟩
          exact List.rel_reverse (grows.showsAll all)
        · simp only [signals, Except.map]
          exact ⟨rfl, spent after left related, grows⟩
      · exact agrees.elim
    · rcases ended with halt | v
      · exact agrees.elim
      · refine (rest after left related grows v item agrees).further ?_
        exact fun left ⟨related', grows'⟩ => ⟨related', grows.trans grows'⟩

/-- If each draw ends as is told, at every depth, so does what is gathered up to the end. -/
theorem gather_likewise {σ : Type} {draw : Nat → σ → Option (Draw × σ)} (rel : Store → σ → Prop)
    {feed : Feed} (draws : ∀ n store state, rel store state →
      EndsLike (fun after v item => after.Shows D item v)
        (fun after left => rel after left ∧ store.Grows after) (((calls n).draw feed).from? store)
        (draw n state))
    (n : Nat) {store : Store} {state : σ} {earlier : List Value} {items : List Item}
    (related : rel store state) (all : store.ShowsAll D earlier items) :
    EndsLike (fun last => last.ShowsAll D) (fun last left => rel last left ∧ store.Grows last)
      (((calls n).gather feed earlier).from? store) (gatherBy draw n state items) := by
  induction n generalizing store state earlier items with
  | zero => exact rfl
  | succ n ih =>
    refine gather_step _ (draws n store state related) (fun after left related' grows v item shows' => ?_)
      (fun _ _ => id) all
    exact ih related' (.cons shows' (grows.showsAll all))

/-! ## Asking -/

/-- The next element of a sequence that stands as a tower, at every depth. -/
theorem next_awake (n : Nat) {store : Store} {id : SequenceId} {tower : Tower}
    (awake : store.Awake D aside multi id tower) :
    EndsLike (fun after v item => after.Shows D item v)
      (fun after left => after.Awake D aside multi id left ∧ store.Keeps after)
      (((calls n).next id).from? store) (tower.next n) := by
  obtain ⟨ids, stands⟩ := awake
  exact (next_stands n stands).awake

namespace Acts

variable {n : Nat} {store : Store} {id : SequenceId} {ids : List SequenceId} {tower : Tower}
  (acts : store.Acts D aside multi n id ids tower)
include acts

/-- The next element of a sequence that can be asked as a tower is that of the tower, and the sequence is awake then. -/
theorem wakes_next :
    EndsLike (fun after v item => after.Shows D item v)
      (fun after left => after.Awake D aside multi id left ∧ store.Keeps after)
      (((calls n).next id).from? store) (tower.next n) := by
  obtain ⟨more, -, asked⟩ := acts.next
  exact asked.awake

/-- A sequence that can be asked as a tower tells whether its elements are taken apart, and is awake then. -/
theorem wakes_isMulti :
    ∃ after, ((calls n).isMulti id).from? store = (.ok multi, after) ∧
      after.Awake D aside multi id tower ∧ store.Keeps after := by
  obtain ⟨more, after, -, ends, stands, works⟩ := acts.flag
  exact ⟨after, ends, ⟨more, stands⟩, works.keeps⟩

/-- A sequence that can be asked as a tower reports the size of the tower, and is awake then. -/
theorem wakes_size :
    ∃ after, ((calls n).size id).from? store = (tower.size.mapError Halt.fault, after) ∧
      after.Awake D aside multi id tower ∧ store.Keeps after := by
  obtain ⟨more, after, -, ends, stands, works⟩ := acts.size
  exact ⟨after, ends, ⟨more, stands⟩, works.keeps⟩

end Acts

/-- A sequence that counts as a tower can be asked as the tower. -/
theorem Holds.acts {n : Nat} {store : Store} {id : SequenceId} {tower : Tower}
    (holds : store.Holds D aside multi id tower) (deep : 4 * tower.height ≤ n) :
    ∃ ids, store.Acts D aside multi n id ids tower := by
  obtain ⟨ids, stands⟩ | ⟨ids, rests, begun⟩ := holds
  · exact ⟨ids, stands.acts (by omega)⟩
  · exact ⟨ids, rests.acts begun deep⟩

/-! ## Beginning again -/

/-- What is changed into what it was is not changed. -/
theorem spares_unchanged {store : Store} {id : SequenceId} {f : SequenceState → SequenceState}
    (inside : id.index < store.sequences.size) (same : f (store.sequence id) = store.sequence id)
    (ids : List SequenceId) : store.Spares ids (store.updated id f) := by
  refine ⟨grows_updated store id f, by simp, fun other _ => ?_, Nat.le_refl _, fun _ _ _ => rfl,
    fun _ => rfl⟩
  by_cases here : other = id
  · rw [here, sequence_updated inside, same]
  · exact sequence_updated_ne here

theorem restarted_unchanged {state : SequenceState} (started : state.started = false)
    (exhausted : state.exhausted = false) (peeked : state.peeked = none) :
    { state with started := false, exhausted := false, peeked := none } = state := by
  obtain ⟨body, flag, _, _, _⟩ := state
  obtain rfl : _ = false := started
  obtain rfl : _ = false := exhausted
  obtain rfl : _ = none := peeked
  rfl

/-- Taking back a pipeline that was not built and is at its beginning changes nothing. -/
theorem rewind_unbuilt {store : Store} {p : SequenceId} {steps : ListId} {input : Value} (passes : store.Passes D p {})
    (form : (store.sequence p).body = .pipeline steps input .null) (n : Nat) :
    ∃ after, ((calls (n + 1)).rewind p).from? store = (.ok (), after) ∧ (∀ ids, store.Spares ids after) ∧
      after.cursors = store.cursors := by
  let begin (state : SequenceState) : SequenceState :=
    { state with started := false, exhausted := false, peeked := none }
  have same : begin (store.sequence p) = store.sequence p :=
    restarted_unchanged passes.started passes.exhausted passes.unpeeked
  have reset : ((calls n).reset p).from? store = (.ok (), store) := by
    rw [Calls.reset, Run.from?_bind_ok (Run.from?_sequence ..), form]
    rfl
  have rewound : ((calls (n + 1)).rewind p).from? store = (.ok (), { store.updated p begin with
      journal := (store.updated p begin).journal.push
        (.rewound p ((store.updated p begin).sequence p).body.kind) }) := by
    change ((calls n).rewindWith p).from? store = _
    rw [Calls.rewindWith, Run.from?_bind_ok reset]
    rfl
  exact ⟨_, rewound, fun ids => (spares_unchanged passes.inside same ids).trans (spares_journal _ ids _), rfl⟩

/-- A pipeline that rests is at its beginning and stays there. -/
theorem rewind_rests {store : Store} {id : SequenceId} {ids : List SequenceId} {tower : Tower}
    (rests : store.Rests D aside multi id ids tower) (begun : tower.pass = {}) (n : Nat) :
    ∃ after, ((calls (n + 1)).rewind id).from? store = (.ok (), after) ∧
      after.Rests D aside multi id ids tower ∧ store.Keeps after := by
  obtain ⟨steps, input, form⟩ : ∃ steps input, (store.sequence id).body = .pipeline steps input .null := by
    cases rests with
    | raw passes flag form bound lists taken backs free => exact ⟨_, _, form⟩
    | upon passes form apart lists fresh rest => exact ⟨_, _, form⟩
  obtain ⟨after, ends, spares, cursors⟩ := rewind_unbuilt (begun ▸ rests.passes) form n
  exact ⟨after, ends, rests.spared (spares ids), (spares ids).grows, fun _ _ => by simp only [Store.cursor, cursors]⟩

/-- Taking a sequence back to its beginning ends as taking its tower back does. -/
theorem rewind_holds {n : Nat} {store : Store} {id : SequenceId} {tower : Tower}
    (holds : store.Holds D aside multi id tower) (deep : tower.height ≤ n) :
    ∃ after, ((calls n).rewind id).from? store = (ending tower.rewind.1, after) ∧
      after.Holds D aside multi id tower.rewind.2 ∧ store.Keeps after := by
  obtain ⟨ids, stands⟩ | ⟨ids, rests, begun⟩ := holds
  · obtain ⟨after, ends, stands', works⟩ := rewind_stands stands deep
    exact ⟨after, ends, .inl ⟨ids, stands'⟩, works.keeps⟩
  · obtain ⟨n, rfl⟩ : ∃ k, n = k + 1 := ⟨n - 1, by have := tower.height_pos; omega⟩
    obtain ⟨after, ends, rests', keeps⟩ := rewind_rests rests begun n
    rw [(rests.fresh begun).rewind]
    exact ⟨after, ends, .inr ⟨ids, rests', begun⟩, keeps⟩

/-! ## Relations that are kept -/

/-- Whether relations of stores to towers are kept by what is asked of a sequence: it ends as for the tower, and
leaves a store that is related to what is left of the tower. In the wider relation the sequence can be asked deep
enough for its chain to be built, which may take some calls more than its tower tells; from the first element on it is in
the narrower one, and can be asked at every depth. Some iterators, among them all new ones, are the sequence's own: its
streams, which may move as they like. -/
structure Tracks (D : Item → Prop) (multi : Bool) (own : CursorId → Prop) (id : SequenceId)
    (held stood : Store → Tower → Prop) (more : Nat := 0) : Prop where
  holds : ∀ {store tower}, stood store tower → held store tower
  passes : ∀ {store tower}, held store tower → store.Passes D id tower.pass
  new : ∀ {store tower}, held store tower → own ⟨store.cursors.size⟩
  spared : ∀ {store after tower}, held store tower → (∀ ids, store.Spares ids after) →
    (∀ k, ¬ own k → after.cursor k = store.cursor k) → held after tower
  stays : ∀ {store after tower}, stood store tower → (∀ ids, store.Spares ids after) →
    (∀ k, ¬ own k → after.cursor k = store.cursor k) → stood after tower
  next : ∀ {n store tower}, held store tower → 4 * tower.height + more ≤ n →
    EndsLike (fun after v item => after.Shows D item v) (fun after left => stood after left ∧ store.Keeps after)
      (((calls n).next id).from? store) (tower.next n)
  draws : ∀ n {store tower}, stood store tower →
    EndsLike (fun after v item => after.Shows D item v) (fun after left => stood after left ∧ store.Keeps after)
      (((calls n).next id).from? store) (tower.next n)
  ahead : ∀ {store tower v item}, stood store tower → store.Shows D item v →
    stood (store.updated id fun state => { state with peeked := some v })
      (tower.withPass { tower.pass with peeked := some item })
  rewind : ∀ {n store tower}, held store tower → tower.height ≤ n →
    ∃ after, ((calls n).rewind id).from? store = (ending tower.rewind.1, after) ∧ held after tower.rewind.2 ∧
      store.Keeps after
  flag : ∀ {n store tower}, held store tower → 4 * tower.height + more ≤ n →
    ∃ after, ((calls n).isMulti id).from? store = (.ok multi, after) ∧ stood after tower ∧ store.Keeps after
  size : ∀ {n store tower}, held store tower → 4 * tower.height + more ≤ n →
    ∃ after, ((calls n).size id).from? store = (tower.size.mapError Halt.fault, after) ∧ stood after tower ∧
      store.Keeps after

namespace Tracks

variable {own : CursorId → Prop} {id : SequenceId} {held stood : Store → Tower → Prop} {more : Nat}
  (tracks : Tracks D multi own id held stood more) {n : Nat} {store : Store} {tower : Tower}
include tracks

/-- Looking ahead keeps the next element of the tower in its place. -/
theorem peek (related : held store tower) (deep : 4 * tower.height + more ≤ n) :
    EndsLike (fun after v item => after.Shows D item v) (fun after left => held after left ∧ store.Keeps after)
      (((calls n).peek id).from? store) (tower.peek n) := by
  have peeks := (tracks.passes related).peeked
  rw [Calls.peek, Run.from?_bind_ok (Run.from?_sequence ..), Tower.peek]
  cases peeked : tower.pass.peeked with
  | some item =>
    rw [peeked] at peeks
    cases found : (store.sequence id).peeked with
    | none => rw [found] at peeks; exact peeks.elim
    | some v =>
      rw [found] at peeks
      exact ⟨peeks, related, .refl store⟩
  | none =>
    rw [peeked] at peeks
    cases found : (store.sequence id).peeked with
    | some v => rw [found] at peeks; exact peeks.elim
    | none =>
      have asked := tracks.next related deep
      simp only [Run.from?_bind]
      rcases ends : ((calls n).next id).from? store with ⟨ended, after⟩
      rw [ends] at asked
      cases told : tower.next n with
      | none =>
        rw [told] at asked
        obtain rfl : ended = .error .outOfFuel := asked
        rfl
      | some pair =>
        rw [told] at asked
        obtain ⟨fault | item, left⟩ := pair <;> obtain ⟨agrees, stands, keeps⟩ := asked
        · rcases ended with halt | v
          · exact ⟨agrees, tracks.holds stands, keeps⟩
          · exact agrees.elim
        · rcases ended with halt | v
          · exact agrees.elim
          · have grows := grows_updated after id fun state => { state with peeked := some v }
            exact ⟨grows.shows agrees, tracks.holds (tracks.ahead stands agrees),
              keeps.trans ⟨grows, fun _ _ => rfl⟩⟩

/-- Taking a sequence back if it was started ends as for its tower. -/
theorem restart (related : held store tower) (deep : tower.height ≤ n) :
    ∃ after, (if (store.sequence id).started then (calls n).rewind id else pure ()).from? store =
        (ending tower.restart.1, after) ∧ held after tower.restart.2 ∧ store.Keeps after := by
  rw [(tracks.passes related).started, Tower.restart]
  by_cases started : tower.pass.started
  · simp only [started, if_true]
    exact tracks.rewind related deep
  · simp only [started]
    exact ⟨store, rfl, related, .refl store⟩

/-- All further elements of a sequence. -/
theorem drain (related : held store tower) (deep : 4 * tower.height + more + 1 ≤ n) :
    EndsLike (fun last => last.ShowsAll D) (fun last left => stood last left ∧ store.Keeps last)
      (((calls n).gather (.sequence id) []).from? store) (gatherBy Tower.next n tower []) := by
  obtain ⟨n, rfl⟩ : ∃ k, n = k + 1 := ⟨n - 1, by omega⟩
  -- The first draw may wake the sequence; from then on it stands, and can be asked at every depth.
  have first : EndsLike (fun after v item => after.Shows D item v)
      (fun after left => (stood after left ∧ store.Keeps after) ∧ store.Grows after)
      (((calls n).draw (.sequence id)).from? store) (tower.next n) :=
    (tracks.next related (by omega)).further fun _ related => ⟨related, related.2.grows⟩
  refine (gather_step (fun last left => stood last left ∧ store.Keeps last) first
    (fun after left related grows v item shows' => ?_) (fun _ _ same => same) .nil).further
    fun _ related => related.1
  refine gather_likewise (fun last left => stood last left ∧ store.Keeps last)
    (fun m between state related => ?_) n related (.cons shows' .nil)
  refine (tracks.draws m related.1).further fun left asked => ?_
  exact ⟨⟨asked.1, related.2.trans asked.2⟩, asked.2.grows⟩

/-- All elements of a sequence, which is taken back to its beginning first if it was started. -/
theorem force (related : held store tower) (deep : 4 * tower.height + more + 1 ≤ n) :
    EndsLike (fun last => last.ShowsAll D) (fun last left => held last left ∧ store.Keeps last)
      (((calls n).force id).from? store) (tower.force n) := by
  obtain ⟨after, ends, related', keeps⟩ := tracks.restart related (n := n) (by omega)
  have unfolded : ((calls n).force id).from? store =
      ((if (store.sequence id).started then (calls n).rewind id else pure ()) >>= fun _ =>
        (calls n).gather (.sequence id) []).from? store := by
    rw [Calls.force, Run.from?_bind_ok (Run.from?_sequence ..)]
    split <;> rfl
  rw [unfolded, Tower.force]
  have height : ∀ told left, tower.restart = (told, left) → left.height = tower.height :=
    fun told left restarts => by rw [← Tower.height_restart tower, restarts]
  rcases restarts : tower.restart with ⟨_ | fault, left⟩ <;> specialize height _ _ restarts <;>
    rw [restarts] at ends related'
  · rw [Run.from?_bind_ok ends]
    have rewound : held after left := related'
    refine (tracks.drain rewound (by omega)).further fun last related => ?_
    exact ⟨tracks.holds related.1, keeps.trans related.2⟩
  · rw [Run.from?_bind_error ends]
    exact ⟨rfl, related', keeps⟩

end Tracks

/-! ## Sequences that hold towers -/

/-- What was peeked at is kept by a chain that stands. -/
theorem Stands.ahead {store : Store} {id : SequenceId} {ids : List SequenceId} {tower : Tower} {v : Value} {item : Item}
    (stands : store.Stands D aside multi id ids tower) (shows' : store.Shows D item v) :
    (store.updated id fun state => { state with peeked := some v }).Stands D aside multi id ids
      (tower.withPass { tower.pass with peeked := some item }) := by
  obtain ⟨inside, started, exhausted, -⟩ := stands.passes
  have there := sequence_updated (f := fun state => { state with peeked := some v }) inside
  refine stands.repass _ (fun _ => rfl) (fun _ => rfl)
    ⟨by simpa using inside, by rw [there, started], by rw [there, exhausted], ?_⟩
  rw [there]
  exact (grows_updated store id fun state => { state with peeked := some v }).shows shows'

/-- Whatever is asked of a sequence that holds a tower leaves it holding what is left of the tower. -/
theorem tracks_holds {id : SequenceId} :
    Tracks D multi (fun _ => True) id (fun store => store.Holds D aside multi id)
      (fun store => store.Awake D aside multi id) where
  holds := Awake.holds
  passes := Holds.passes
  new _ := trivial
  spared holds spares _ := holds.spared spares
  stays awake spares _ := awake.spared spares
  next holds deep := by
    obtain ⟨ids, acts⟩ := holds.acts deep
    exact acts.wakes_next
  draws n _ _ := next_awake n
  ahead := fun ⟨ids, stands⟩ shows' => ⟨ids, stands.ahead shows'⟩
  rewind := rewind_holds
  flag holds deep := by
    obtain ⟨ids, acts⟩ := holds.acts deep
    exact acts.wakes_isMulti
  size holds deep := by
    obtain ⟨ids, acts⟩ := holds.acts deep
    exact acts.wakes_size

section Holding

variable {n : Nat} {store : Store} {id : SequenceId} {tower : Tower} (holds : store.Holds D aside multi id tower)
include holds

/-- All elements of a sequence, which is taken back to its beginning first if it was started. -/
theorem force_holds (deep : 4 * tower.height + 1 ≤ n) :
    EndsLike (fun last => last.ShowsAll D)
      (fun last left => last.Holds D aside multi id left ∧ store.Keeps last)
      (((calls n).force id).from? store) (tower.force n) :=
  tracks_holds.force holds deep

end Holding

end Store

end FirstSeen
