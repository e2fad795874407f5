import FirstSeen.Proofs.Tower.Playing

/-!
# The ground of a chain

An origin *backs* the body of a sequence over an iterable or a factory if it opens what the body opens, now
and whenever the store has grown, holds what the body holds, and says the same about size, closing and
beginning again. Pulling from the sequence, resetting it and releasing what it holds then end as drawing
from the origin, resetting and releasing it do, and leave a body that the origin backs.

Opening may depend on how often a factory was called, so that an origin looks ahead from the calls that
were counted.
-/

set_option autoImplicit false

namespace FirstSeen

namespace Body

/-- The feed that a body holds. -/
def feed : Body → Option Feed
  | iterable _ feed | produced _ _ feed => feed
  | _ => none

/-- The body with another feed. -/
def withFeed (body : Body) (feed : Option Feed) : Body :=
  match body with
  | iterable data _ => iterable data feed
  | produced factory size _ => produced factory size feed
  | body => body

/-- How a body opens what it is over. -/
def opener : Body → Run Feed
  | iterable data _ => Run.openFeed data
  | produced factory _ _ => do Run.openFeed (← Run.install (← Run.call factory []))
  | _ => Run.fail .notImplemented

/-- The size that a body over an iterable or a factory reports. -/
def reportedSize : Body → Run Value
  | iterable data _ => Run.lengthOf data
  | produced _ size _ => pure size
  | _ => pure .null

/-- Whether a body is over an iterable or a factory. -/
def isGround : Body → Bool
  | iterable .. | produced .. => true
  | _ => false

/-- The factory of a body. -/
def factory? : Body → Option Value
  | produced factory _ _ => some factory
  | _ => none

/-- The factory of a body, if its calls are counted. -/
def counted? (body : Body) : Option SourceId :=
  match body.factory? with
  | some (.object (.source id)) => some id
  | _ => none

end Body

namespace Store

/-- How often a factory was called. -/
def callsOf (store : Store) (id : SourceId) : Nat := (store.meter (store.source id).meter).calls

/-- Whether the factory of a body, if its calls are counted, was called so many times since. -/
def CalledSince (before after : Store) (body : Body) (n : Nat) : Prop :=
  ∀ id, body.counted? = some id → after.callsOf id = before.callsOf id + n

/-- A store to which objects and iterators were added, and in which uses were counted. -/
structure Extends (before after : Store) : Prop where
  grows : before.Grows after
  sequences : after.sequences = before.sequences
  size : before.cursors.size ≤ after.cursors.size
  cursors : ∀ id : CursorId, id.index < before.cursors.size → after.cursor id = before.cursor id

variable (D : Item → Prop) (aside : Option CursorId)

/-- Whether opening ends as a start says: with a fault, a new iterator, or the one that is kept. -/
def Opens (store : Store) (opener : Run Feed) (start : Except Fault Start) (after : Store) : Prop :=
  store.Extends after ∧
    match start with
    | .error fault => opener.from? store = (.error (.fault fault), after)
    | .ok (.own tape) => ∃ id, opener.from? store = (.ok (.cursor id), after) ∧
        store.cursors.size ≤ id.index ∧ after.Plays D id tape
    | .ok .kept => ∃ id, opener.from? store = (.ok (.cursor id), after) ∧ aside = some id

/-- Whether a feed is what an origin holds. -/
def HoldsFeed (store : Store) : Option Feed → Option Start → Prop
  | none, none => True
  | some (.cursor id), some (.own tape) => aside ≠ some id ∧ store.Plays D id tape
  | some (.cursor id), some .kept => aside = some id
  | _, _ => False

/-- Whether an origin tells without a store what a body does. -/
structure Backs (store : Store) (body : Body) (origin : Origin) : Prop where
  ground : body.isGround
  opens : ∀ later n, store.Grows later → store.CalledSince later body n →
    ∃ after, later.Opens D aside body.opener (origin.openings n) after ∧ later.CalledSince after body 1
  kept : ∀ id, aside = some id → store.Plays D id origin.kept
  held : store.HoldsFeed D aside body.feed origin.held
  oneShot : origin.oneShot = true ↔
    ∃ data feed, body = .iterable data feed ∧ Store.isOneShot data = true
  refuses : ∀ data feed, body = .iterable data feed → Store.isOneShot data = true →
    ∃ id, data = .object (.cursor id) ∧ aside = some id
  drops : origin.drops = true ↔ ∃ factory size feed, body = .produced factory size feed
  size : ∀ later, store.Grows later →
    body.reportedSize.from? later = (origin.size.mapError Halt.fault, later)

variable {D aside}

/-! ## Changing a sequence -/

/-- A store in which only some of the sequences that were there have changed, and no stream. -/
structure Works (ids : List SequenceId) (before after : Store) : Prop where
  grows : before.Grows after
  size : before.sequences.size ≤ after.sequences.size
  others : ∀ other, other ∉ ids → other.index < before.sequences.size →
    after.sequence other = before.sequence other
  streams : ∀ id, (before.cursor id).isStream → after.cursor id = before.cursor id

/-- The store with a sequence changed. -/
def updated (store : Store) (id : SequenceId) (f : SequenceState → SequenceState) : Store :=
  { store with sequences := store.sequences.modify id.index f }

/-- A sequence that is not there is a default one. -/
theorem sequence_outside {store : Store} {id : SequenceId} (outside : ¬id.index < store.sequences.size) :
    store.sequence id = default := by
  simp [Store.sequence, Array.getD_eq_getD_getElem?, Nat.le_of_not_lt outside]

/-- A sequence with a body of any sort is there. -/
theorem sequence_inside {store : Store} {id : SequenceId} {body : Body} (form : (store.sequence id).body = body)
    (present : body ≠ .abstract) : id.index < store.sequences.size :=
  Decidable.byContradiction fun outside => present (by rw [← form, sequence_outside outside]; rfl)

theorem sequence_updated {store : Store} {id : SequenceId} {f : SequenceState → SequenceState}
    (inside : id.index < store.sequences.size) :
    (store.updated id f).sequence id = f (store.sequence id) := by
  simp [updated, Store.sequence, Array.getD_eq_getD_getElem?, Array.getElem_modify, inside]

theorem sequence_updated_ne {store : Store} {id other : SequenceId}
    {f : SequenceState → SequenceState} (different : other ≠ id) :
    (store.updated id f).sequence other = store.sequence other := by
  have apart : id.index ≠ other.index := fun same => different (by cases other; cases id; simp_all)
  simp [updated, Store.sequence, Array.getD_eq_getD_getElem?, Array.getElem?_modify, apart]

@[simp] theorem size_updated (store : Store) (id : SequenceId) (f : SequenceState → SequenceState) :
    (store.updated id f).sequences.size = store.sequences.size := by
  simp [updated]

/-- Changing a sequence changes nothing else. -/
theorem grows_updated (store : Store) (id : SequenceId) (f : SequenceState → SequenceState) :
    store.Grows (store.updated id f) :=
  ⟨⟨#[], by simp [updated]⟩, ⟨#[], by simp [updated]⟩, rfl, rfl, fun _ => rfl, rfl, Nat.le_refl _⟩

theorem works_updated {store : Store} {id : SequenceId} {f : SequenceState → SequenceState}
    {ids : List SequenceId} (member : id ∈ ids) : store.Works ids (store.updated id f) :=
  ⟨grows_updated store id f, by simp, fun _ apart _ =>
    sequence_updated_ne fun same => apart (same ▸ member), fun _ _ => rfl⟩

theorem Works.refl (ids : List SequenceId) (store : Store) : store.Works ids store :=
  ⟨.refl store, Nat.le_refl _, fun _ _ _ => rfl, fun _ _ => rfl⟩

theorem Works.trans {ids : List SequenceId} {first second third : Store}
    (h : first.Works ids second) (k : second.Works ids third) : first.Works ids third :=
  ⟨h.grows.trans k.grows, Nat.le_trans h.size k.size, fun other apart there =>
    (k.others other apart (Nat.lt_of_lt_of_le there h.size)).trans (h.others other apart there),
    fun id stream => by
      have kept := h.streams id stream
      rw [k.streams id (by rwa [kept]), kept]⟩

/-- Fewer sequences have changed than may have. -/
theorem Works.mono {ids more : List SequenceId} {before after : Store} (h : before.Works ids after)
    (sub : ∀ id ∈ ids, id ∈ more) : before.Works more after :=
  ⟨h.grows, h.size, fun other apart => h.others other fun member => apart (sub other member), h.streams⟩

/-- While no sequence changes, none of some sequences does. -/
theorem Still.works {ids : List SequenceId} {before after : Store} (still : before.Still after) :
    before.Works ids after :=
  ⟨still.grows, by simp [still.sequences],
    fun other _ _ => by simp only [Store.sequence, still.sequences], still.streams⟩

/-- A cursor that is not there is no stream. -/
theorem inside_of_isStream {store : Store} {id : CursorId} (stream : (store.cursor id).isStream) :
    id.index < store.cursors.size := by
  refine Nat.lt_of_not_le fun outside => ?_
  have absent : store.cursor id = default := by
    simp [Store.cursor, Array.getD_eq_getD_getElem?, Array.getElem?_eq_none outside]
  simp [absent, default, instInhabitedCursor.default, Cursor.isStream] at stream

theorem Extends.still {before after : Store} (h : before.Extends after) : before.Still after :=
  ⟨h.grows, h.sequences, fun id stream => h.cursors id (inside_of_isStream stream)⟩

/-! ## Growth -/

theorem Grows.callsOf {before after : Store} (h : before.Grows after)
    (calls : ∀ id, (after.meter id).calls = (before.meter id).calls) (id : SourceId) :
    after.callsOf id = before.callsOf id := by
  simp only [Store.callsOf, Store.source, h.sources, calls]

theorem CalledSince.trans {first second third : Store} {body : Body} {m n : Nat}
    (h : first.CalledSince second body m) (k : second.CalledSince third body n) :
    first.CalledSince third body (m + n) := fun id found => by
  rw [k id found, h id found, Nat.add_assoc]

theorem HoldsFeed.later {before after : Store} {feed : Option Feed} {held : Option Start}
    (h : before.HoldsFeed D aside feed held)
    (plays : ∀ id tape, feed = some (.cursor id) → before.Plays D id tape → after.Plays D id tape) :
    after.HoldsFeed D aside feed held := by
  rcases feed with _ | id | id <;> rcases held with _ | tape | _ <;>
    first
    | exact h
    | exact ⟨h.1, plays _ _ rfl h.2⟩

/-- What backs a body backs it with another feed, once calls were counted and its iterators have moved, if
it is told what is kept aside and what is held then. -/
theorem Backs.change {before after : Store} {body : Body} {origin : Origin} (n : Nat) (tape : Tape)
    (feed : Option Feed) (held : Option Start) (h : before.Backs D aside body origin)
    (grows : before.Grows after) (calls : before.CalledSince after body n)
    (kept : ∀ id, aside = some id → after.Plays D id tape)
    (holds : after.HoldsFeed D aside feed held) :
    after.Backs D aside (body.withFeed feed) { origin with
      openings := fun i => origin.openings (i + n), kept := tape, held := held } := by
  obtain ⟨ground, opens, -, -, oneShot, refuses, drops, size⟩ := h
  have opens' : ∀ later m, after.Grows later → after.CalledSince later body m →
      ∃ opened, later.Opens D aside body.opener (origin.openings (m + n)) opened ∧
        later.CalledSince opened body 1 := by
    intro later m grows' called
    rw [Nat.add_comm m n]
    exact opens later (n + m) (grows.trans grows') (calls.trans called)
  have size' : ∀ later, after.Grows later →
      body.reportedSize.from? later = (origin.size.mapError Halt.fault, later) :=
    fun later grows' => size later (grows.trans grows')
  cases body with
  | iterable data old =>
    refine ⟨rfl, opens', kept, holds, by simpa [Body.withFeed] using oneShot, fun data' feed' form => ?_,
      by simpa [Body.withFeed] using drops, size'⟩
    cases form
    exact refuses data old rfl
  | produced factory declared old =>
    refine ⟨rfl, opens', kept, holds, by simpa [Body.withFeed] using oneShot, fun data' feed' form => ?_,
      by simpa [Body.withFeed] using drops, size'⟩
    cases form
  | _ => simp [Body.isGround] at ground

/-- What a body over data opens does not depend on what it holds. -/
theorem withFeed_ground {body : Body} (base : body.isGround) (feed : Option Feed) :
    (body.withFeed feed).opener = body.opener ∧ (body.withFeed feed).feed = feed ∧
      ∀ other, (body.withFeed feed).withFeed other = body.withFeed other := by
  cases body with
  | iterable | produced => exact ⟨rfl, rfl, fun _ => rfl⟩
  | _ => cases base

@[simp] theorem withFeed_feed (body : Body) : body.withFeed body.feed = body := by
  cases body <;> rfl

/-- What backs a body goes on doing so while neither its iterators move nor its factory is called. -/
theorem Backs.later {before after : Store} {body : Body} {origin : Origin}
    (h : before.Backs D aside body origin) (grows : before.Grows after)
    (calls : before.CalledSince after body 0)
    (size : before.cursors.size ≤ after.cursors.size)
    (still : ∀ id : CursorId, id.index < before.cursors.size →
      (before.cursor id).isStream = false → after.cursor id = before.cursor id) :
    after.Backs D aside body origin := by
  have plays : ∀ id tape, before.Plays D id tape → after.Plays D id tape := fun id tape plays =>
    grows.plays size (still id plays.1 plays.2.noStream) plays
  have changed := h.change 0 _ _ _ grows calls (fun id found => plays id _ (h.kept id found))
    (h.held.later fun id tape _ => plays id tape)
  rwa [withFeed_feed] at changed

/-- An iterator that moves leaves what the others play. -/
theorem Moves.plays {before after : Store} {id other : CursorId} {tape : Tape}
    (moves : before.Moves id after) (different : other ≠ id) (plays : before.Plays D other tape) :
    after.Plays D other tape :=
  moves.grows.plays (by simp [moves.size]) (moves.others other different) plays

/-- Moving on the iterator that an origin holds, or comes to hold, ends as moving its tape on does. -/
theorem advance_backs {store : Store} {body : Body} {origin : Origin} {id : CursorId} {start : Start}
    (n : Nat) (backs : store.Backs D aside body origin)
    (holds : store.HoldsFeed D aside (some (.cursor id)) (some start)) :
    ∃ ended after, ((calls (n + 1)).advance id).from? store = (ended, after) ∧
      after.Delivers D ended (origin.advance start).1 ∧
      after.Backs D aside (body.withFeed (some (.cursor id))) (origin.advance start).2 ∧
      store.Still after := by
  cases start with
  | own tape =>
    obtain ⟨apart, plays⟩ := holds
    obtain ⟨ended, after, ends, delivers, plays', moves⟩ := advance_plays n plays
    refine ⟨ended, after, ends, delivers, ?_, moves.still⟩
    exact backs.change 0 _ (some (.cursor id)) _ moves.grows (fun id _ => moves.grows.callsOf moves.calls id)
      (fun other found => moves.plays (fun same => apart (same ▸ found)) (backs.kept other found))
      ⟨apart, plays'⟩
  | kept =>
    have there : aside = some id := holds
    obtain ⟨ended, after, ends, delivers, plays, moves⟩ := advance_plays n (backs.kept id there)
    refine ⟨ended, after, ends, delivers, ?_, moves.still⟩
    refine backs.change 0 _ (some (.cursor id)) _ moves.grows
      (fun id _ => moves.grows.callsOf moves.calls id) (fun other found => ?_) there
    obtain rfl : id = other := Option.some.inj (there.symm.trans found)
    exact plays

/-! ## Pulling -/

/-- Pulling from a sequence over an iterable or a factory draws from what it holds, or opens first. -/
theorem from?_pullWith_ground {store : Store} {id : SequenceId} {body : Body} (c : Calls)
    (found : (store.sequence id).body = body) (ground : body.isGround) :
    (c.pullWith id).from? store =
      match body.feed with
      | some feed => (c.draw feed).from? store
      | none => (do
          let feed ← body.opener
          Run.setBody id (body.withFeed (some feed))
          c.draw feed).from? store := by
  rw [Calls.pullWith, Run.from?_bind_ok (Run.from?_sequence id store), found]
  cases body with
  | iterable data feed => cases feed <;> rfl
  | produced factory size feed =>
    cases feed with
    | some feed => rfl
    | none => simp only [Calls.pullProduced, Body.feed, Body.opener, Body.withFeed, bind_assoc]
  | _ => simp [Body.isGround] at ground

/-- Whether a sequence on an origin is where it was except for what it holds, and the origin is behind it. -/
def LeavesBehind (store : Store) (D : Item → Prop) (aside : Option CursorId) (id : SequenceId)
    (left : Origin) (after : Store) : Prop :=
  ∃ feed, after.Backs D aside ((store.sequence id).body.withFeed feed) left ∧
    after.sequence id = { store.sequence id with body := (store.sequence id).body.withFeed feed } ∧
    store.Works [id] after

/-- Whether a pull from a sequence on an origin ended as a draw, with what is left of the origin behind the
sequence. -/
def PullsFrom (store : Store) (D : Item → Prop) (aside : Option CursorId) (id : SequenceId)
    (told : Draw) (left : Origin) (ending : Except Halt Value × Store) : Prop :=
  ending.2.Delivers D ending.1 told ∧ store.LeavesBehind D aside id left ending.2

/-- Drawing from an iterator that a sequence holds ends as moving its tape on does. -/
theorem draw_pullsFrom {store before : Store} {id : SequenceId} {origin : Origin} {k : CursorId}
    {start : Start} (n : Nat)
    (state : before.sequence id =
      { store.sequence id with body := (store.sequence id).body.withFeed (some (.cursor k)) })
    (works : store.Works [id] before)
    (backs : before.Backs D aside (store.sequence id).body origin)
    (holds : before.HoldsFeed D aside (some (.cursor k)) (some start)) :
    store.PullsFrom D aside id (origin.advance start).1 (origin.advance start).2
      (((calls (n + 1)).draw (.cursor k)).from? before) := by
  obtain ⟨ended, after, ends, delivers, backs', still⟩ := advance_backs n backs holds
  change store.PullsFrom D aside id _ _ (((calls (n + 1)).advance k).from? before)
  rw [ends]
  refine ⟨delivers, some (.cursor k), backs', ?_, works.trans still.works⟩
  rw [← state]
  simp only [Store.sequence, still.sequences]

/-- What a sequence holds is an iterator, and its origin holds a start for it. -/
theorem HoldsFeed.some {store : Store} {feed : Feed} {held : Option Start}
    (h : store.HoldsFeed D aside (some feed) held) :
    ∃ k start, feed = .cursor k ∧ held = some start := by
  rcases feed with k | k <;> rcases held with _ | start <;>
    first
    | exact h.elim
    | exact ⟨k, start, rfl, rfl⟩

/-- A sequence without a feed opens one for a start, and its origin backs it then. -/
theorem opens_backs {store opened : Store} {id : SequenceId} {origin : Origin} {start : Start}
    (backs : store.Backs D aside (store.sequence id).body origin)
    (opens : store.Opens D aside (store.sequence id).body.opener (.ok start) opened)
    (called : store.CalledSince opened (store.sequence id).body 1) :
    ∃ k, (store.sequence id).body.opener.from? store = (.ok (.cursor k), opened) ∧
      opened.HoldsFeed D aside (some (.cursor k)) (some start) ∧
      opened.Backs D aside (store.sequence id).body
        { origin with openings := fun i => origin.openings (i + 1) } := by
  obtain ⟨extend, opens⟩ := opens
  have kept : ∀ k, aside = some k → opened.Plays D k origin.kept := fun k found =>
    extend.grows.plays extend.size (extend.cursors k (backs.kept k found).1) (backs.kept k found)
  have backs' := backs.change 1 _ (store.sequence id).body.feed origin.held extend.grows called kept
    (backs.held.later fun k tape _ plays =>
      extend.grows.plays extend.size (extend.cursors k plays.1) plays)
  rw [withFeed_feed] at backs'
  cases start with
  | own tape =>
    obtain ⟨k, ends, new, plays⟩ := opens
    refine ⟨k, ends, ⟨fun found => ?_, plays⟩, backs'⟩
    exact absurd (backs.kept k found).1 (Nat.not_lt.mpr new)
  | kept =>
    obtain ⟨k, ends, found⟩ := opens
    exact ⟨k, ends, found, backs'⟩

/-- A pull from a sequence over an iterable or a factory ends as a draw from its origin does. -/
theorem pull_backs {store : Store} {id : SequenceId} {origin : Origin} (n : Nat)
    (inside : id.index < store.sequences.size)
    (backs : store.Backs D aside (store.sequence id).body origin) :
    match origin.draw n with
    | none => (((calls (n + 1)).pull id).from? store).1 = .error .outOfFuel
    | some (told, left) =>
      store.PullsFrom D aside id told left (((calls (n + 1)).pull id).from? store) := by
  have pulled := from?_pullWith_ground (calls n) rfl backs.ground
  change ((calls (n + 1)).pull id).from? store = _ at pulled
  have holds := backs.held
  rw [Origin.draw, pulled]
  cases feed : (store.sequence id).body.feed with
  | some feed' =>
    rw [feed] at holds
    obtain ⟨k, start, rfl, held⟩ := holds.some
    rw [held] at holds ⊢
    cases n with
    | zero => rfl
    | succ n =>
      refine draw_pullsFrom n ?_ (.refl _ _) backs holds
      rw [← feed, withFeed_feed]
  | none =>
    have held : origin.held = none := by
      rw [feed] at holds
      cases held : origin.held with
      | none => rfl
      | some start => rw [held] at holds; exact holds.elim
    obtain ⟨opened, opens, called⟩ := backs.opens store 0 (.refl store) fun _ _ => rfl
    rw [held]
    cases start : origin.openings 0 with
    | error fault =>
      rw [start] at opens
      obtain ⟨extend, opens⟩ := opens
      simp only [Run.from?_bind_error opens]
      refine ⟨rfl, none, ?_, ?_, ?_⟩
      · have kept : ∀ k, aside = some k → opened.Plays D k origin.kept := fun k found =>
          extend.grows.plays extend.size (extend.cursors k (backs.kept k found).1)
            (backs.kept k found)
        exact backs.change 1 _ none none extend.grows called kept trivial
      · rw [← feed, withFeed_feed]
        simp only [Store.sequence, extend.sequences]
      · exact extend.still.works
    | ok start' =>
      rw [start] at opens
      obtain ⟨k, ends, holds', backs'⟩ := opens_backs backs opens called
      rw [held] at backs'
      have run : ∀ c : Calls, (do
          let feed ← (store.sequence id).body.opener
          Run.setBody id ((store.sequence id).body.withFeed (some feed))
          c.draw feed : Run Value).from? store = (c.draw (.cursor k)).from? (opened.updated id
            fun state => { state with
              body := (store.sequence id).body.withFeed (some (.cursor k)) }) := by
        intro c
        rw [Run.from?_bind_ok ends, Run.from?_bind_ok (Run.from?_setBody ..)]
        rfl
      simp only [run]
      cases n with
      | zero => rfl
      | succ n =>
        have same : opened.sequence id = store.sequence id := by
          simp only [Store.sequence, opens.1.sequences]
        refine draw_pullsFrom n ?_ ?_ (backs'.later (grows_updated ..) (fun _ _ => rfl) (Nat.le_refl _)
          fun _ _ _ => rfl) (holds'.later fun _ _ _ plays =>
            (grows_updated ..).plays (Nat.le_refl _) rfl plays)
        · rw [sequence_updated (by rwa [opens.1.sequences]), same]
        · exact opens.1.still.works.trans (works_updated List.mem_cons_self)

/-! ## Resetting and releasing -/

/-- Nothing has to change for an origin to stay behind a sequence. -/
theorem leavesBehind_same {store : Store} {id : SequenceId} {origin : Origin}
    (backs : store.Backs D aside (store.sequence id).body origin) :
    store.LeavesBehind D aside id origin store :=
  ⟨(store.sequence id).body.feed, by rwa [withFeed_feed], by rw [withFeed_feed], .refl _ _⟩

/-- An iterator that a sequence holds is let go of. -/
theorem leavesBehind_drop {store before : Store} {id : SequenceId} {origin : Origin}
    (inside : id.index < before.sequences.size) (works : store.Works [id] before)
    (same : before.sequence id = store.sequence id)
    (backs : before.Backs D aside (store.sequence id).body origin) :
    store.LeavesBehind D aside id { origin with held := none }
      (before.updated id fun state =>
        { state with body := (store.sequence id).body.withFeed none }) := by
  have grows := grows_updated before id fun state =>
    { state with body := (store.sequence id).body.withFeed none }
  refine ⟨none, backs.change 0 _ none none grows (fun _ _ => rfl) (fun k found =>
    grows.plays (Nat.le_refl _) rfl (backs.kept k found)) trivial, ?_,
    works.trans (works_updated List.mem_cons_self)⟩
  rw [sequence_updated inside, same]

/-- Closing what a sequence holds ends as closing it does for the origin. -/
theorem close_backs {store : Store} {id : SequenceId} {origin : Origin} (feed : Feed)
    (found : (store.sequence id).body.feed = some feed)
    (backs : store.Backs D aside (store.sequence id).body origin) :
    ∃ after, (Run.closeFeed feed).from? store = (ending origin.close.1, after) ∧
      after.Backs D aside (store.sequence id).body origin.close.2 ∧ store.Still after := by
  have holds := backs.held
  rw [found] at holds
  obtain ⟨k, start, rfl, held⟩ := holds.some
  rw [held] at holds
  cases start with
  | own tape =>
    obtain ⟨apart, plays⟩ := holds
    obtain ⟨after, ends, plays', moves⟩ := close_plays plays
    have changed := backs.change 0 _ (some (.cursor k)) (some (.own tape.close.2)) moves.grows
      (fun id _ => moves.grows.callsOf moves.calls id)
      (fun other there => moves.plays (fun same => apart (same ▸ there)) (backs.kept other there))
      ⟨apart, plays'⟩
    rw [← found, withFeed_feed] at changed
    simp only [Origin.close, held]
    exact ⟨after, ends, changed, moves.still⟩
  | kept =>
    have there : aside = some k := holds
    obtain ⟨after, ends, plays', moves⟩ := close_plays (backs.kept k there)
    have changed := backs.change 0 origin.kept.close.2 (some (.cursor k)) (some .kept) moves.grows
      (fun id _ => moves.grows.callsOf moves.calls id) (fun other found' => by
        obtain rfl : k = other := Option.some.inj (there.symm.trans found')
        exact plays') there
    rw [← found, withFeed_feed, ← held] at changed
    simp only [Origin.close, held]
    rw [held] at changed
    exact ⟨after, ends, changed, moves.still⟩

/-- A sequence over an iterator refuses to begin again as its origin says. -/
theorem Backs.refusal {store : Store} {data : Value} {feed : Option Feed} {origin : Origin}
    (backs : store.Backs D aside (.iterable data feed) origin) (oneShot : Store.isOneShot data = true) :
    .cannotRewind SequenceKind.iterable.typeName (store.typeName data ++ " is a one-shot iterator") =
      origin.refusal := by
  obtain ⟨k, rfl, found⟩ := backs.refuses data feed rfl oneShot
  rw [Origin.refusal, ← (backs.kept k found).2.name]
  rfl

/-- Resetting a sequence over an iterable or a factory ends as resetting its origin does. -/
theorem reset_backs {store : Store} {id : SequenceId} {origin : Origin} (c : Calls)
    (inside : id.index < store.sequences.size)
    (backs : store.Backs D aside (store.sequence id).body origin) :
    ∃ after, (c.reset id).from? store =
        (ending (origin.reset (store.sequence id).started).1, after) ∧
      store.LeavesBehind D aside id (origin.reset (store.sequence id).started).2 after := by
  have one := backs.oneShot
  have drops := backs.drops
  rw [Calls.reset, Run.from?_bind_ok (Run.from?_sequence id store)]
  cases body : (store.sequence id).body with
  | iterable data feed =>
    have noDrop : origin.drops = false := by simpa [body] using drops
    have oneShot : origin.oneShot = Store.isOneShot data := by
      rw [Bool.eq_iff_iff, one]
      simp [body]
    by_cases refused : (Store.isOneShot data && (store.sequence id).started) = true
    · have refusal := (body ▸ backs).refusal (Bool.and_eq_true_iff.mp refused).1
      have resets : origin.reset (store.sequence id).started = (some origin.refusal, origin) := by
        simp [Origin.reset, oneShot, refused]
      rw [resets]
      refine ⟨store, ?_, leavesBehind_same backs⟩
      simp [refused, Run.from?_bind, ending, ← refusal, Body.kind]
    · have resets : origin.reset (store.sequence id).started =
          (none, { origin with held := none }) := by
        simp [Origin.reset, oneShot, refused, noDrop]
      rw [resets]
      have dropped := leavesBehind_drop inside (.refl _ _) rfl backs
      rw [body] at dropped
      refine ⟨_, ?_, dropped⟩
      simp only [refused]
      rfl
  | produced factory size feed =>
    have drop : origin.drops = true := drops.mpr ⟨_, _, _, body⟩
    have many : origin.oneShot = false := by simpa [body] using one
    cases feed with
    | none =>
      have held : origin.held = none := by
        have holds := backs.held
        rw [body] at holds
        cases held : origin.held with
        | none => rfl
        | some start => rw [held] at holds; exact holds.elim
      have resets : origin.reset (store.sequence id).started =
          (none, { origin with held := none }) := by
        simp [Origin.reset, many, drop, Origin.close, held]
      rw [resets]
      have dropped := leavesBehind_drop inside (.refl _ _) rfl backs
      rw [body] at dropped
      exact ⟨_, rfl, dropped⟩
    | some feed =>
      obtain ⟨after, ends, backs', still⟩ :=
        close_backs feed (by rw [body]; rfl) backs
      have state : after.sequence id = store.sequence id := by
        simp only [Store.sequence, still.sequences]
      cases closed : origin.close.1 with
      | some fault =>
        have resets : origin.reset (store.sequence id).started = (some fault, origin.close.2) := by
          rcases pair : origin.close with ⟨fault?, left⟩
          rw [pair] at closed
          simp only at closed
          simp [Origin.reset, many, drop, pair, closed]
        rw [resets]
        rw [closed] at ends
        refine ⟨after, Run.from?_bind_error ends, (store.sequence id).body.feed, ?_, ?_,
          still.works⟩
        · rwa [withFeed_feed]
        · rw [withFeed_feed, state]
      | none =>
        have resets : origin.reset (store.sequence id).started =
            (none, { origin.close.2 with held := none }) := by
          rcases pair : origin.close with ⟨fault?, left⟩
          rw [pair] at closed
          simp only at closed
          simp [Origin.reset, many, drop, pair, closed]
        rw [resets]
        rw [closed] at ends
        have dropped := leavesBehind_drop (show id.index < after.sequences.size by rwa [still.sequences])
          still.works state backs'
        rw [body] at dropped
        exact ⟨_, Run.from?_bind_ok ends, dropped⟩
  | _ =>
    have ground := backs.ground
    simp [body, Body.isGround] at ground

/-- What a sequence over an iterable or a factory releases at its end is what its origin releases. -/
theorem release_backs {store : Store} {id : SequenceId} {origin : Origin}
    (inside : id.index < store.sequences.size)
    (backs : store.Backs D aside (store.sequence id).body origin) :
    ∃ after, (Run.cleanUp id).from? store = (.ok (), after) ∧
      store.LeavesBehind D aside id origin.release after := by
  have drops := backs.drops
  rw [Run.cleanUp, Run.from?_bind_ok (Run.from?_sequence id store), Origin.release]
  cases body : (store.sequence id).body with
  | iterable data feed =>
    have noDrop : origin.drops = false := by simpa [body] using drops
    rw [if_neg (by simp [noDrop])]
    exact ⟨store, rfl, leavesBehind_same backs⟩
  | produced factory size feed =>
    rw [if_pos (drops.mpr ⟨_, _, _, body⟩)]
    have dropped := leavesBehind_drop inside (.refl _ _) rfl backs
    rw [body] at dropped
    exact ⟨_, rfl, dropped⟩
  | _ =>
    have ground := backs.ground
    simp [body, Body.isGround] at ground

end Store

end FirstSeen
