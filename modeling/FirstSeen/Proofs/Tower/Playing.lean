import FirstSeen.Proofs.Data
import FirstSeen.Engine
import FirstSeen.Proofs.Outcome
import FirstSeen.Proofs.Tower.Machine

/-!
# Iterators as tapes

An iterator of a store *plays* a tape if it is where the tape is and its script tells the same: an object
that is there already shows the element of that place, a value that is made has its contents, and a fault
is the same fault. Moving the iterator on then ends as moving the tape on does, and leaves an iterator that
plays the tape from there. Nothing else in the store moves, and the counted calls of factories stay.

Elements are drawn from a domain that is left open: whatever is played belongs to it.
-/

set_option autoImplicit false

namespace FirstSeen

/-- Whether a value is an object that is told apart from others with the same contents. -/
def Value.isDatum : Value → Bool
  | object (.datum _) => true
  | _ => false

/-- The element that a value becomes when it is made. -/
def Item.made (v : Value) : Item := ⟨v, !v.isCanonical, none⟩

/-- The fault by which closing an iterator fails, if it does. -/
def CloseRule.fault? : CloseRule → Option Fault
  | .silent => none
  | .counted fault => fault

namespace Cursor

/-- What an iterator hands out at each position. -/
def script (store : Store) : Cursor → Nat → Option Event
  | walking _ script .. | generating script .. => script
  | listing list .. => fun i => (store.list list)[i]?.map .value
  | ranging start stop step _ => fun i => (Value.rangeItem? start stop step i).map .made
  | streaming .. => fun _ => none

/-- Where an iterator is. -/
def position : Cursor → Nat
  | walking _ _ position .. | generating _ position .. | listing _ position _
  | ranging _ _ _ position => position
  | streaming .. => 0

/-- How an iterator goes on. -/
def manner : Cursor → Manner
  | walking _ _ _ _ closing => .walker closing.fault?
  | generating _ _ phase _ closing => .generator phase closing.fault?
  | listing _ _ ended => .lister ended
  | ranging .. | streaming .. => .walker none

/-- The iterator after an element was handed out. -/
def afterElement : Cursor → Cursor
  | walking name script position meter closing => walking name script (position + 1) meter closing
  | generating script position _ meter closing =>
    generating script (position + 1) .suspended meter closing
  | listing list position _ => listing list (position + 1) false
  | ranging start stop step position => ranging start stop step (position + 1)
  | cursor => cursor

/-- The iterator after it met the end. -/
def afterEnd : Cursor → Cursor
  | generating script position _ meter closing => generating script position .finished meter closing
  | listing list position _ => listing list position true
  | cursor => cursor

/-- The iterator after a fault of its script. -/
def afterFault : Cursor → Cursor
  | walking name script position meter closing => walking name script (position + 1) meter closing
  | generating script position _ meter closing =>
    generating script (position + 1) .finished meter closing
  | cursor => cursor

end Cursor

namespace Store

variable (D : Item → Prop)

/-- Whether a value shows an element of the domain. -/
structure Shows (store : Store) (item : Item) (v : Value) : Prop where
  domain : D item
  data : store.IsData v
  contents : store.contents v = item.contents
  boxed : v.isDatum = item.boxed
  held : ∀ w, item.held = some w → v = w

/-- Whether an event of a script tells what a tape has in its place. -/
def Tells (store : Store) : Option Event → Option Draw → Prop
  | none, none => True
  | some (.value v), some (.ok item) => store.Shows D item v
  | some (.made v), some (.ok item) => v.refs = [] ∧ item = .made v ∧ D item
  | some (.fault fault), some (.error fault') => fault = fault'
  | _, _ => False

/-- Whether a run ended as a draw did. -/
def Delivers (store : Store) : Except Halt Value → Draw → Prop
  | .ok v, .ok item => store.Shows D item v
  | .error halt, .error fault => halt = .fault fault
  | _, _ => False

/-- Whether an iterator is where a tape is and tells what it does. -/
structure PlaysAs (store : Store) (cursor : Cursor) (tape : Tape) : Prop where
  noStream : cursor.isStream = false
  inside : ∀ list position ended, cursor = .listing list position ended → list.index < store.lists.size
  name : cursor.typeName = tape.name
  position : cursor.position = tape.position
  manner : cursor.manner = tape.manner
  script : ∀ i, store.Tells D (cursor.script store i) (tape.script i)

/-- Whether an iterator of the store plays a tape. -/
def Plays (store : Store) (id : CursorId) (tape : Tape) : Prop :=
  id.index < store.cursors.size ∧ store.PlaysAs D (store.cursor id) tape

/-- A store in which at most one iterator has moved. -/
structure Moves (id : CursorId) (before after : Store) : Prop where
  grows : before.Grows after
  sequences : after.sequences = before.sequences
  size : after.cursors.size = before.cursors.size
  others : ∀ other, other ≠ id → after.cursor other = before.cursor other
  meters : after.meters.size = before.meters.size
  calls : ∀ id, (after.meter id).calls = (before.meter id).calls
  streams : ∀ id, (before.cursor id).isStream → after.cursor id = before.cursor id

variable {D}

/-! ## Growth -/

theorem Grows.shows {before after : Store} (h : before.Grows after) {item : Item} {v : Value}
    (shows' : before.Shows D item v) : after.Shows D item v :=
  ⟨shows'.domain, h.isData shows'.data, (h.contents shows'.data).trans shows'.contents, shows'.boxed,
    shows'.held⟩

theorem Grows.tells {before after : Store} (h : before.Grows after) {event : Option Event}
    {told : Option Draw} (tells : before.Tells D event told) : after.Tells D event told := by
  rcases event with _ | _ | _ | _ <;> rcases told with _ | _ | _ <;>
    first
    | exact tells
    | exact h.shows tells

/-- An iterator hands out what it did, since no list changed that was there. -/
theorem Grows.script {before after : Store} (h : before.Grows after) {cursor : Cursor}
    (inside : ∀ list position ended, cursor = .listing list position ended →
      list.index < before.lists.size) :
    (∀ list position ended, cursor = .listing list position ended → list.index < after.lists.size) ∧
      cursor.script after = cursor.script before := by
  have lists : before.lists.size ≤ after.lists.size := by
    obtain ⟨more, same⟩ := h.lists
    simp [same]
  refine ⟨fun list position ended form => Nat.lt_of_lt_of_le (inside list position ended form) lists, ?_⟩
  cases cursor with
  | listing list position ended =>
    have kept := h.list (inside _ _ _ rfl)
    simp only [Cursor.script, kept]
  | _ => rfl

theorem Grows.playsAs {before after : Store} (h : before.Grows after) {cursor : Cursor} {tape : Tape}
    (plays : before.PlaysAs D cursor tape) : after.PlaysAs D cursor tape := by
  obtain ⟨noStream, inside, name, position, manner, script⟩ := plays
  obtain ⟨inside', same⟩ := h.script inside
  refine ⟨noStream, inside', name, position, manner, fun i => ?_⟩
  rw [same]
  exact h.tells (script i)

/-- An iterator that did not move plays what it played. -/
theorem Grows.plays {before after : Store} (h : before.Grows after) {id : CursorId} {tape : Tape}
    (sizes : before.cursors.size ≤ after.cursors.size) (still : after.cursor id = before.cursor id)
    (plays : before.Plays D id tape) : after.Plays D id tape :=
  ⟨Nat.lt_of_lt_of_le plays.1 sizes, still ▸ h.playsAs plays.2⟩

theorem Moves.refl (id : CursorId) (store : Store) : store.Moves id store :=
  ⟨.refl store, rfl, rfl, fun _ _ => rfl, rfl, fun _ => rfl, fun _ _ => rfl⟩

theorem Moves.still {id : CursorId} {before after : Store} (h : before.Moves id after) :
    before.Still after :=
  ⟨h.grows, h.sequences, h.streams⟩

/-! ## Handing out -/

/-- Data that become one object have the same contents then. -/
theorem newObject_places {store : Store} {v : Value} (noObject : v.isObject = false)
    (data : store.IsData v) :
    ∃ w more, (Run.newObject v).from? store = (.ok w, { store with data := store.data ++ more }) ∧
      ({ store with data := store.data ++ more } : Store).IsData w ∧
      ({ store with data := store.data ++ more } : Store).contents w = store.contents v ∧
      ({ store with data := store.data ++ more } : Store).plain w = v ∧
      w.isDatum = !v.isCanonical := by
  rw [Run.from?_newObject]
  by_cases canonical : v.isCanonical
  · have plain : store.plain v = v ∧ v.isDatum = false := by cases v <;> simp_all [Value.isObject, plain,
      Value.isDatum]
    have same : ({ store with data := store.data ++ #[] } : Store) = store := by simp
    refine ⟨v, #[], by simp [canonical], ?_⟩
    rw [same]
    exact ⟨data, rfl, plain.1, by simp [plain.2, canonical]⟩
  · have found : ({ store with data := store.data ++ #[v] } : Store).datum ⟨store.data.size⟩ = v := by
      simp [Store.datum]
    have grows : store.Grows { store with data := store.data ++ #[v] } :=
      ⟨⟨_, rfl⟩, ⟨#[], by simp⟩, rfl, rfl, fun _ => rfl, rfl, Nat.le_refl _⟩
    have deep : store.data.size + store.lists.size + 1 ≤
        (store.data ++ #[v]).size + store.lists.size := by
      have data : (store.data ++ #[v]).size = store.data.size + 1 := Array.size_append
      omega
    obtain ⟨resolved, same⟩ := grows.dataTo data
    obtain ⟨resolved, same'⟩ := dataTo_mono deep resolved
    refine ⟨.object (.datum ⟨store.data.size⟩), #[v], by simp [canonical], ?_, ?_, found,
      by simp [canonical, Value.isDatum]⟩
    · intro ref held
      obtain rfl : ref = .datum ⟨store.data.size⟩ := by simpa [Value.refs] using held
      refine ⟨by simp, ?_, ?_⟩ <;> rw [found]
      · exact noObject
      · exact resolved
    · rw [contents, contentsTo, Value.mapRefs]
      simp only [found]
      exact same'.trans same

/-- A value that is made shows the element that it becomes. -/
theorem newObject_shows (store : Store) {v : Value} (plain : v.refs = []) (domain : D (.made v)) :
    ∃ w more, (Run.newObject v).from? store = (.ok w, { store with data := store.data ++ more }) ∧
      ({ store with data := store.data ++ more } : Store).Shows D (.made v) w := by
  have noObject : v.isObject = false := by cases v <;> simp_all [Value.isObject, Value.refs]
  obtain ⟨w, more, ends, data, contents, -, boxed⟩ :=
    newObject_places noObject (show store.IsData v from isData_of_refs_nil plain)
  rw [contents_of_refs_nil plain] at contents
  exact ⟨w, more, ends, domain, data, contents, boxed, by simp [Item.made]⟩

/-- An event is handed out as what it tells; only objects are added for that. -/
theorem deliver_tells {store : Store} {event : Event} {told : Draw}
    (tells : store.Tells D (some event) (some told)) :
    ∃ ended more, (Run.deliver event).from? store = (ended, { store with data := store.data ++ more }) ∧
      ({ store with data := store.data ++ more } : Store).Delivers D ended told := by
  rcases event with v | v | fault <;> rcases told with fault' | item <;>
    first
    | exact tells.elim
    | skip
  · have same : ({ store with data := store.data ++ #[] } : Store) = store := by simp
    exact ⟨.ok v, #[], by rw [same]; rfl, by rw [same]; exact tells⟩
  · obtain ⟨plain, rfl, domain⟩ := tells
    obtain ⟨w, more, ends, shown⟩ := newObject_shows store plain domain
    exact ⟨.ok w, more, ends, shown⟩
  · exact ⟨.error (.fault fault), #[], by simp [Run.deliver], congrArg Halt.fault tells⟩

/-! ## Moving on -/

/-- Whether counters tell the same about calls. -/
def KeepsCalls (store : Store) (meters : Array Meter) : Prop :=
  meters.size = store.meters.size ∧
    ∀ m : MeterId, (meters.getD m.index default).calls = (store.meter m).calls

/-- The store after an iterator moved, counters changed and objects were made. -/
def moved (store : Store) (id : CursorId) (cursor : Cursor) (meters : Array Meter)
    (more : Array Value) : Store :=
  { store with
    cursors := store.cursors.modify id.index fun _ => cursor, meters := meters,
    data := store.data ++ more }

theorem cursor_moved {store : Store} {id : CursorId} {cursor : Cursor} {meters : Array Meter}
    {more : Array Value} (inside : id.index < store.cursors.size) :
    (store.moved id cursor meters more).cursor id = cursor := by
  simp [moved, Store.cursor, Array.getD_eq_getD_getElem?, Array.getElem_modify, inside]

theorem moves_moved {store : Store} {id : CursorId} (cursor : Cursor) {meters : Array Meter}
    (more : Array Value) (noStream : (store.cursor id).isStream = false)
    (keeps : store.KeepsCalls meters) :
    store.Moves id (store.moved id cursor meters more) := by
  have others : ∀ other, other ≠ id →
      (store.moved id cursor meters more).cursor other = store.cursor other := by
    intro other different
    have apart : id.index ≠ other.index := fun same => different (by cases other; cases id; simp_all)
    simp [moved, Store.cursor, Array.getD_eq_getD_getElem?, Array.getElem?_modify, apart]
  refine ⟨⟨⟨more, rfl⟩, ⟨#[], by simp [moved]⟩, rfl, rfl, fun _ => rfl, rfl, by simp [moved, keeps.1]⟩,
    rfl, by simp [moved], others, keeps.1, keeps.2, fun other stream => ?_⟩
  refine others other fun same => ?_
  rw [same, noStream] at stream
  exact Bool.false_ne_true stream

/-- Counting other uses of a source than calls leaves the counted calls. -/
theorem calls_modify {store : Store} {f : Meter → Meter} (keeps : ∀ m, (f m).calls = m.calls)
    (id m : MeterId) :
    ((store.meters.modify id.index f).getD m.index default).calls = (store.meter m).calls := by
  simp only [Store.meter, Array.getD_eq_getD_getElem?, Array.getElem?_modify]
  split
  · cases store.meters[m.index]? <;> simp [keeps]
  · rfl

/-- The counters after other uses of a source than calls were counted, if they are. -/
theorem from?_updateMeter? (store : Store) {f : Meter → Meter} (keeps : ∀ m, (f m).calls = m.calls)
    (id : Option MeterId) :
    ∃ meters, store.KeepsCalls meters ∧
      (Run.updateMeter? id f).from? store = (.ok (), { store with meters := meters }) := by
  cases id with
  | none => exact ⟨store.meters, ⟨rfl, fun _ => rfl⟩, rfl⟩
  | some id => exact ⟨store.meters.modify id.index f, ⟨by simp, fun m => calls_modify keeps id m⟩, rfl⟩

/-- An iterator that is set to what it is does not move. -/
theorem modify_cursor (store : Store) (id : CursorId) :
    store.cursors.modify id.index (fun _ => store.cursor id) = store.cursors := by
  apply Array.ext_getElem?
  intro i
  rw [Array.getElem?_modify]
  split
  · rename_i same
    subst same
    cases there : store.cursors[id.index]? <;>
      simp [Store.cursor, Array.getD_eq_getD_getElem?, there]
  · rfl

/-- What moving an iterator on comes to, whatever its sort: the event that it hands out, and the iterator
where it is then. -/
def advanced (store : Store) (id : CursorId) (cursor : Cursor) (meters : Array Meter) :
    Except Halt Value × Store :=
  let left (cursor : Cursor) : Store :=
    { store with cursors := store.cursors.modify id.index fun _ => cursor, meters := meters }
  if cursor.manner.spent then (.error (.fault .ended), left cursor)
  else
    match cursor.script store cursor.position with
    | none => (.error (.fault .ended), left cursor.afterEnd)
    | some (.fault fault) => (.error (.fault (cursor.manner.raise fault)), left cursor.afterFault)
    | some event => (Run.deliver event).from? (left cursor.afterElement)

section Advancing

open Cursor

variable {store : Store} {id : CursorId}

theorem from?_advanceWalker {name : String} {script : Script} {position : Nat} {meter : Option MeterId}
    {closing : CloseRule} (found : store.cursor id = walking name script position meter closing) :
    ∃ meters, store.KeepsCalls meters ∧
      (Run.advanceWalker id name script position meter closing).from? store =
        store.advanced id (walking name script position meter closing) meters := by
  obtain ⟨meters, keeps, counted⟩ :=
    from?_updateMeter? store (f := fun m => { m with pulls := m.pulls + 1 })
      (fun _ => rfl) meter
  refine ⟨meters, keeps, ?_⟩
  have still := modify_cursor store id
  rw [found] at still
  rw [Run.advanceWalker, Run.from?_bind_ok counted]
  rcases event : script position with _ | _ | _ | fault <;>
    simp [advanced, manner, Manner.spent, Cursor.script, Cursor.position, event, afterEnd,
      afterElement, afterFault, still, Run.from?_bind, Run.deliver, Manner.raise,
      Except.map]

theorem from?_advanceListing {list : ListId} {position : Nat} {ended : Bool}
    (found : store.cursor id = listing list position ended) :
    (Run.advanceListing id list position ended).from? store =
      store.advanced id (listing list position ended) store.meters := by
  have still := modify_cursor store id
  rw [found] at still
  cases ended with
  | true => simp [Run.advanceListing, advanced, manner, Manner.spent, still, Run.from?_bind]
  | false =>
    cases item : (store.list list)[position]? <;>
      simp [Run.advanceListing, advanced, manner, Manner.spent, Cursor.script, Cursor.position, item,
        afterEnd, afterElement, Run.from?_bind, Run.deliver, Except.map]

theorem from?_advanceRanging {start stop step : Int} {position : Nat}
    (found : store.cursor id = ranging start stop step position) :
    (Run.advanceRanging id start stop step position).from? store =
      store.advanced id (ranging start stop step position) store.meters := by
  have still := modify_cursor store id
  rw [found] at still
  cases item : Value.rangeItem? start stop step position <;>
    simp [Run.advanceRanging, advanced, manner, Manner.spent, Cursor.script, Cursor.position, item,
      afterEnd, afterElement, still, Run.from?_bind, Run.deliver]

theorem from?_advanceGenerator {script : Script} {position : Nat} {phase : Phase}
    {meter : Option MeterId} {closing : CloseRule}
    (found : store.cursor id = generating script position phase meter closing) :
    ∃ meters, store.KeepsCalls meters ∧
      (Run.advanceGenerator id script position phase meter closing).from? store =
        store.advanced id (generating script position phase meter closing) meters := by
  have still := modify_cursor store id
  rw [found] at still
  cases phase with
  | finished =>
    refine ⟨store.meters, ⟨rfl, fun _ => rfl⟩, ?_⟩
    simp [Run.advanceGenerator, advanced, manner, Manner.spent, still, Run.from?_bind]
  | suspended =>
    obtain ⟨meters, keeps, counted⟩ :=
      from?_updateMeter? store (f := fun m => { m with pulls := m.pulls + 1 })
        (fun _ => rfl) meter
    rcases event : script position with _ | _ | _ | fault
    · refine ⟨store.meters, ⟨rfl, fun _ => rfl⟩, ?_⟩
      simp [Run.advanceGenerator, advanced, manner, Manner.spent, Cursor.script, Cursor.position, event,
        afterEnd, Run.from?_bind]
    all_goals
      refine ⟨meters, keeps, ?_⟩
      simp [Run.advanceGenerator, advanced, manner, Manner.spent, Cursor.script, Cursor.position, event,
        afterElement, afterFault, Run.from?_bind, Run.deliver, Manner.raise, counted, Except.map]
  | fresh =>
    obtain ⟨first, keepsFirst, begun⟩ :=
      from?_updateMeter? store (f := fun m => { m with iterations := m.iterations + 1 })
        (fun _ => rfl) meter
    obtain ⟨second, keepsSecond, counted⟩ := from?_updateMeter?
      { store with meters := first } (f := fun m => { m with pulls := m.pulls + 1 })
      (fun _ => rfl) meter
    rcases event : script position with _ | _ | _ | fault
    · refine ⟨first, keepsFirst, ?_⟩
      simp [Run.advanceGenerator, advanced, manner, Manner.spent, Cursor.script, Cursor.position, event,
        afterEnd, Run.from?_bind, begun]
    all_goals
      refine ⟨second, ⟨keepsSecond.1.trans keepsFirst.1,
        fun m => (keepsSecond.2 m).trans (keepsFirst.2 m)⟩, ?_⟩
      simp [Run.advanceGenerator, advanced, manner, Manner.spent, Cursor.script, Cursor.position, event,
        afterElement, afterFault, Run.from?_bind, Run.deliver, Manner.raise, begun, counted, Except.map]

/-- Moving an iterator on, whatever its sort. -/
theorem from?_advanceWith {cursor : Cursor} (c : Calls) (found : store.cursor id = cursor)
    (noStream : cursor.isStream = false) :
    ∃ meters, store.KeepsCalls meters ∧
      (c.advanceWith id).from? store = store.advanced id cursor meters := by
  have keeps : store.KeepsCalls store.meters := ⟨rfl, fun _ => rfl⟩
  rw [Calls.advanceWith, Run.from?_bind_ok (Run.from?_cursor id store), found]
  cases cursor with
  | walking name script position meter closing => exact from?_advanceWalker found
  | listing list position ended => exact ⟨store.meters, keeps, from?_advanceListing found⟩
  | ranging start stop step position => exact ⟨store.meters, keeps, from?_advanceRanging found⟩
  | generating script position phase meter closing => exact from?_advanceGenerator found
  | streaming pipeline input phase => simp [isStream] at noStream

end Advancing

section Following

variable {store : Store} {cursor : Cursor} {tape : Tape}

/-- An iterator follows its tape past an element. -/
theorem PlaysAs.afterElement (plays : store.PlaysAs D cursor tape) :
    store.PlaysAs D cursor.afterElement
      { tape with position := tape.position + 1, manner := tape.manner.afterElement } := by
  obtain ⟨noStream, inside, name, position, manner, script⟩ := plays
  rw [← position, ← manner]
  cases cursor with
  | streaming pipeline input phase => simp [Cursor.isStream] at noStream
  | listing list place ended =>
    refine ⟨rfl, fun _ _ _ form => ?_, name, rfl, rfl, script⟩
    cases form
    exact inside _ _ _ rfl
  | _ => exact ⟨rfl, fun _ _ _ form => (by cases form), name, rfl, rfl, script⟩

/-- An iterator follows its tape to the end. -/
theorem PlaysAs.afterEnd (plays : store.PlaysAs D cursor tape) :
    store.PlaysAs D cursor.afterEnd { tape with manner := tape.manner.afterEnd } := by
  obtain ⟨noStream, inside, name, position, manner, script⟩ := plays
  rw [← manner]
  cases cursor with
  | streaming pipeline input phase => simp [Cursor.isStream] at noStream
  | listing list place ended =>
    refine ⟨rfl, fun _ _ _ form => ?_, name, position, rfl, script⟩
    cases form
    exact inside _ _ _ rfl
  | _ => exact ⟨rfl, fun _ _ _ form => (by cases form), name, position, rfl, script⟩

/-- An iterator follows its tape past a fault of its script. -/
theorem PlaysAs.afterFault {fault : Fault} (plays : store.PlaysAs D cursor tape)
    (met : cursor.script store cursor.position = some (.fault fault)) :
    store.PlaysAs D cursor.afterFault
      { tape with position := tape.position + 1, manner := tape.manner.afterEnd } := by
  obtain ⟨noStream, inside, name, position, manner, script⟩ := plays
  rw [← position, ← manner]
  cases cursor with
  | streaming pipeline input phase => simp [Cursor.isStream] at noStream
  | listing list place ended => simp [Cursor.script] at met
  | ranging start stop step place => simp [Cursor.script] at met
  | _ => exact ⟨rfl, fun _ _ _ form => (by cases form), name, rfl, rfl, script⟩

/-- An iterator that was set to one that plays a tape plays it, and nothing else moved. -/
theorem moved_plays {id : CursorId} {meters : Array Meter} {more : Array Value}
    (inside : id.index < store.cursors.size) (noStream : (store.cursor id).isStream = false)
    (keeps : store.KeepsCalls meters) (plays : store.PlaysAs D cursor tape) :
    (store.moved id cursor meters more).Plays D id tape ∧
      store.Moves id (store.moved id cursor meters more) := by
  have moves := moves_moved cursor more noStream keeps
  exact ⟨⟨by simpa [moved] using inside, (cursor_moved inside).symm ▸ moves.grows.playsAs plays⟩, moves⟩

end Following

/-- Moving an iterator on ends as moving its tape on does, and leaves the iterator playing the tape from
there. Nothing else moves. -/
theorem advance_plays {store : Store} {id : CursorId} {tape : Tape} (n : Nat)
    (plays : store.Plays D id tape) :
    ∃ ended after, ((calls (n + 1)).advance id).from? store = (ended, after) ∧
      after.Delivers D ended tape.step.1 ∧ after.Plays D id tape.step.2 ∧ store.Moves id after := by
  obtain ⟨inside, plays⟩ := plays
  have noStream := plays.noStream
  obtain ⟨meters, keeps, ends⟩ := from?_advanceWith (calls n) rfl noStream
  have unmade : ∀ cursor : Cursor, store.moved id cursor meters #[] =
      { store with cursors := store.cursors.modify id.index fun _ => cursor, meters := meters } :=
    fun cursor => by simp [moved]
  have tells := plays.script tape.position
  rcases result : store.advanced id (store.cursor id) meters with ⟨ended, after⟩
  refine ⟨ended, after, ends.trans result, ?_⟩
  simp only [advanced, ← unmade, plays.manner, plays.position] at result
  rw [Tape.step]
  by_cases spent : tape.manner.spent
  · rw [if_pos spent] at result ⊢
    obtain ⟨rfl, rfl⟩ := Prod.mk.inj result
    exact ⟨rfl, moved_plays inside noStream keeps plays⟩
  rw [if_neg spent] at result ⊢
  -- An element is handed out by the iterator that moved already.
  have handed : ∀ {event : Event} {told : Draw}, store.Tells D (some event) (some told) →
      (Run.deliver event).from? (store.moved id (store.cursor id).afterElement meters #[]) =
        (ended, after) →
      after.Delivers D ended told ∧ after.Plays D id
        { tape with position := tape.position + 1, manner := tape.manner.afterElement } ∧
        store.Moves id after := by
    intro event told tells result
    have moves := moves_moved (store.cursor id).afterElement #[] noStream keeps
    obtain ⟨ended', more, ends', delivers⟩ := deliver_tells (moves.grows.tells tells)
    rw [ends'] at result
    obtain ⟨rfl, rfl⟩ := Prod.mk.inj result
    have same : ({ store.moved id (store.cursor id).afterElement meters #[] with
        data := (store.moved id (store.cursor id).afterElement meters #[]).data ++ more } : Store) =
        store.moved id (store.cursor id).afterElement meters more := by simp [moved]
    rw [same] at delivers ⊢
    exact ⟨delivers, moved_plays inside noStream keeps plays.afterElement⟩
  rcases event : (store.cursor id).script store tape.position with _ | v | v | fault <;>
    rcases told : tape.script tape.position with _ | fault' | item <;>
    rw [event, told] at tells <;> rw [event] at result <;>
    first
    | exact tells.elim
    | skip
  · obtain ⟨rfl, rfl⟩ := Prod.mk.inj result
    exact ⟨rfl, moved_plays inside noStream keeps plays.afterEnd⟩
  · exact handed tells result
  · exact handed tells result
  · obtain ⟨rfl, rfl⟩ := Prod.mk.inj result
    obtain rfl : fault = fault' := tells
    rw [← plays.position] at event
    exact ⟨rfl, moved_plays inside noStream keeps (plays.afterFault event)⟩

/-! ## Closing -/

/-- How a run without an answer ends, given the fault that it fails with, if it does. -/
def ending : Option Fault → Except Halt Unit
  | none => .ok ()
  | some fault => .error (.fault fault)

/-- Noting that an iterator was closed counts this, and fails as the iterator says. -/
theorem from?_noteClose (store : Store) (meter : Option MeterId) (closing : CloseRule) :
    ∃ meters, store.KeepsCalls meters ∧
      (Run.noteClose meter closing).from? store =
        (ending closing.fault?, { store with meters := meters }) := by
  cases closing with
  | silent => exact ⟨store.meters, ⟨rfl, fun _ => rfl⟩, rfl⟩
  | counted fault =>
    obtain ⟨meters, keeps, counted⟩ :=
      from?_updateMeter? store (f := fun m => { m with closes := m.closes + 1 })
        (fun _ => rfl) meter
    refine ⟨meters, keeps, ?_⟩
    cases fault <;> exact Run.from?_bind_ok counted

/-- Closing an iterator ends as closing its tape does, and leaves the iterator playing what is left. -/
theorem close_plays {store : Store} {id : CursorId} {tape : Tape} (plays : store.Plays D id tape) :
    ∃ after, (Run.closeCursor id).from? store = (ending tape.close.1, after) ∧
      after.Plays D id tape.close.2 ∧ store.Moves id after := by
  obtain ⟨inside, plays⟩ := plays
  have noStream := plays.noStream
  have unmade : ∀ (cursor : Cursor) (meters : Array Meter), store.moved id cursor meters #[] =
      { store with cursors := store.cursors.modify id.index fun _ => cursor, meters := meters } :=
    fun cursor meters => by simp [moved]
  have still := modify_cursor store id
  have manner := plays.manner
  rw [Run.closeCursor, Run.from?_bind_ok (Run.from?_cursor id store)]
  cases found : store.cursor id with
  | walking name script position meter closing =>
    obtain ⟨meters, keeps, ends⟩ := from?_noteClose store meter closing
    have closed : tape.close = (closing.fault?, tape) := by
      rw [Tape.close, ← manner, found]
      rfl
    rw [closed]
    refine ⟨_, ends, ?_⟩
    have result : (store.moved id (store.cursor id) meters #[]).Plays D id tape ∧ _ :=
      moved_plays inside noStream keeps plays
    rwa [unmade, still] at result
  | listing list position ended | ranging start stop step position =>
    have closed : tape.close = (none, tape) := by
      rw [Tape.close, ← manner, found]
      rfl
    rw [closed]
    exact ⟨store, rfl, ⟨inside, plays⟩, .refl id store⟩
  | generating script position phase meter closing =>
    have spent : store.PlaysAs D (.generating script position .finished meter closing)
        { tape with manner := .generator .finished closing.fault? } := by
      have plays := plays.afterEnd
      rwa [found, ← manner, found] at plays
    have closed : tape.close =
        (if phase = .suspended then
          closing.fault?.map (Run.insteadOfEnd .generatorSignalledEnd) else none,
        { tape with manner := .generator .finished closing.fault? }) := by
      rw [Tape.close, ← manner, found]
      rfl
    rw [closed]
    by_cases begun : phase = .suspended
    · obtain ⟨meters, keeps, ends⟩ := from?_noteClose
        (store.moved id (.generating script position .finished meter closing) store.meters #[])
        meter closing
      refine ⟨store.moved id (.generating script position .finished meter closing) meters #[], ?_,
        moved_plays inside noStream keeps spent⟩
      rw [unmade] at ends
      simp only [begun, if_true]
      rw [Run.from?_bind_ok (Run.from?_setCursor ..), Run.from?_onFault, ends]
      cases closing.fault? <;> simp [ending, unmade]
    · refine ⟨store.moved id (.generating script position .finished meter closing) store.meters #[], ?_,
        moved_plays inside noStream ⟨rfl, fun _ => rfl⟩ spent⟩
      simp only [begun, if_false]
      rw [Run.from?_bind_ok (Run.from?_setCursor ..), unmade]
      rfl
  | streaming pipeline input phase => simp [found, Cursor.isStream] at noStream

end Store

end FirstSeen
