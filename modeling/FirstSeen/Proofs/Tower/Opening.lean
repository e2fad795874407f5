import FirstSeen.Proofs.Tower.Ground
import FirstSeen.Proofs.Tower.Judging
import FirstSeen.Proofs.Tower.Placing

/-!
# What opening a value comes to

Told without running anything: a fault, a new iterator, or one that was there. An iterator can be *read* if
it hands out nothing but data; its tape is then computed from the store. Opening a value, also one that is
installed first, ends as computed, whatever the store has grown to.
-/

set_option autoImplicit false

namespace FirstSeen

/-- What opening data comes to: an iterator that is new, or one that was there. -/
inductive Opened where
  | new (cursor : Cursor)
  | old (id : CursorId)

/-- What opening a source comes to. -/
def Source.opened (source : Source) : Except Fault Opened :=
  match source.opening with
  | some (.generator script) =>
    .ok (.new (.generating script 0 .fresh (some source.meter) .silent))
  | some (.walker script) => .ok (.new (.walking "StepIter" script 0 (some source.meter) .silent))
  | some (.refusal fault) => .error fault
  | some (.indexed script) => .ok (.new (.walking "iterator" script 0 none .silent))
  | none => .error (.notIterable source.typeName)

/-- Whether a value is opened by its contents. -/
def Value.isHeld : Value → Bool
  | .object (.sequence _) | .object (.cursor _) | .object (.list _) | .object (.source _) => false
  | _ => true

/-- What opening a value that is held by its contents comes to, given the name of its type. -/
def Opened.ofHeld (typeName : String) (held : Value) : Except Fault Opened :=
  match held with
  | .range start stop step => .ok (.new (.ranging start stop step 0))
  | _ =>
    match Script.ofValue? held with
    | some script => .ok (.new (.walking held.iteratorName script 0 none .silent))
    | none => .error (.notIterable typeName)

/-- Whether each element that a tape tells belongs to a domain. -/
def Tape.Within (tape : Tape) (D : Item → Prop) : Prop :=
  ∀ i item, tape.script i = some (.ok item) → D item

/-- Opens a value that is held by its contents. -/
def Run.openHeld (v : Value) : Run Feed := do
  match ← Run.plain v with
  | .range start stop step => return .cursor (← Run.newCursor (.ranging start stop step 0))
  | held =>
    match Script.ofValue? held with
    | some script => return .cursor (← Run.newCursor (.walking held.iteratorName script 0 none .silent))
    | none => Run.fail (.notIterable (← Run.typeName v))

theorem Run.openFeed_of_isHeld {v : Value} (held : v.isHeld) : Run.openFeed v = Run.openHeld v := by
  cases v with
  | object ref => cases ref <;> first | rfl | simp [Value.isHeld] at held
  | _ => rfl

namespace Store

/-- What opening a value comes to, sequences apart. -/
def opened (store : Store) (v : Value) : Except Fault Opened :=
  match v with
  | .object (.cursor id) => .ok (.old id)
  | .object (.list id) => .ok (.new (.listing id 0 false))
  | .object (.source id) => (store.source id).opened
  | _ => Opened.ofHeld (store.typeName v) (store.plain v)

/-- What an event hands out. -/
def told (store : Store) : Event → Draw
  | .value v => .ok ⟨store.contents v, v.isDatum, some v⟩
  | .made v => .ok (.made v)
  | .fault fault => .error fault

/-- What an event hands out whose value is installed first. -/
def toldPlaced (store : Store) : Event → Draw
  | .value v => .ok ⟨store.contents v, v.isBoxed, none⟩
  | .made v => .ok (.made v)
  | .fault fault => .error fault

/-- The tape that an iterator plays. -/
def tapeOf (store : Store) (cursor : Cursor) : Tape where
  name := cursor.typeName
  script i := (cursor.script store i).map store.told
  position := cursor.position
  manner := cursor.manner

/-- The start that opening a value gives. -/
def startOf (store : Store) (v : Value) : Except Fault Start :=
  match store.opened v with
  | .error fault => .error fault
  | .ok (.new cursor) => .ok (.own (store.tapeOf cursor))
  | .ok (.old _) => .ok .kept

/-- The start that opening a value gives once it is installed. -/
def startPlaced (store : Store) (v : Value) : Except Fault Start :=
  match v with
  | .object _ => store.startOf v
  | .list items =>
    .ok (.own ⟨"list_iterator", fun i => (Script.ofValues items i).map store.toldPlaced, 0, .lister false⟩)
  | .range start stop step => .ok (.own (store.tapeOf (.ranging start stop step 0)))
  | _ =>
    match Script.ofValue? v with
    | some script =>
      .ok (.own ⟨v.iteratorName, fun i => (script i).map store.toldPlaced, 0, .walker none⟩)
    | none => .error (.notIterable v.plainName)

/-- Whether what an event hands out is data. -/
def Sound (store : Store) : Event → Prop
  | .value v => store.IsData v
  | .made v => v.refs = []
  | .fault _ => True

/-- Whether an iterator, which is no stream, hands out nothing but data. -/
structure Readable (store : Store) (cursor : Cursor) : Prop where
  noStream : cursor.isStream = false
  inside : ∀ list position ended, cursor = .listing list position ended → list.index < store.lists.size
  sound : ∀ i event, cursor.script store i = some event → store.Sound event

/-- Whether opening a value asks no sequence and gives nothing but data. -/
def Offers (store : Store) (v : Value) : Prop :=
  match v with
  | .object (.source id) =>
    ∀ cursor, (store.source id).opened = .ok (.new cursor) → store.Readable cursor
  | .object (.cursor _) | .object (.key _) | .object (.step _) => True
  | _ => store.IsData v

variable {D : Item → Prop} {aside : Option CursorId}

/-! ## Iterators that are read -/

/-- An iterator that can be read plays its tape. -/
theorem Readable.playsAs {store : Store} {cursor : Cursor} (readable : store.Readable cursor)
    (within : (store.tapeOf cursor).Within D) : store.PlaysAs D cursor (store.tapeOf cursor) := by
  refine ⟨readable.noStream, readable.inside, rfl, rfl, rfl, fun i => ?_⟩
  have belongs := within i
  have sound := readable.sound i
  simp only [tapeOf] at belongs ⊢
  cases event : cursor.script store i with
  | none => trivial
  | some event' =>
    specialize sound event' event
    rw [event] at belongs
    cases event' with
    | value v => exact ⟨belongs _ rfl, sound, rfl, rfl, fun w held => Option.some.inj held⟩
    | made v => exact ⟨sound, rfl, belongs _ rfl⟩
    | fault fault => rfl

theorem Grows.sound {before after : Store} (h : before.Grows after) {event : Event}
    (sound : before.Sound event) : after.Sound event := by
  cases event with
  | value v => exact h.isData sound
  | _ => exact sound

theorem Readable.later {before after : Store} {cursor : Cursor} (readable : before.Readable cursor)
    (grows : before.Grows after) : after.Readable cursor := by
  obtain ⟨noStream, inside, sound⟩ := readable
  obtain ⟨inside', same⟩ := grows.script inside
  refine ⟨noStream, inside', fun i event there => ?_⟩
  rw [same] at there
  exact grows.sound (sound i event there)

/-- A value that is no text hands out its items. -/
theorem ofValue?_eq (v : Value) :
    (∃ text, v = .str text) ∨ Script.ofValue? v = v.items?.map Script.ofValues := by
  cases v <;> first | exact .inl ⟨_, rfl⟩ | exact .inr rfl

/-- What is iterated out of the contents of data is data. -/
theorem sound_ofValue? {store : Store} {v : Value} {script : Script} (data : store.IsData v)
    (given : Script.ofValue? (store.plain v) = some script) {i : Nat} {event : Event}
    (there : script i = some event) : store.Sound event := by
  rcases ofValue?_eq (store.plain v) with ⟨text, held⟩ | held
  · rw [held] at given
    obtain rfl := Option.some.inj given
    obtain ⟨item, found, rfl⟩ := Option.map_eq_some_iff.mp there
    obtain ⟨c, -, rfl⟩ := List.mem_map.mp (List.mem_of_getElem? found)
    rfl
  · rw [held] at given
    obtain ⟨items, listed, rfl⟩ := Option.map_eq_some_iff.mp given
    obtain ⟨item, found, rfl⟩ := Option.map_eq_some_iff.mp there
    exact isData_of_mem_items? data listed (List.mem_of_getElem? found)

/-- The iterator of data that are held by their contents can be read. -/
theorem readable_ofHeld {store : Store} {v : Value} {name : String} {cursor : Cursor}
    (data : store.IsData v) (opened : Opened.ofHeld name (store.plain v) = .ok (.new cursor)) :
    store.Readable cursor := by
  unfold Opened.ofHeld at opened
  split at opened
  · cases opened
    refine ⟨rfl, fun _ _ _ form => (by cases form), fun i event there => ?_⟩
    simp only [Cursor.script, Value.rangeItem?] at there
    split at there <;> cases there
    rfl
  · split at opened <;> cases opened
    rename_i given
    exact ⟨rfl, fun _ _ _ form => (by cases form), fun i event there => sound_ofValue? data given there⟩

/-- What opening a value that is held by its contents comes to. -/
theorem opened_of_isHeld {store : Store} {v : Value} (held : v.isHeld) :
    store.opened v = Opened.ofHeld (store.typeName v) (store.plain v) := by
  cases v with
  | object ref => cases ref <;> first | rfl | simp [Value.isHeld] at held
  | _ => rfl

/-- Data are opened without the help of a sequence. -/
theorem offers_of_isData {store : Store} {v : Value} (data : store.IsData v) : store.Offers v := by
  cases v with
  | object ref =>
    have held := data ref (by simp [Value.refs])
    cases ref <;> first | exact data | exact held.elim
  | _ => exact data

/-- What is held by its contents gives no iterator that was there. -/
theorem ofHeld_ne_old (name : String) (v : Value) (id : CursorId) :
    Opened.ofHeld name v ≠ .ok (.old id) := by
  unfold Opened.ofHeld
  split
  · simp
  · split <;> simp

/-- Only an iterator is its own iterator. -/
theorem eq_cursor_of_opened {store : Store} {v : Value} {id : CursorId}
    (opened : store.opened v = .ok (.old id)) : v = .object (.cursor id) := by
  have held : v.isHeld → v = .object (.cursor id) := fun held =>
    (ofHeld_ne_old _ _ _ ((opened_of_isHeld held).symm.trans opened)).elim
  cases v with
  | object ref =>
    cases ref with
    | cursor other => cases opened; rfl
    | source other =>
      simp only [Store.opened, Source.opened] at opened
      split at opened <;> cases opened
    | list other => cases opened
    | sequence other =>
      exact (ofHeld_ne_old (store.typeName (.ofSequence other)) (.ofSequence other) id opened).elim
    | _ => exact held rfl
  | _ => exact held rfl

/-- The iterator that opening a value gives can be read. -/
theorem Offers.readable {store : Store} {v : Value} {cursor : Cursor} (offers : store.Offers v)
    (opened : store.opened v = .ok (.new cursor)) : store.Readable cursor := by
  cases v with
  | object ref =>
    cases ref with
    | list id =>
      cases opened
      have there : id.index < store.lists.size := (offers (.list id) (by simp [Value.refs])).1
      refine ⟨rfl, fun _ _ _ form => by cases form; exact there, fun i event found => ?_⟩
      simp only [Cursor.script, Option.map_eq_some_iff] at found
      obtain ⟨item, found, rfl⟩ := found
      exact isData_of_mem_list offers (List.mem_of_getElem? found)
    | datum id => exact readable_ofHeld offers ((opened_of_isHeld rfl).symm.trans opened)
    | source id => exact offers cursor opened
    | cursor id | key id | step id => cases opened
    | sequence id => exact (offers (.sequence id) (by simp [Value.refs])).elim
    | fault id => exact (offers (.fault id) (by simp [Value.refs])).elim
  | _ => exact readable_ofHeld offers ((opened_of_isHeld rfl).symm.trans opened)

/-! ## Opening -/

/-- What is opened stays what it was while the store grows. -/
theorem Offers.later {before after : Store} {v : Value} (offers : before.Offers v)
    (grows : before.Grows after) : after.Offers v ∧ after.opened v = before.opened v := by
  have held : before.IsData v → Opened.ofHeld (after.typeName v) (after.plain v) =
      Opened.ofHeld (before.typeName v) (before.plain v) := fun data => by
    rw [grows.typeName data, grows.plain data]
  cases v with
  | object ref =>
    cases ref with
    | list id => exact ⟨grows.isData offers, rfl⟩
    | datum id => exact ⟨grows.isData offers, held offers⟩
    | source id =>
      have same : after.source id = before.source id := by simp only [Store.source, grows.sources]
      refine ⟨fun cursor opened => ?_, congrArg Source.opened same⟩
      rw [same] at opened
      exact (offers cursor opened).later grows
    | cursor id | key id => exact ⟨trivial, rfl⟩
    | step id =>
      have same : after.typeName (.object (.step id)) = before.typeName (.object (.step id)) := by
        simp only [Store.typeName, refTypeName, Store.step, grows.steps]
      exact ⟨trivial, by simp only [Store.opened, same]; rfl⟩
    | sequence id => exact (offers (.sequence id) (by simp [Value.refs])).elim
    | fault id => exact (offers (.fault id) (by simp [Value.refs])).elim
  | _ => exact ⟨grows.isData offers, held offers⟩

/-- What a run ends with that opened something and counted this. -/
def opening (store : Store) (opened : Except Fault Opened) (meters : Array Meter) :
    Except Halt Feed × Store :=
  match opened with
  | .error fault => (.error (.fault fault), { store with meters := meters })
  | .ok (.new cursor) => (.ok (.cursor ⟨store.cursors.size⟩),
      { store with cursors := store.cursors.push cursor, meters := meters })
  | .ok (.old id) => (.ok (.cursor id), { store with meters := meters })

/-- Opening a source ends as the source says. -/
theorem from?_openSource (store : Store) (source : Source) :
    ∃ meters, store.KeepsCalls meters ∧
      (Run.openSource source).from? store = store.opening source.opened meters := by
  have keeps : store.KeepsCalls store.meters := ⟨rfl, fun _ => rfl⟩
  have counted : store.KeepsCalls
      (store.meters.modify source.meter.index fun m => { m with iterations := m.iterations + 1 }) :=
    ⟨by simp, fun m => calls_modify (f := fun m => { m with iterations := m.iterations + 1 })
      (fun _ => rfl) source.meter m⟩
  unfold Run.openSource Source.opened
  rcases source.opening with _ | _ | _ | _ | _
  · exact ⟨_, keeps, rfl⟩
  · exact ⟨_, counted, rfl⟩
  · exact ⟨_, keeps, rfl⟩
  · exact ⟨_, counted, rfl⟩
  · exact ⟨_, keeps, rfl⟩

/-- Opening a value ends as its contents and the sources of the store say. -/
theorem from?_openFeed {store : Store} {v : Value} (offers : store.Offers v) :
    ∃ meters, store.KeepsCalls meters ∧
      (Run.openFeed v).from? store = store.opening (store.opened v) meters := by
  have keeps : store.KeepsCalls store.meters := ⟨rfl, fun _ => rfl⟩
  have held : v.isHeld → (Run.openFeed v).from? store = store.opening (store.opened v) store.meters := by
    intro held
    rw [Run.openFeed_of_isHeld held, Run.openHeld, Run.from?_bind_ok (Run.from?_plain v store),
      opened_of_isHeld held]
    cases store.plain v with
    | range start stop step => rfl
    | _ =>
      simp only [Opened.ofHeld]
      split <;> rfl
  cases v with
  | object ref =>
    cases ref with
    | cursor id | list id => exact ⟨_, keeps, rfl⟩
    | source id => exact from?_openSource store (store.source id)
    | sequence id => exact (offers (.sequence id) (by simp [Value.refs])).elim
    | _ => exact ⟨_, keeps, held rfl⟩
  | _ => exact ⟨_, keeps, held rfl⟩

/-- A store to which iterators were added, and in which uses other than calls were counted. -/
theorem extends_of_cursors (store : Store) (more : Array Cursor) {meters : Array Meter}
    (size : meters.size = store.meters.size) :
    store.Extends { store with cursors := store.cursors ++ more, meters := meters } := by
  refine ⟨⟨⟨#[], by simp⟩, ⟨#[], by simp⟩, rfl, rfl, fun _ => rfl, rfl, by simp [size]⟩, rfl, by simp,
    fun id there => ?_⟩
  simp [Store.cursor, Array.getD_eq_getD_getElem?, Array.getElem?_append_left there]

/-- What was foretold of an opening comes to pass. -/
theorem opening_opens {store : Store} {opener : Run Feed} (told : Except Fault Opened)
    {start : Except Fault Start} {meters : Array Meter} (keeps : store.KeepsCalls meters)
    (ends : opener.from? store = store.opening told meters)
    (new : ∀ cursor, told = .ok (.new cursor) →
      ∃ tape, start = .ok (.own tape) ∧ store.PlaysAs D cursor tape)
    (old : ∀ id, told = .ok (.old id) → start = .ok .kept ∧ aside = some id)
    (fails : ∀ fault, told = .error fault → start = .error fault) :
    ∃ after, store.Opens D aside opener start after ∧ ∀ id, after.callsOf id = store.callsOf id := by
  have same := extends_of_cursors store #[] keeps.1
  simp only [Array.append_empty] at same
  cases told with
  | error fault =>
    rw [fails fault rfl]
    exact ⟨_, ⟨same, ends⟩, fun id => keeps.2 _⟩
  | ok given =>
    cases given with
    | old id =>
      obtain ⟨rfl, found⟩ := old id rfl
      exact ⟨_, ⟨same, id, ends, found⟩, fun id => keeps.2 _⟩
    | new cursor =>
      obtain ⟨tape, rfl, plays⟩ := new cursor rfl
      have extends' := extends_of_cursors store #[cursor] keeps.1
      have found : ({ store with cursors := store.cursors ++ #[cursor], meters := meters } :
          Store).cursor ⟨store.cursors.size⟩ = cursor := by
        simp [Store.cursor]
      refine ⟨{ store with cursors := store.cursors ++ #[cursor], meters := meters }, ⟨extends',
        ⟨store.cursors.size⟩, ?_, Nat.le_refl _, by simp, ?_⟩, fun id => keeps.2 _⟩
      · rw [ends, opening, Array.push_eq_append]
      · rw [found]
        exact extends'.grows.playsAs plays

variable (aside) in
/-- Opening a value ends as its origin says, and calls no factory. -/
theorem openFeed_opens {first store : Store} {v : Value} {start : Except Fault Start}
    (offers : first.Offers v) (grows : first.Grows store) (starts : first.startOf v = start)
    (within : ∀ tape, start = .ok (.own tape) → tape.Within D)
    (kept : ∀ id, v = .object (.cursor id) → aside = some id) :
    ∃ after, store.Opens D aside (Run.openFeed v) start after ∧
      ∀ id, after.callsOf id = store.callsOf id := by
  obtain ⟨offers', same⟩ := offers.later grows
  obtain ⟨meters, keeps, ends⟩ := from?_openFeed offers'
  rw [same] at ends
  subst starts
  refine opening_opens _ keeps ends (fun cursor opened => ?_) (fun id opened => ?_) fun fault opened => ?_
  · have starts : first.startOf v = .ok (.own (first.tapeOf cursor)) := by rw [startOf, opened]
    exact ⟨_, starts, grows.playsAs ((offers.readable opened).playsAs (within _ starts))⟩
  · have starts : first.startOf v = .ok .kept := by rw [startOf, opened]
    exact ⟨starts, kept id (eq_cursor_of_opened opened)⟩
  · rw [startOf, opened]

/-! ## Opening what was installed -/

/-- What ends as an opening does from a store that was only added to is that opening. -/
theorem Opens.transfer {store next last : Store} {opener other : Run Feed} {start : Except Fault Start}
    (extends' : store.Extends next) (same : opener.from? store = other.from? next)
    (opens : next.Opens D aside other start last) : store.Opens D aside opener start last := by
  obtain ⟨more, opens⟩ := opens
  have all : store.Extends last := ⟨extends'.grows.trans more.grows,
    more.sequences.trans extends'.sequences, Nat.le_trans extends'.size more.size, fun id there =>
      (more.cursors id (Nat.lt_of_lt_of_le there extends'.size)).trans (extends'.cursors id there)⟩
  refine ⟨all, ?_⟩
  rw [same]
  rcases start with fault | tape | _
  · exact opens
  · obtain ⟨id, ends, new, plays⟩ := opens
    exact ⟨id, ends, Nat.le_trans extends'.size new, plays⟩
  · exact opens

theorem Adds.extends {before after : Store} (h : before.Adds after) : before.Extends after :=
  ⟨h.grows, h.sequences, by simp [h.cursors], fun id _ => by simp only [Store.cursor, h.cursors]⟩

theorem Adds.callsOf {before after : Store} (h : before.Adds after) (id : SourceId) :
    after.callsOf id = before.callsOf id :=
  h.grows.callsOf (fun m => by simp only [Store.meter, h.meters]) id

/-- An iterator over installed items plays the items that they were made from. -/
theorem tells_placed {first store : Store} {items held : List Value}
    (placed : List.Forall₂ (first.Placed store) items held) {i : Nat}
    (within : ∀ item, (Script.ofValues items i).map first.toldPlaced = some (.ok item) → D item) :
    store.Tells D (Script.ofValues held i) ((Script.ofValues items i).map first.toldPlaced) := by
  simp only [Script.ofValues] at within ⊢
  cases there : items[i]? with
  | none =>
    have outside : held[i]? = none := by
      rw [List.getElem?_eq_none_iff] at there ⊢
      rwa [← placed.length_eq]
    rw [outside]
    trivial
  | some v =>
    obtain ⟨inside, rfl⟩ := List.getElem?_eq_some_iff.mp there
    have inside' : i < held.length := placed.length_eq ▸ inside
    have placed' := placed.get inside inside'
    rw [there] at within
    rw [List.getElem?_eq_getElem inside']
    exact ⟨within _ rfl, placed'.data, placed'.contents, placed'.boxed, fun w held => by cases held⟩

/-- An object that holds a value with a known form is opened by it. -/
theorem isHeld_of_plain {store : Store} {w : Value} (noObject : (store.plain w).isObject = false) :
    w.isHeld := by
  cases w with
  | object ref => cases ref <;> first | rfl | simp [plain, Value.isObject] at noObject
  | _ => rfl

/-- How an installed value that holds items is opened. -/
theorem opened_of_items {first store : Store} {v w x : Value} (items held : List Value)
    (plain : store.plain w = x) (noObject : x.isObject = false)
    (starts : first.startPlaced v = .ok (.own ⟨v.iteratorName,
      fun i => (Script.ofValues items i).map first.toldPlaced, 0, .walker none⟩))
    (opens : ∀ name, Opened.ofHeld name x =
      .ok (.new (.walking v.iteratorName (.ofValues held) 0 none .silent)))
    (placed : List.Forall₂ (first.Placed store) items held)
    (within : ∀ tape, first.startPlaced v = .ok (.own tape) → tape.Within D) :
    ∃ cursor tape, store.opened w = .ok (.new cursor) ∧ first.startPlaced v = .ok (.own tape) ∧
      store.PlaysAs D cursor tape := by
  refine ⟨.walking v.iteratorName (.ofValues held) 0 none .silent, _, ?_, starts, rfl,
    fun _ _ _ form => (by cases form), rfl, rfl, rfl, fun i => ?_⟩
  · rw [opened_of_isHeld (isHeld_of_plain (by rwa [plain])), plain, opens]
  · exact tells_placed placed (within _ starts i)

/-- Numbers that are bytes stay what they are when they are installed. -/
theorem placed_bytes {first store : Store} (content : List UInt8) :
    List.Forall₂ (first.Placed store) (Value.byteNumbers content) (Value.byteNumbers content) := by
  refine List.forall₂_same.mpr fun v member => ?_
  obtain ⟨b, -, rfl⟩ := List.mem_map.mp member
  have small : b.toNat < 256 := b.toNat_lt
  refine ⟨isData_of_refs_nil rfl, rfl, ?_⟩
  simp [Value.isDatum, Value.isBoxed, Value.isCanonical]
  omega

/-- An installed value is opened as its origin says. -/
theorem opened_placed {first store : Store} {v w : Value} (noObject : v.isObject = false)
    (grows : first.Grows store) (data : first.IsData v) (placed : first.Placed store v w)
    (wraps : first.Wraps store v w)
    (within : ∀ tape, first.startPlaced v = .ok (.own tape) → tape.Within D) :
    (∃ cursor tape, store.opened w = .ok (.new cursor) ∧ first.startPlaced v = .ok (.own tape) ∧
      store.PlaysAs D cursor tape) ∨
    ∃ fault, store.opened w = .error fault ∧ first.startPlaced v = .error fault := by
  have name : store.typeName w = v.plainName := by
    rw [← (contents_parts placed.data).2.2, placed.contents, (contents_parts data).2.2]
    cases v <;> first | rfl | simp [Value.isObject] at noObject
  cases v with
  | object ref => simp [Value.isObject] at noObject
  | list items =>
    obtain ⟨id, rfl, inside, same⟩ := wraps
    refine .inl ⟨.listing id 0 false, _, rfl, rfl, rfl, fun list _ _ form => ?_, rfl, rfl, rfl, fun i => ?_⟩
    · cases form
      exact inside
    · exact tells_placed same (within _ rfl i)
  | tuple items | set items | frozenset items =>
    obtain ⟨held, plain, same⟩ := wraps
    exact .inl (opened_of_items _ _ plain rfl rfl (fun _ => rfl) same within)
  | dict entries =>
    obtain ⟨held, plain, same⟩ := wraps
    refine .inl (opened_of_items (entries.map Prod.fst) (held.map Prod.fst) plain rfl rfl
      (fun _ => rfl) ?_ within)
    rw [List.forall₂_map_left_iff, List.forall₂_map_right_iff]
    exact same.imp fun _ _ placed => placed.1
  | bytes content | bytearray content =>
    exact .inl (opened_of_items _ _ wraps rfl rfl (fun _ => rfl) (placed_bytes content) within)
  | range start stop step =>
    have readable : first.Readable (.ranging start stop step 0) :=
      readable_ofHeld data (rfl : Opened.ofHeld "range" (.range start stop step) = _)
    refine .inl ⟨.ranging start stop step 0, _, ?_, rfl, grows.playsAs (readable.playsAs (within _ rfl))⟩
    rw [opened_of_isHeld (isHeld_of_plain (by rw [wraps]; rfl)), wraps]
    rfl
  | str text =>
    refine .inl ⟨.walking (Value.str text).iteratorName
      (fun i => (Value.characters text)[i]?.map .made) 0 none .silent, _, ?_, rfl, rfl,
      fun _ _ _ form => (by cases form), rfl, rfl, rfl, fun i => ?_⟩
    · rw [opened_of_isHeld (isHeld_of_plain (by rw [wraps]; rfl)), wraps]
      rfl
    · have belongs := within _ rfl i
      simp only [Cursor.script] at belongs ⊢
      cases there : (Value.characters text)[i]? with
      | none => trivial
      | some v =>
        rw [there] at belongs
        obtain ⟨c, -, rfl⟩ := List.mem_map.mp (List.mem_of_getElem? there)
        exact ⟨rfl, rfl, belongs _ rfl⟩
  | _ =>
    refine .inr ⟨.notIterable (store.typeName w), ?_, by rw [name]; rfl⟩
    rw [opened_of_isHeld (isHeld_of_plain (by rw [wraps]; rfl)), wraps]
    rfl

variable (aside) in
/-- Opening a value that is installed first ends as its origin says, and calls no factory. -/
theorem openPlaced_opens {first store : Store} {v : Value} {start : Except Fault Start}
    (offers : first.Offers v) (grows : first.Grows store) (starts : first.startPlaced v = start)
    (within : ∀ tape, start = .ok (.own tape) → tape.Within D)
    (kept : ∀ id, v = .object (.cursor id) → aside = some id) :
    ∃ after, store.Opens D aside (do Run.openFeed (← Run.install v)) start after ∧
      ∀ id, after.callsOf id = store.callsOf id := by
  cases object : v.isObject with
  | true =>
    obtain ⟨ref, rfl⟩ : ∃ ref, v = .object ref := by
      cases v <;> simp [Value.isObject] at object
      exact ⟨_, rfl⟩
    obtain ⟨after, opens, calls⟩ := openFeed_opens aside offers grows starts within kept
    have ends : (Run.install (.object ref)).from? store = (.ok (.object ref), store) := by
      rw [Run.install, Run.from?_newObject]
      · rfl
      all_goals simp
    exact ⟨after, .transfer (Adds.refl store).extends (Run.from?_bind_ok ends) opens, calls⟩
  | false =>
    have data : first.IsData v := by
      cases v <;> first | exact offers | simp [Value.isObject] at object
    obtain ⟨w, next, ends, adds, placed, wraps⟩ := install_places v first store grows data
    have grows' := grows.trans adds.grows
    subst starts
    obtain ⟨meters, keeps, opened⟩ := from?_openFeed (offers_of_isData placed.data)
    obtain ⟨after, opens, calls⟩ : ∃ after, next.Opens D aside (Run.openFeed w) (first.startPlaced v) after ∧
        ∀ id, after.callsOf id = next.callsOf id := by
      refine opening_opens _ keeps opened (fun cursor given => ?_) (fun id given => ?_) fun fault given => ?_
      all_goals
        rcases opened_placed object grows' data placed wraps within with
          ⟨cursor', tape, given', starts, plays⟩ | ⟨fault', given', starts⟩ <;>
          rw [given] at given' <;> cases given'
      · exact ⟨tape, starts, plays⟩
      · exact starts
    exact ⟨after, .transfer adds.extends (Run.from?_bind_ok ends) opens,
      fun id => (calls id).trans (adds.callsOf id)⟩

end Store

end FirstSeen
