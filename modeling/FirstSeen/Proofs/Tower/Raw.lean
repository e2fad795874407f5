import FirstSeen.Proofs.Tower.Opening

/-!
# Raw data as origins

Data are *raw* if they are iterated or called without the help of another sequence, and hand out nothing but
data. `Store.originOf` computes the origin of raw data from the store that they are in. That origin backs a
new sequence over the data, and this is the sequence that they are taken for, whatever the store has grown
to when it is made.
-/

set_option autoImplicit false

namespace FirstSeen

/-- Whether each element that an origin may open belongs to a domain. -/
structure Origin.Within (origin : Origin) (D : Item → Prop) : Prop where
  openings : ∀ n tape, origin.openings n = .ok (.own tape) → tape.Within D
  kept : origin.kept.Within D

/-- Whether the contents of an element refer to no objects. -/
def Item.Plain (item : Item) : Prop := item.contents.refs = []

namespace Store

/-- The start that opening the product of a source gives. -/
def startMade (store : Store) (meter : MeterId) : Product → Except Fault Start
  | .value v => store.startPlaced v
  | .generator script closing =>
    .ok (.own (store.tapeOf (.generating script 0 .fresh (some meter) closing)))
  | .walker name script closing =>
    .ok (.own (store.tapeOf (.walking name script 0 (some meter) closing)))
  | .items items =>
    .ok (.own (store.tapeOf (.walking "list_iterator" (.ofValues items) 0 none .silent)))
  | .shared _ => .ok .kept

/-- The start that a factory gives when it is called, where that is its `count`-th call. -/
def startCalled (store : Store) (factory : Value) (count : Nat) : Except Fault Start :=
  match factory with
  | .object (.source id) =>
    match (store.source id).product with
    | some product =>
      if (store.source id).failingCalls.contains count then .error (store.source id).failure
      else store.startMade (store.source id).meter product
    | none => .error (.notCallable (store.source id).typeName)
  | .object (.key id) =>
    match (store.key id).answer [] with
    | .ok v => store.startPlaced v
    | .error fault => .error fault
  | _ => .error (.notCallable factory.plainName)

/-- How often a factory was called, if its calls are counted. -/
def callsTo (store : Store) : Value → Nat
  | .object (.source id) => store.callsOf id
  | _ => 0

/-- The iterator that each opening of data gives, if it is always the same. -/
def aside (store : Store) (d : Value) : Option CursorId :=
  match d with
  | .object (.cursor id) => some id
  | .object (.source id) =>
    match (store.source id).product with
    | some (.shared id) | some (.value (.object (.cursor id))) =>
      if store.isIterable d then none else some id
    | _ => none
  | _ => none

/-- How many items data tell that they have. -/
def sizeOf (store : Store) (d : Value) : Except Fault Value :=
  match d with
  | .object (.list id) => .ok (.ofNat (store.list id).length)
  | .object (.source id) =>
    match (store.source id).length with
    | none => .ok .null
    | some (.error fault) => .error fault
    | some (.ok n) =>
      if n < 0 then .error .negativeLength
      else if Value.wordLimit ≤ n then .error .lengthTooLarge else .ok (.int n)
  | _ =>
    match (store.plain d).length? with
    | none => .ok .null
    | some n => if Value.wordLimit ≤ n then .error .rangeTooLong else .ok (.ofNat n)

/-- What a sequence over data is made of when it is new. -/
def groundBody (store : Store) (d : Value) : Body :=
  if store.isIterable d then .iterable d none else .produced d .null none

/-- The origin of data. -/
def originOf (store : Store) (d : Value) : Origin where
  openings n :=
    if store.isIterable d then store.startOf d else store.startCalled d (store.callsTo d + n + 1)
  kept := store.tapeOf (match store.aside d with
    | some id => store.cursor id
    | none => default)
  held := none
  oneShot := isOneShot d
  drops := !store.isIterable d
  size := if store.isIterable d then store.sizeOf d else .ok .null

/-- Whether opening the product of a source asks no sequence and gives nothing but data. -/
def OffersProduct (store : Store) : Product → Prop
  | .value v => store.Offers v
  | .generator script _ | .walker _ script _ => ∀ i event, script i = some event → store.Sound event
  | .items items => ∀ v ∈ items, store.IsData v
  | .shared _ => True

/-- Whether a factory asks no sequence, counts its calls, and makes nothing but what hands out data. -/
def Produces (store : Store) (factory : Value) : Prop :=
  match factory with
  | .object (.source id) =>
    (store.source id).meter.index < store.meters.size ∧
      ∀ product, (store.source id).product = some product → store.OffersProduct product
  | .object (.key id) => store.AnswersPurely id []
  | _ => False

/-- Whether data are iterated or called without the help of another sequence, and hand out nothing but
data. -/
structure Raw (store : Store) (d : Value) : Prop where
  usable : store.isIterable d = true ∨ store.isCallable d = true
  offers : store.isIterable d = true → store.Offers d
  produces : store.isIterable d = false → store.Produces d
  kept : ∀ id, store.aside d = some id →
    id.index < store.cursors.size ∧ store.Readable (store.cursor id)

variable {D : Item → Prop} {aside : Option CursorId}

/-! ## Calling a factory -/

/-- A call that is counted is one call more. -/
theorem callsOf_counted {store : Store} {id : SourceId} {meters : Array Meter}
    (inside : (store.source id).meter.index < store.meters.size)
    (counts : meters = store.meters.modify (store.source id).meter.index fun m =>
      { m with calls := m.calls + 1 }) :
    ({ store with meters := meters } : Store).callsOf id = store.callsOf id + 1 := by
  change (meters.getD (store.source id).meter.index default).calls = _
  rw [counts, callsOf, Store.meter]
  generalize (store.source id).meter.index = i at inside
  simp [Array.getD_eq_getD_getElem?, Array.getElem_modify, inside]

theorem extends_of_meters {store : Store} {meters : Array Meter}
    (size : meters.size = store.meters.size) : store.Extends { store with meters := meters } := by
  have extends' := extends_of_cursors store #[] size
  simpa only [Array.append_empty] using extends'

variable (aside) in
/-- The product of a source is opened as its origin says. -/
theorem make_opens {first store : Store} {meter : MeterId} {product : Product} {start : Except Fault Start}
    (grows : first.Grows store) (starts : first.startMade meter product = start)
    (offers : first.OffersProduct product)
    (within : ∀ tape, start = .ok (.own tape) → tape.Within D)
    (kept : ∀ id, product = .shared id ∨ product = .value (.object (.cursor id)) → aside = some id) :
    ∃ after, store.Opens D aside (do Run.openFeed (← Run.install (← Run.make meter product))) start after ∧
      ∀ id, after.callsOf id = store.callsOf id := by
  subst starts
  -- A product that is a new iterator is its own iterator.
  have new : ∀ cursor : Cursor, first.Readable cursor →
      first.startMade meter product = .ok (.own (first.tapeOf cursor)) →
      Run.make meter product = (do return .ofCursor (← Run.newCursor cursor)) →
      ∃ after, store.Opens D aside (do Run.openFeed (← Run.install (← Run.make meter product)))
        (first.startMade meter product) after ∧ ∀ id, after.callsOf id = store.callsOf id := by
    intro cursor readable starts form
    have keeps : store.KeepsCalls store.meters := ⟨rfl, fun _ => rfl⟩
    refine opening_opens (.ok (.new cursor)) keeps ?_ (fun _ same => ?_) (fun _ same => by cases same)
      fun _ same => by cases same
    · rw [form]
      rfl
    · cases same
      exact ⟨_, starts, grows.playsAs (readable.playsAs (within _ starts))⟩
  cases product with
  | value v => exact openPlaced_opens _ offers grows rfl within fun id same => kept id (.inr (same ▸ rfl))
  | generator script closing =>
    exact new (.generating script 0 .fresh (some meter) closing)
      ⟨rfl, fun _ _ _ form => (by cases form), offers⟩ rfl rfl
  | walker name script closing =>
    exact new (.walking name script 0 (some meter) closing)
      ⟨rfl, fun _ _ _ form => (by cases form), offers⟩ rfl rfl
  | items items =>
    refine new (.walking "list_iterator" (.ofValues items) 0 none .silent)
      ⟨rfl, fun _ _ _ form => (by cases form), fun i event there => ?_⟩ rfl rfl
    obtain ⟨v, found, rfl⟩ := Option.map_eq_some_iff.mp there
    exact offers v (List.mem_of_getElem? found)
  | shared id =>
    exact ⟨store, ⟨(Adds.refl store).extends, id, rfl, kept id (.inl rfl)⟩, fun _ => rfl⟩

variable (aside) in
/-- A key function that serves as a factory is asked without arguments. -/
theorem callKey_opens {first store : Store} {id : KeyId} {count : Nat} {start : Except Fault Start}
    (grows : first.Grows store) (pure' : first.AnswersPurely id [])
    (starts : first.startCalled (.object (.key id)) count = start)
    (within : ∀ tape, start = .ok (.own tape) → tape.Within D) :
    ∃ after, store.Opens D aside
      (do Run.openFeed (← Run.install (← Run.call (.object (.key id)) []))) start after ∧
      ∀ id, after.callsOf id = store.callsOf id := by
  have asked : store.AnswersPurely id (([] : List Value).map store.contents) := pure'.later grows
  obtain ⟨next, ends, adds⟩ := from?_callKey asked.now
  have same : (store.key id).answer [] = (first.key id).answer [] := by
    unfold KeyFunction.answer
    rw [grows.keys id]
  change (Run.call (.object (.key id)) []).from? store =
    (((store.key id).answer []).mapError Halt.fault, next) at ends
  rw [same] at ends
  subst starts
  cases answered : (first.key id).answer [] with
  | error fault =>
    rw [answered] at ends
    have starts : first.startCalled (.object (.key id)) count = .error fault := by
      simp only [startCalled, answered]
    rw [starts]
    exact ⟨next, ⟨adds.extends, Run.from?_bind_error ends⟩, adds.callsOf⟩
  | ok v =>
    rw [answered] at ends
    have starts : first.startCalled (.object (.key id)) count = first.startPlaced v := by
      simp only [startCalled, answered]
    rw [starts] at within ⊢
    have plain : v.refs = [] := pure'.2 v answered
    obtain ⟨after, opens, calls⟩ := openPlaced_opens aside
      (offers_of_isData (isData_of_refs_nil plain)) (grows.trans adds.grows) rfl within fun other same => by
        rw [same] at plain
        simp [Value.refs] at plain
    exact ⟨after, .transfer adds.extends (Run.from?_bind_ok ends) opens,
      fun id => (calls id).trans (adds.callsOf id)⟩

variable (aside) in
/-- A call of a source is counted, and what it makes is opened as its origin says. -/
theorem callSource_opens {first store : Store} {id : SourceId} {count : Nat} {start : Except Fault Start}
    (grows : first.Grows store) (produces : first.Produces (.object (.source id)))
    (counted : count = store.callsOf id + 1)
    (starts : first.startCalled (.object (.source id)) count = start)
    (within : ∀ tape, start = .ok (.own tape) → tape.Within D) (callable : (first.source id).product.isSome)
    (kept : ∀ other, (first.source id).product = some (.shared other) ∨
      (first.source id).product = some (.value (.object (.cursor other))) → aside = some other) :
    ∃ after, store.Opens D aside
      (do Run.openFeed (← Run.install (← Run.call (.object (.source id)) []))) start after ∧
      after.callsOf id = store.callsOf id + 1 := by
  obtain ⟨product, found⟩ := Option.isSome_iff_exists.mp callable
  have same : store.source id = first.source id := by simp only [Store.source, grows.sources]
  have inside := Nat.lt_of_lt_of_le produces.1 grows.meters
  rw [← same] at inside
  let counted' := store.meters.modify (first.source id).meter.index fun m => { m with calls := m.calls + 1 }
  let next : Store := { store with meters := counted' }
  have extends' : store.Extends next := extends_of_meters (by simp [counted'])
  have calls : next.callsOf id = store.callsOf id + 1 := callsOf_counted inside (by rw [same])
  have ends : (Run.call (.object (.source id)) []).from? store =
      (if (first.source id).failingCalls.contains count then Run.fail (first.source id).failure
        else Run.make (first.source id).meter product).from? next := by
    have asked : (next.meter (first.source id).meter).calls = count := by
      rw [counted, ← calls, ← same]
      rfl
    rw [Run.call, Run.from?_bind_ok (Run.from?_view ..), same, found]
    simp only [Run.callSource]
    rw [Run.from?_bind_ok (Run.from?_updateMeter ..), Run.from?_bind_ok (Run.from?_view ..)]
    change Run.from? (if (first.source id).failingCalls.contains
      (next.meter (first.source id).meter).calls then _ else _) next = _
    rw [asked]
    split <;> rfl
  subst starts
  simp only [startCalled, found] at within ⊢
  by_cases fails : (first.source id).failingCalls.contains count
  · simp only [fails, if_true] at ends ⊢
    exact ⟨next, ⟨extends', Run.from?_bind_error ends⟩, calls⟩
  · simp only [fails] at ends within ⊢
    obtain ⟨after, opens, calls'⟩ := make_opens aside (grows.trans extends'.grows) rfl
      (produces.2 product found) within fun other same => kept other (by rw [found]; simpa using same)
    refine ⟨after, .transfer extends' ?_ opens, (calls' id).trans calls⟩
    rw [Run.from?_bind, Run.from?_bind, ends]
    rfl

/-! ## The sequence over raw data -/

theorem groundBody_iterable {store : Store} {d : Value} (iterable : store.isIterable d = true) :
    store.groundBody d = .iterable d none := by
  simp [groundBody, iterable]

theorem groundBody_produced {store : Store} {d : Value} (iterable : store.isIterable d = false) :
    store.groundBody d = .produced d .null none := by
  simp [groundBody, iterable]

/-- Data that tell how many items they have tell it in every store that theirs grows to. -/
theorem from?_lengthOf {first store : Store} {d : Value} (offers : first.Offers d)
    (grows : first.Grows store) :
    (Run.lengthOf d).from? store = ((first.sizeOf d).mapError Halt.fault, store) := by
  have held : first.plain d = store.plain d →
      (do match (← Run.plain d).length? with
          | none => return .null
          | some n => Run.wordLength n : Run Value).from? store =
        (((match (first.plain d).length? with
          | none => .ok .null
          | some n => if Value.wordLimit ≤ n then .error .rangeTooLong else .ok (.ofNat n)) :
            Except Fault Value).mapError Halt.fault, store) := by
    intro same
    rw [Run.from?_bind_ok (Run.from?_plain ..), same]
    cases (store.plain d).length? with
    | none => rfl
    | some n =>
      simp only [Run.wordLength, Run.from?_ite]
      split <;> rfl
  cases d with
  | object ref =>
    cases ref with
    | list id =>
      have there : id.index < first.lists.size := (offers (.list id) (by simp [Value.refs])).1
      rw [sizeOf, ← grows.list there]
      rfl
    | datum id => exact held (grows.plain offers).symm
    | source id =>
      have same : store.source id = first.source id := by simp only [Store.source, grows.sources]
      rw [Run.lengthOf, Run.from?_bind_ok (Run.from?_view ..), same]
      simp only [sizeOf]
      rcases (first.source id).length with _ | fault | n
      · rfl
      · rfl
      · simp only [Run.from?_bind, Run.from?_ite]
        split
        · rfl
        · split <;> rfl
    | cursor id | key id | step id => exact held rfl
    | sequence id => exact (offers (.sequence id) (by simp [Value.refs])).elim
    | fault id => exact (offers (.fault id) (by simp [Value.refs])).elim
  | _ => exact held (grows.plain offers).symm

/-- Opening raw data ends as their origin says, and is counted if it calls a factory. -/
theorem opener_opens {first store : Store} {d : Value} (raw : first.Raw d)
    (within : (first.originOf d).Within D) (grows : first.Grows store) {n : Nat}
    (called : first.CalledSince store (first.groundBody d) n) :
    ∃ after, store.Opens D (first.aside d) (first.groundBody d).opener ((first.originOf d).openings n) after ∧
      store.CalledSince after (first.groundBody d) 1 := by
  have belongs := within.openings n
  cases iterable : first.isIterable d with
  | true =>
    have starts : (first.originOf d).openings n = first.startOf d := by simp [originOf, iterable]
    rw [starts] at belongs ⊢
    rw [groundBody_iterable iterable]
    obtain ⟨after, opens, -⟩ := openFeed_opens (first.aside d) (raw.offers iterable) grows rfl
      belongs fun id same => by rw [same]; rfl
    exact ⟨after, opens, fun id found => by cases found⟩
  | false =>
    have starts : (first.originOf d).openings n =
        first.startCalled d (first.callsTo d + n + 1) := by simp [originOf, iterable]
    have produces := raw.produces iterable
    have callable := raw.usable.resolve_left (by simp [iterable])
    rw [starts] at belongs ⊢
    rw [groundBody_produced iterable] at called ⊢
    cases d with
    | object ref =>
      cases ref with
      | source id =>
        obtain ⟨after, opens, calls⟩ := callSource_opens (first.aside (.object (.source id))) grows
          produces (by rw [called id rfl]; rfl) rfl belongs callable fun other same => by
            rcases same with same | same <;> simp only [aside, same, iterable] <;> rfl
        refine ⟨after, opens, fun other found => ?_⟩
        cases found
        exact calls
      | key id =>
        obtain ⟨after, opens, -⟩ := callKey_opens (first.aside (.object (.key id))) grows produces rfl
          belongs
        exact ⟨after, opens, fun other found => by cases found⟩
      | _ => exact produces.elim
    | _ => exact produces.elim

/-- Only iterators are one-shot raw data, and opening them gives what was there. -/
theorem Raw.cursor_of_isOneShot {store : Store} {d : Value} (raw : store.Raw d)
    (oneShot : isOneShot d = true) : ∃ id, d = .object (.cursor id) := by
  cases d with
  | object ref =>
    cases ref with
    | cursor id => exact ⟨id, rfl⟩
    | sequence id => exact ((raw.offers rfl) (.sequence id) (by simp [Value.refs])).elim
    | _ => simp [isOneShot] at oneShot
  | _ => simp [isOneShot] at oneShot

/-- The origin of raw data backs a new sequence over them. -/
theorem backs_of_raw {store : Store} {d : Value} (raw : store.Raw d)
    (within : (store.originOf d).Within D) :
    store.Backs D (store.aside d) (store.groundBody d) (store.originOf d) where
  ground := by cases iterable : store.isIterable d <;> simp [groundBody, iterable, Body.isGround]
  opens later n grows called := opener_opens raw within grows called
  kept id found := by
    obtain ⟨inside, readable⟩ := raw.kept id found
    have kept : (store.originOf d).kept = store.tapeOf (store.cursor id) := by simp only [originOf, found]
    rw [kept]
    exact ⟨inside, readable.playsAs (kept ▸ within.kept)⟩
  held := by cases iterable : store.isIterable d <;> simp only [groundBody, iterable] <;> trivial
  oneShot := by
    constructor
    · intro oneShot
      obtain ⟨id, rfl⟩ := raw.cursor_of_isOneShot oneShot
      exact ⟨_, none, rfl, rfl⟩
    · rintro ⟨data, feed, form, oneShot⟩
      unfold groundBody at form
      split at form <;> cases form
      exact oneShot
  refuses data feed form oneShot := by
    unfold groundBody at form
    split at form <;> cases form
    obtain ⟨id, rfl⟩ := raw.cursor_of_isOneShot oneShot
    exact ⟨id, rfl, rfl⟩
  drops := by cases iterable : store.isIterable d <;> simp [originOf, groundBody, iterable]
  size later grows := by
    cases iterable : store.isIterable d with
    | true =>
      rw [groundBody_iterable iterable]
      simp only [originOf, iterable, if_true]
      exact from?_lengthOf (raw.offers iterable) grows
    | false =>
      rw [groundBody_produced iterable]
      simp only [originOf, iterable]
      rfl

/-- What can be iterated or called stays so while the store grows. -/
theorem Raw.usable_later {first store : Store} {d : Value} (raw : first.Raw d) (grows : first.Grows store) :
    store.isIterable d = first.isIterable d ∧ store.isCallable d = first.isCallable d := by
  cases d with
  | object ref =>
    cases ref with
    | source id =>
      have same : store.source id = first.source id := by simp only [Store.source, grows.sources]
      simp only [isIterable, isCallable, same, and_self]
    | datum id =>
      have usable := raw.usable.resolve_right (by simp [isCallable])
      have same := grows.plain (v := .object (.datum id)) (raw.offers usable)
      exact ⟨congrArg (fun v => (Script.ofValue? v).isSome) same, rfl⟩
    | _ => exact ⟨rfl, rfl⟩
  | _ => exact ⟨rfl, rfl⟩

/-- Data that are no sequence, but can be iterated or called, are taken for a new sequence over them. -/
theorem from?_toSequence_usable {store : Store} {d : Value} (noSequence : ∀ id, d ≠ .object (.sequence id))
    (usable : store.isIterable d = true ∨ store.isCallable d = true) (multi : Bool) :
    (Run.toSequence d (.bool multi)).from? store =
      (.ok ⟨store.sequences.size⟩, { store with
        sequences := store.sequences.push { body := store.groundBody d, multiValue := multi } }) := by
  have form : Run.toSequence d (.bool multi) = (do
      if ← Run.view (·.isIterable d) then Run.newIterable d (.bool multi)
      else if ← Run.view (·.isCallable d) then Run.newProduced d (.bool multi) .null
      else Run.fail (.noSequenceFrom (← Run.typeName d))) := by
    cases d with
    | object ref => cases ref <;> first | rfl | exact (noSequence _ rfl).elim
    | _ => rfl
  rw [form, Run.from?_bind_ok (Run.from?_view ..)]
  cases given : store.isIterable d with
  | true =>
    rw [groundBody_iterable given]
    simp only [if_true]
    rw [Run.newIterable]
    simp only [Run.flagOf, pure_bind]
    rw [Run.from?_bind_ok (Run.from?_view ..), given]
    rfl
  | false =>
    rw [groundBody_produced given]
    have called : store.isCallable d = true := usable.resolve_left (by simp [given])
    simp only [Bool.false_eq_true, if_false]
    rw [Run.from?_bind_ok (Run.from?_view ..), called]
    simp only [if_true]
    rw [Run.newProduced]
    simp only [Run.flagOf, pure_bind]
    rw [Run.from?_bind_ok (Run.from?_view ..), called]
    rfl

/-- Raw data are taken for a new sequence over them. -/
theorem from?_toSequence {first store : Store} {d : Value} (raw : first.Raw d) (multi : Bool)
    (grows : first.Grows store) :
    (Run.toSequence d (.bool multi)).from? store = (.ok ⟨store.sequences.size⟩, { store with
      sequences := store.sequences.push { body := first.groundBody d, multiValue := multi } }) := by
  obtain ⟨iterable, callable⟩ := raw.usable_later grows
  have noSequence : ∀ id, d ≠ .object (.sequence id) := by
    rintro id rfl
    exact (raw.offers rfl (.sequence id) (by simp [Value.refs])).elim
  have same : first.groundBody d = store.groundBody d := by simp only [groundBody, iterable]
  have usable := raw.usable
  rw [← iterable, ← callable] at usable
  rw [same]
  exact from?_toSequence_usable noSequence usable multi

/-! ## The elements of raw data -/

theorem told_plain {store : Store} {event : Event} {item : Item} (sound : store.Sound event)
    (tells : store.told event = .ok item ∨ store.toldPlaced event = .ok item) : item.Plain := by
  cases event with
  | value v => rcases tells with tells | tells <;> cases tells <;> exact refs_contents sound
  | made v => rcases tells with tells | tells <;> cases tells <;> exact sound
  | fault fault => rcases tells with tells | tells <;> cases tells

theorem Readable.within {store : Store} {cursor : Cursor} (readable : store.Readable cursor) :
    (store.tapeOf cursor).Within Item.Plain := by
  intro i item tells
  obtain ⟨event, there, tells⟩ := Option.map_eq_some_iff.mp tells
  exact told_plain (readable.sound i event there) (.inl tells)

theorem startOf_within {store : Store} {v : Value} {tape : Tape} (offers : store.Offers v)
    (starts : store.startOf v = .ok (.own tape)) : tape.Within Item.Plain := by
  rw [startOf] at starts
  split at starts <;> cases starts
  rename_i opened
  exact (offers.readable opened).within

theorem startPlaced_within {store : Store} {v : Value} {tape : Tape} (offers : store.Offers v)
    (starts : store.startPlaced v = .ok (.own tape)) : tape.Within Item.Plain := by
  -- What is iterated out of the value was data before it was installed.
  have items : ∀ script, store.IsData v → Script.ofValue? (store.plain v) = some script →
      ∀ i item, (script i).map store.toldPlaced = some (.ok item) → item.Plain := by
    intro script data given i item tells
    obtain ⟨event, there, tells⟩ := Option.map_eq_some_iff.mp tells
    exact told_plain (sound_ofValue? data given there) (.inr tells)
  unfold startPlaced at starts
  split at starts
  · exact startOf_within offers starts
  · cases starts
    exact items _ offers rfl
  · cases starts
    exact Readable.within (readable_ofHeld (v := .range _ _ _) offers
      (rfl : Opened.ofHeld "range" (.range _ _ _) = _))
  · rename_i noObject noList noRange
    have data : store.IsData v := by
      cases v <;> first | exact offers | exact (noObject _ rfl).elim
    have plain : store.plain v = v := by
      cases v <;> first | rfl | exact (noObject _ rfl).elim
    split at starts <;> cases starts
    rename_i given
    exact items _ data (plain.symm ▸ given)

theorem startCalled_within {store : Store} {d : Value} {count : Nat} {tape : Tape}
    (produces : store.Produces d) (starts : store.startCalled d count = .ok (.own tape)) :
    tape.Within Item.Plain := by
  unfold startCalled at starts
  split at starts
  · rename_i id
    split at starts
    · rename_i product found
      split at starts
      · cases starts
      · have offers := produces.2 product found
        unfold startMade at starts
        split at starts
        · exact startPlaced_within offers starts
        · cases starts
          exact Readable.within ⟨rfl, fun _ _ _ form => (by cases form), offers⟩
        · cases starts
          exact Readable.within ⟨rfl, fun _ _ _ form => (by cases form), offers⟩
        · cases starts
          refine Readable.within ⟨rfl, fun _ _ _ form => (by cases form), fun i event there => ?_⟩
          obtain ⟨v, found, rfl⟩ := Option.map_eq_some_iff.mp there
          exact offers v (List.mem_of_getElem? found)
        · cases starts
    · cases starts
  · rename_i id
    split at starts
    · rename_i v answered
      exact startPlaced_within (offers_of_isData (isData_of_refs_nil (produces.2 v answered))) starts
    · cases starts
  · cases starts

/-- The elements of raw data refer to no objects by their contents. -/
theorem Raw.within {store : Store} {d : Value} (raw : store.Raw d) :
    (store.originOf d).Within Item.Plain := by
  refine ⟨fun n tape starts => ?_, ?_⟩
  · simp only [originOf] at starts
    split at starts
    · rename_i iterable
      exact startOf_within (raw.offers iterable) starts
    · rename_i iterable
      exact startCalled_within (raw.produces (by simpa using iterable)) starts
  · cases found : store.aside d with
    | some id =>
      have kept : (store.originOf d).kept = store.tapeOf (store.cursor id) := by simp only [originOf, found]
      exact kept ▸ (raw.kept id found).2.within
    | none =>
      have kept : (store.originOf d).kept = store.tapeOf default := by simp only [originOf, found]
      exact kept ▸ Readable.within ⟨rfl, fun _ _ _ form => (by cases form), fun _ _ there => by cases there⟩

end Store

end FirstSeen
