import FirstSeen.Proofs.Obeying
import FirstSeen.Proofs.Tower.Ground

/-!
# What sources do to a store

Iterating data and calling a factory make a new iterator, if the data are no iterator and the factory gives none that is
there already. Nothing else of the store is in the way of others then: sequences stay as they are, and so does what
iterates and what is called. An iterator that is no stream makes no other one when it is moved on or closed, and calls
no factory.
-/

set_option autoImplicit false

namespace FirstSeen

/-! ## Sources that give new iterators -/

/-- Whether each call that gives this product gives a new iterator, or something that is no iterator itself. -/
def Product.Renews : Product → Prop
  | .value v => Store.isOneShot v = false
  | .shared _ => False
  | .generator .. | .walker .. | .items _ => True

namespace Store

/-- Whether each call of a factory that gives something gives a new iterator, or something that is no iterator itself. -/
def Renews (store : Store) : Value → Prop
  | .object (.key id) => ∀ nameOf earlier v, (store.key id).respond nameOf earlier [] = .ok v → isOneShot v = false
  | .object (.source id) => ∀ product, (store.source id).product = some product → product.Renews
  | _ => True

/-- Whether a factory is there, and can be called. -/
def CanCall (store : Store) : Value → Prop
  | .object (.key id) => id.index < store.keys.size
  | .object (.source id) => (store.source id).product.isSome ∧ (store.source id).meter.index < store.meters.size
  | _ => False

/-- How often a factory was called. -/
def factoryCalls (store : Store) : Value → Nat
  | .object (.key id) => (store.key id).history.size
  | .object (.source id) => store.callsOf id
  | _ => 0

end Store

/-- Whether a sequence with this body gets a new iterator whenever it opens what it is over: its data are no iterator, or
its factory can be called and gives a new one. -/
def Body.Renews (store : Store) : Body → Prop
  | .iterable data _ => Store.isOneShot data = false
  | .produced factory _ _ => store.CanCall factory ∧ store.Renews factory
  | _ => False

/-- Only sequences over an iterable or a factory do so. -/
theorem Body.Renews.ground {store : Store} {body : Body} (renews : body.Renews store) : body.isGround = true := by
  cases body with
  | iterable | produced => rfl
  | _ => exact renews.elim

namespace Store

/-! ## What stays -/

/-- A store in which what can be called, and what calling it gives, is as before. -/
structure SameCallables (before after : Store) : Prop where
  sources : after.sources = before.sources
  keys : after.keys.size = before.keys.size
  respond : ∀ id, (after.key id).respond = (before.key id).respond
  meters : after.meters.size = before.meters.size

/-- A store in which iterators may have moved, been closed or been added, and calls been made, and nothing else
happened to what opens iterators. -/
structure Stays (before after : Store) : Prop extends before.SameCallables after where
  sequences : after.sequences = before.sequences
  size : before.cursors.size ≤ after.cursors.size
  streams : ∀ id : CursorId, id.index < before.cursors.size → (after.cursor id).isStream = (before.cursor id).isStream

/-- A store in which besides no iterator was added and no call was made. -/
structure Settled (before after : Store) : Prop extends before.Stays after where
  added : after.cursors.size = before.cursors.size
  asked : after.keys = before.keys
  calls : ∀ id, (after.meter id).calls = (before.meter id).calls

instance : IsPreorder Store Stays where
  refl _ := ⟨⟨rfl, rfl, fun _ => rfl, rfl⟩, rfl, Nat.le_refl _, fun _ _ => rfl⟩
  trans _ _ _ h k := ⟨⟨k.sources.trans h.sources, k.keys.trans h.keys, fun id => (k.respond id).trans (h.respond id),
    k.meters.trans h.meters⟩, k.sequences.trans h.sequences, Nat.le_trans h.size k.size,
    fun id there => (k.streams id (Nat.lt_of_lt_of_le there h.size)).trans (h.streams id there)⟩

theorem Stays.refl (store : Store) : store.Stays store := IsPreorder.toRefl.refl store

theorem Stays.trans {first second third : Store} (h : first.Stays second) (k : second.Stays third) : first.Stays third :=
  IsPreorder.toIsTrans.trans _ _ _ h k

instance : IsPreorder Store Settled where
  refl store := ⟨.refl store, rfl, rfl, fun _ => rfl⟩
  trans _ _ _ h k := ⟨h.toStays.trans k.toStays, k.added.trans h.added, k.asked.trans h.asked,
    fun id => (k.calls id).trans (h.calls id)⟩

theorem Settled.refl (store : Store) : store.Settled store := IsPreorder.toRefl.refl store

theorem Settled.trans {first second third : Store} (h : first.Settled second) (k : second.Settled third) :
    first.Settled third :=
  IsPreorder.toIsTrans.trans _ _ _ h k

variable {before after : Store}

theorem SameCallables.renews (same : before.SameCallables after) {factory : Value} (renews : before.Renews factory) :
    after.Renews factory := by
  cases factory with
  | object ref =>
    cases ref with
    | key id =>
      intro nameOf earlier v
      rw [same.respond]
      exact renews nameOf earlier v
    | source id =>
      intro product made
      refine renews product ?_
      rwa [Store.source, ← same.sources]
    | _ => exact renews
  | _ => exact renews

theorem SameCallables.canCall (same : before.SameCallables after) {factory : Value} (there : before.CanCall factory) :
    after.CanCall factory := by
  cases factory with
  | object ref =>
    cases ref with
    | key id =>
      change id.index < after.keys.size
      rw [same.keys]
      exact there
    | source id =>
      change (after.source id).product.isSome ∧ (after.source id).meter.index < after.meters.size
      rw [Store.source, same.sources, same.meters]
      exact there
    | _ => exact there
  | _ => exact there

theorem SameCallables.body (same : before.SameCallables after) {body : Body} (renews : body.Renews before) :
    body.Renews after := by
  cases body with
  | produced factory size feed => exact ⟨same.canCall renews.1, same.renews renews.2⟩
  | _ => exact renews

theorem Settled.factoryCalls (settled : before.Settled after) (factory : Value) :
    after.factoryCalls factory = before.factoryCalls factory := by
  cases factory with
  | object ref =>
    cases ref with
    | key id => rw [Store.factoryCalls, Store.factoryCalls, Store.key, settled.asked]; rfl
    | source id =>
      rw [Store.factoryCalls, Store.factoryCalls, callsOf, callsOf, settled.calls, Store.source, settled.sources]
      rfl
    | _ => rfl
  | _ => rfl

end Store

namespace Run

open Store

variable {α β : Type}

/-! ## Moving on and closing -/

theorem settled_newDatum (v : Value) : (newDatum v).Keeps Settled :=
  fun _ => ⟨⟨⟨rfl, rfl, fun _ => rfl, rfl⟩, rfl, Nat.le_refl _, fun _ _ => rfl⟩, rfl, rfl, fun _ => rfl⟩

theorem settled_newList (items : List Value) : (newList items).Keeps Settled :=
  fun _ => ⟨⟨⟨rfl, rfl, fun _ => rfl, rfl⟩, rfl, Nat.le_refl _, fun _ _ => rfl⟩, rfl, rfl, fun _ => rfl⟩

theorem settled_newObject (v : Value) : (newObject v).Keeps Settled :=
  .ite (keeps_pure v) ((settled_newDatum v).bind fun _ => keeps_pure _)

theorem settled_install (v : Value) : (install v).Keeps Settled :=
  have datum (v : Value) : (newDatum v).Obeys (Law.keeping Settled) := settled_newDatum v
  have obeys : (install v).Obeys (Law.keeping Settled) := obeys_install_of datum settled_newList v
  obeys.keeps

/-- A use of a source may be counted, unless it is a call. -/
theorem settled_updateMeter (id : MeterId) {f : Meter → Meter} (same : ∀ m : Meter, (f m).calls = m.calls) :
    (updateMeter id f).Keeps Settled := by
  intro store
  refine ⟨⟨⟨rfl, rfl, fun _ => rfl, by simp⟩, rfl, Nat.le_refl _, fun _ _ => rfl⟩, rfl, rfl, fun other => ?_⟩
  simp only [from?_updateMeter, Store.meter, Array.getD_eq_getD_getElem?, Array.getElem?_modify]
  split
  · cases store.meters[other.index]? with
    | none => rfl
    | some m => exact same m
  · rfl

theorem settled_updateMeter? (id : Option MeterId) {f : Meter → Meter} (same : ∀ m : Meter, (f m).calls = m.calls) :
    (updateMeter? id f).Keeps Settled := by
  cases id with
  | none => exact keeps_pure ()
  | some id => exact settled_updateMeter id same

/-- Whether a run from where an iterator is no stream settles. -/
def Settles (k : CursorId) (run : Run α) : Prop :=
  ∀ store : Store, k.index < store.cursors.size → (store.cursor k).isStream = false → store.Settled (run.from? store).2

variable {k : CursorId}

theorem Settles.bind {run : Run α} {next : α → Run β} (first : run.Settles k) (rest : ∀ a, (next a).Settles k) :
    (run >>= next).Settles k := by
  intro store there leaf
  have settled := first store there leaf
  rcases ends : run.from? store with ⟨halt | a, left⟩ <;> rw [ends] at settled
  · rw [from?_bind_error ends]
    exact settled
  · rw [from?_bind_ok ends]
    have leaf' : (left.cursor k).isStream = false := (settled.streams k there).trans leaf
    exact settled.trans (rest a left (by rw [settled.added]; exact there) leaf')

theorem Settles.ite {c : Prop} [Decidable c] {run other : Run α} (first : run.Settles k) (second : other.Settles k) :
    (if c then run else other).Settles k := by
  split
  · exact first
  · exact second

theorem Settles.unless {c : Prop} [Decidable c] {fault : Fault} {rest : Run α} (settles : rest.Settles k) :
    (if c then fail fault >>= fun _ : Unit => rest else rest).Settles k :=
  .ite (fun store _ _ => .refl store) settles

theorem settles_of_keeps {run : Run α} (keeps : run.Keeps Settled) : run.Settles k := fun store _ _ => keeps store

/-- An iterator that is no stream is replaced by one that is none. -/
theorem settles_setCursor {cursor : Cursor} (noStream : cursor.isStream = false) : (setCursor k cursor).Settles k := by
  intro store there leaf
  refine ⟨⟨⟨rfl, rfl, fun _ => rfl, rfl⟩, rfl, by simp, fun other _ => ?_⟩, by simp, rfl, fun _ => rfl⟩
  have found : ((setCursor k cursor).from? store).2.cursor other =
      if k.index = other.index ∧ other.index < store.cursors.size then cursor else store.cursor other := by
    simp only [from?_setCursor, Store.cursor, Array.getD_eq_getD_getElem?, Array.getElem?_modify]
    by_cases same : k.index = other.index
    · by_cases inside : other.index < store.cursors.size <;> simp [same, inside]
    · simp [same]
  rw [found]
  split
  · rename_i same
    obtain rfl : k = other := by cases k; cases other; simp_all
    rw [noStream, leaf]
  · rfl

theorem settles_deliver (event : Event) : (deliver event).Settles k := by
  cases event with
  | value v => exact settles_of_keeps (keeps_pure v)
  | made v => exact settles_of_keeps (settled_newObject v)
  | fault fault => exact settles_of_keeps (keeps_fail fault)

theorem settles_noteClose (meter : Option MeterId) (closing : CloseRule) : (noteClose meter closing).Settles k := by
  refine settles_of_keeps ?_
  cases closing with
  | silent => exact keeps_pure ()
  | counted fault =>
    refine (settled_updateMeter? meter (f := fun m => { m with closes := m.closes + 1 }) fun _ => rfl).bind fun _ => ?_
    cases fault with
    | none => exact keeps_pure ()
    | some fault => exact keeps_fail fault

theorem settles_closeCursor (k : CursorId) : (closeCursor k).Settles k := by
  intro store there leaf
  rw [closeCursor, from?_bind_ok (from?_cursor ..)]
  cases found : store.cursor k with
  | walking name script position meter closing => exact settles_noteClose meter closing store there leaf
  | listing | ranging => exact .refl store
  | generating script position phase meter closing =>
    refine (settles_setCursor (by rfl)).bind (fun _ => ?_) store there leaf
    split
    · intro store there leaf
      rw [from?_onFault]
      have settled := settles_noteClose meter closing store there leaf
      rcases ends : (noteClose meter closing).from? store with ⟨(fault | _) | a, left⟩ <;> rw [ends] at settled
      · exact settled
      · exact settled
      · exact settled
    · exact settles_of_keeps (keeps_pure ())
  | streaming pipeline input phase =>
    rw [found] at leaf
    cases leaf

theorem settles_advance (k : CursorId) (n : Nat) : ((calls n).advance k).Settles k := by
  cases n with
  | zero => exact settles_of_keeps keeps_outOfFuel
  | succ n =>
    intro store there leaf
    change store.Settled (((calls n).advanceWith k).from? store).2
    rw [Calls.advanceWith, from?_bind_ok (from?_cursor ..)]
    have pulled : ∀ meter : Option MeterId, (updateMeter? meter fun m => { m with pulls := m.pulls + 1 }).Settles k :=
      fun meter => settles_of_keeps (settled_updateMeter? meter fun _ => rfl)
    have failing : ∀ fault, (fail fault : Run Value).Settles k := fun fault => settles_of_keeps (keeps_fail fault)
    have set : ∀ cursor : Cursor, cursor.isStream = false → (setCursor k cursor).Settles k := fun _ => settles_setCursor
    cases found : store.cursor k with
    | walking name script position meter closing =>
      refine (pulled meter).bind (fun _ => ?_) store there leaf
      split
      · exact failing _
      · exact (set _ rfl).bind fun _ => settles_deliver _
    | listing list position ended =>
      have walks : (advanceListing k list position ended).Settles k := by
        have reads : (Run.list list).Settles k := settles_of_keeps (keeps_view _)
        refine .unless (reads.bind fun items => ?_)
        split
        · exact (set _ rfl).bind fun _ => failing _
        · exact (set _ rfl).bind fun _ => settles_of_keeps (keeps_pure _)
      exact walks store there leaf
    | ranging start stop step position =>
      have walks : (advanceRanging k start stop step position).Settles k := by
        unfold advanceRanging
        split
        · exact failing _
        · exact (set _ rfl).bind fun _ => settles_of_keeps (settled_newObject _)
      exact walks store there leaf
    | generating script position phase meter closing =>
      have begun : (updateMeter? meter fun m => { m with iterations := m.iterations + 1 }).Settles k :=
        settles_of_keeps (settled_updateMeter? meter fun _ => rfl)
      have runs : (advanceGenerator k script position phase meter closing).Settles k := by
        refine .unless (.ite (begun.bind fun _ => ?_) ?_) <;>
        · split
          · exact (set _ rfl).bind fun _ => failing _
          · refine (pulled meter).bind fun _ => ?_
            split
            · exact (set _ rfl).bind fun _ => failing _
            · exact (set _ rfl).bind fun _ => settles_deliver _
      exact runs store there leaf
    | streaming pipeline input phase =>
      rw [found] at leaf
      cases leaf

/-! ## Opening -/

/-- A store in which something was opened, or failed to be: a new iterator was added, or none. -/
structure Opened (before after : Store) (result : Except Halt Feed) : Prop where
  stays : before.Stays after
  new : ∀ feed, result = .ok feed → feed = .cursor ⟨before.cursors.size⟩ ∧
    after.cursors.size = before.cursors.size + 1 ∧ (after.cursor ⟨before.cursors.size⟩).isStream = false
  none : ∀ halt, result = .error halt → after.cursors.size = before.cursors.size

/-- Whether a run of which a feed comes opens it, wherever it starts, without calling a factory. -/
def Opens (run : Run Feed) : Prop :=
  ∀ store, Opened store (run.from? store).2 (run.from? store).1 ∧
    ∀ factory, (run.from? store).2.factoryCalls factory = store.factoryCalls factory

/-- A new iterator is added at the end. -/
theorem added_newCursor {cursor : Cursor} (noStream : cursor.isStream = false) (store : Store) :
    store.Stays ((newCursor cursor).from? store).2 ∧
      ((newCursor cursor).from? store).2.cursors.size = store.cursors.size + 1 ∧
      (((newCursor cursor).from? store).2.cursor ⟨store.cursors.size⟩).isStream = false ∧
      ∀ factory, ((newCursor cursor).from? store).2.factoryCalls factory = store.factoryCalls factory := by
  have found : ∀ id : CursorId, ((newCursor cursor).from? store).2.cursor id =
      if id.index = store.cursors.size then cursor else store.cursor id := by
    intro id
    simp only [from?_newCursor, Store.cursor, Array.getD_eq_getD_getElem?, Array.getElem?_push]
    split <;> rfl
  refine ⟨⟨⟨rfl, rfl, fun _ => rfl, rfl⟩, rfl, by simp, fun id there => ?_⟩, by simp, ?_, fun factory => ?_⟩
  · rw [found, if_neg (Nat.ne_of_lt there)]
  · rw [found, if_pos rfl, noStream]
  · cases factory with
    | object ref => cases ref <;> rfl
    | _ => rfl

/-- A new iterator is opened. -/
theorem opens_newCursor {cursor : Cursor} (noStream : cursor.isStream = false) :
    Opens (do return .cursor (← newCursor cursor)) := by
  intro store
  obtain ⟨stays, size, leaf, calls⟩ := added_newCursor noStream store
  refine ⟨⟨stays, fun feed same => ?_, nofun⟩, calls⟩
  cases same
  exact ⟨rfl, size, leaf⟩

/-- What settles may come first. -/
theorem Opens.after {first : Run α} {next : α → Run Feed} (settled : first.Keeps Settled)
    (rest : ∀ {a store left}, first.from? store = (.ok a, left) → Opens (next a)) : Opens (first >>= next) := by
  intro store
  have begun := settled store
  rcases ends : first.from? store with ⟨halt | a, left⟩ <;> rw [ends] at begun
  · rw [from?_bind_error ends]
    exact ⟨⟨begun.toStays, nofun, fun _ _ => begun.added⟩, begun.factoryCalls⟩
  · rw [from?_bind_ok ends]
    obtain ⟨⟨stays, new, none⟩, calls⟩ := rest ends left
    rw [begun.added] at new none
    exact ⟨⟨begun.toStays.trans stays, new, none⟩, fun factory => (calls factory).trans (begun.factoryCalls factory)⟩

theorem opens_fail (fault : Fault) : Opens (fail fault) :=
  fun store => ⟨⟨.refl store, nofun, fun _ _ => rfl⟩, fun _ => rfl⟩

/-- What is no iterator is opened by a new one. -/
theorem opens_openFeed {v : Value} (renews : isOneShot v = false) : Opens (openFeed v) := by
  have counted : ∀ id : MeterId, (updateMeter id fun m => { m with iterations := m.iterations + 1 }).Keeps Settled :=
    fun id => settled_updateMeter id fun _ => rfl
  unfold openFeed
  split
  · cases renews
  · cases renews
  · exact opens_newCursor rfl
  · refine .after (keeps_view _) fun {source _ _} _ => ?_
    unfold openSource
    split
    · exact opens_newCursor rfl
    · exact .after (counted _) fun _ => opens_newCursor rfl
    · exact .after (counted _) fun _ => opens_fail _
    · exact opens_newCursor rfl
    · exact opens_fail _
  · refine .after (keeps_view _) fun {held _ _} _ => ?_
    split
    · exact opens_newCursor rfl
    · split
      · exact opens_newCursor rfl
      · exact .after (keeps_view _) fun _ => opens_fail _

/-- An answer comes of both parts of a run. -/
theorem bind_answers {run : Run α} {next : α → Run β} {store after : Store} {b : β}
    (ends : (run >>= next).from? store = (.ok b, after)) :
    ∃ a left, run.from? store = (.ok a, left) ∧ (next a).from? left = (.ok b, after) := by
  rcases first : run.from? store with ⟨halt | a, left⟩
  · rw [from?_bind_error first] at ends
    cases ends
  · rw [from?_bind_ok first] at ends
    exact ⟨a, left, rfl, ends⟩

/-- Installing a reference gives it back. What else is installed is no iterator. -/
theorem install_answers {v held : Value} {store after : Store} (ends : (install v).from? store = (.ok held, after)) :
    (∃ ref, v = .object ref ∧ held = v) ∨ isOneShot held = false := by
  have object : ∀ {w : Value} {store : Store}, (newObject w).from? store = (.ok held, after) →
      held = w ∨ isOneShot held = false := by
    intro w store ends
    rw [from?_newObject] at ends
    split at ends <;> cases ends
    · exact .inl rfl
    · exact .inr rfl
  cases v with
  | object ref =>
    change (newObject _).from? store = _ at ends
    rw [from?_newObject] at ends
    cases ends
    exact .inl ⟨ref, rfl, rfl⟩
  | list items =>
    rw [install] at ends
    obtain ⟨vs, left, -, ends⟩ := bind_answers ends
    cases ends
    exact .inr rfl
  | tuple items | set items | frozenset items | dict items =>
    rw [install] at ends
    obtain ⟨vs, left, -, ends⟩ := bind_answers ends
    rcases object ends with rfl | none
    · exact .inr rfl
    · exact .inr none
  | _ =>
    change (newObject _).from? store = _ at ends
    rcases object ends with rfl | none
    · exact .inr rfl
    · exact .inr none

/-- What is no iterator is none once it is installed, and then opened by a new one. -/
theorem opens_install {v : Value} (renews : isOneShot v = false) : Opens (install v >>= openFeed) := by
  refine .after (settled_install v) fun installed => opens_openFeed ?_
  rcases install_answers installed with ⟨ref, -, rfl⟩ | fresh
  · exact renews
  · exact fresh

/-- What calling a factory comes to that gives new iterators: an iterator is added and given, or none is. -/
structure Called (before after : Store) (factory : Value) (result : Except Halt Value) : Prop where
  stays : before.Stays after
  gives : ∀ v, result = .ok v → isOneShot v = false ∧ after.cursors.size = before.cursors.size ∨
    v = .ofCursor ⟨before.cursors.size⟩ ∧ after.cursors.size = before.cursors.size + 1 ∧
      (after.cursor ⟨before.cursors.size⟩).isStream = false
  none : ∀ halt, result = .error halt → after.cursors.size = before.cursors.size
  counted : after.factoryCalls factory = before.factoryCalls factory + 1

/-- A call of a key function is kept in its history. -/
theorem called_callKey {id : KeyId} {store : Store} (renews : store.Renews (.object (.key id)))
    (there : store.CanCall (.object (.key id))) :
    Called store ((callKey id []).from? store).2 (.object (.key id)) ((callKey id []).from? store).1 := by
  let called : Store :=
    { store with keys := store.keys.modify id.index fun key => { key with history := key.history.push [] } }
  have ends : (callKey id []).from? store =
      (((store.key id).respond store.typeName (store.key id).history []).mapError .fault, called) := by
    rw [callKey, from?_bind_ok (from?_view ..)]
    exact from?_ofExcept ..
  have stays : store.Stays called := by
    refine ⟨⟨rfl, by simp [called], fun other => ?_, rfl⟩, rfl, Nat.le_refl _, fun _ _ => rfl⟩
    simp only [called, Store.key, Array.getD_eq_getD_getElem?, Array.getElem?_modify]
    split
    · cases store.keys[other.index]? <;> rfl
    · rfl
  have counted : called.factoryCalls (.object (.key id)) = store.factoryCalls (.object (.key id)) + 1 := by
    have inside : id.index < store.keys.size := there
    simp [called, Store.factoryCalls, Store.key, Array.getD_eq_getD_getElem?, Array.getElem_modify, inside]
  rw [ends]
  refine ⟨stays, fun v same => .inl ⟨?_, rfl⟩, fun _ _ => rfl, counted⟩
  refine renews store.typeName (store.key id).history v ?_
  cases answer : (store.key id).respond store.typeName (store.key id).history [] <;> rw [answer] at same <;> cases same
  rfl

/-- A product is made anew. -/
theorem called_make {product : Product} (renews : product.Renews) (meter : MeterId) {factory : Value} {store left : Store}
    (stays : store.Stays left) (size : left.cursors.size = store.cursors.size)
    (counted : left.factoryCalls factory = store.factoryCalls factory + 1) :
    Called store ((make meter product).from? left).2 factory ((make meter product).from? left).1 := by
  have made : ∀ {cursor : Cursor}, cursor.isStream = false →
      Called store ((newCursor cursor).from? left).2 factory (.ok (.ofCursor ⟨left.cursors.size⟩)) := by
    intro cursor noStream
    obtain ⟨stays', size', leaf, calls⟩ := added_newCursor noStream left
    rw [size] at size' leaf ⊢
    refine ⟨stays.trans stays', fun v same => ?_, nofun, (calls factory).trans counted⟩
    cases same
    exact .inr ⟨rfl, size', leaf⟩
  cases product with
  | value v => exact ⟨stays, fun w same => (by cases same; exact .inl ⟨renews, size⟩), nofun, counted⟩
  | generator script closing => exact made rfl
  | walker name script closing => exact made rfl
  | items all => exact made rfl
  | shared cursor => exact renews.elim

/-- A call of a source is counted, also if it fails. -/
theorem called_callSource {id : SourceId} {product : Product} {store : Store}
    (renews : product.Renews) (there : (store.source id).meter.index < store.meters.size) :
    Called store ((callSource (store.source id) product).from? store).2 (.object (.source id))
      ((callSource (store.source id) product).from? store).1 := by
  let called : Store :=
    ((updateMeter (store.source id).meter fun m => { m with calls := m.calls + 1 }).from? store).2
  have stays : store.Stays called := ⟨⟨rfl, rfl, fun _ => rfl, by simp [called]⟩, rfl, Nat.le_refl _, fun _ _ => rfl⟩
  have counted : called.factoryCalls (.object (.source id)) = store.factoryCalls (.object (.source id)) + 1 := by
    change (called.meter (store.source id).meter).calls = (store.meter _).calls + 1
    simp [called, Store.meter, Array.getD_eq_getD_getElem?, Array.getElem_modify, there]
  have begun : (callSource (store.source id) product).from? store = (do
      if (store.source id).failingCalls.contains (called.meter (store.source id).meter).calls then
        fail (store.source id).failure
      make (store.source id).meter product).from? called := by
    rw [callSource, from?_bind_ok (from?_updateMeter ..), from?_bind_ok (from?_view ..)]
    rfl
  rw [begun]
  split
  · exact ⟨stays, fun _ given => (by cases given), fun _ _ => rfl, counted⟩
  · exact called_make renews _ stays rfl counted

theorem called {factory : Value} {store : Store} (renews : store.Renews factory) (there : store.CanCall factory) :
    Called store ((call factory []).from? store).2 factory ((call factory []).from? store).1 := by
  unfold call
  split
  · exact called_callKey renews there
  · rename_i id
    rw [from?_bind_ok (from?_view ..)]
    obtain ⟨made, there⟩ := there
    obtain ⟨product, made⟩ := Option.isSome_iff_exists.mp made
    rw [made]
    exact called_callSource (renews product made) there
  · rename_i noKey noSource
    cases factory with
    | object ref =>
      cases ref with
      | key id => exact (noKey id rfl).elim
      | source id => exact (noSource id rfl).elim
      | _ => exact there.elim
    | _ => exact there.elim

/-- Whatever is opened by a sequence that renews its iterator is new, and opening it calls the factory once. -/
theorem opened_opener {body : Body} {store : Store} (renews : body.Renews store) :
    Opened store (body.opener.from? store).2 (body.opener.from? store).1 ∧
      ∀ factory, body.factory? = some factory →
        (body.opener.from? store).2.factoryCalls factory = store.factoryCalls factory + 1 := by
  cases body with
  | iterable data feed => exact ⟨(opens_openFeed renews store).1, fun _ given => (by cases given)⟩
  | produced factory size feed =>
    obtain ⟨there, renews⟩ := renews
    obtain ⟨stays, gives, none, counted⟩ := called renews there
    rw [Body.opener]
    rcases ends : (call factory []).from? store with ⟨halt | v, left⟩ <;> rw [ends] at stays gives none counted
    · rw [from?_bind_error ends]
      exact ⟨⟨stays, fun _ given => (by cases given), fun _ _ => none halt rfl⟩, fun _ same => (by cases same; exact counted)⟩
    rw [from?_bind_ok ends]
    rcases gives v rfl with ⟨fresh, size⟩ | ⟨rfl, size, leaf⟩
    · -- what the factory gave is no iterator, so that one is made for it
      obtain ⟨⟨stays', new, none'⟩, calls⟩ : Opened left (((install v >>= openFeed).from? left).2)
          (((install v >>= openFeed).from? left).1) ∧ ∀ other,
            ((install v >>= openFeed).from? left).2.factoryCalls other = left.factoryCalls other :=
        opens_install fresh left
      rw [size] at new none'
      exact ⟨⟨stays.trans stays', new, none'⟩, fun _ same => (by cases same; exact (calls _).trans counted)⟩
    · -- the factory gave an iterator of its own
      refine ⟨⟨stays, fun feed same => ?_, fun _ given => (by cases given)⟩, fun _ same => (by cases same; exact counted)⟩
      cases same
      exact ⟨rfl, size, leaf⟩
  | _ => exact renews.elim

end Run

end FirstSeen
