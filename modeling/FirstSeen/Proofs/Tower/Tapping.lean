import FirstSeen.Proofs.Tower.Raw
import FirstSeen.Proofs.Tower.Surfacing
import Mathlib.Logic.Function.Iterate

/-!
# What a chain does outside of itself

A chain is made of sequences, and tells what it does in the journal. *Beneath* them is all else: iterators, the
counters of sources, key functions and what these were asked. Opening data and moving an iterator on have to do with
that part of a store only, and do not even depend on the key functions.

A *tap* is a store with the iterator that is drawn from, once there is one. `Tap.after` repeats on a tap what was
done to bring elements to the top of a tower, and nothing else: it moves the iterator on, which is opened first if
need be, and asks key functions. The iterators then are where a consumer without any stages gets them by as many
draws, and each key function was asked once more for each element that a stage with it judged.
-/

set_option autoImplicit false

namespace FirstSeen

namespace Store

/-- The store without its sequences and its journal, and with what is kept of its key functions. -/
def bare (keep : Array KeyFunction → Array KeyFunction) (store : Store) : Store :=
  { store with sequences := #[], journal := #[], keys := keep store.keys }

/-- The store without what a chain is made of and tells. -/
def beneath (store : Store) : Store := store.bare id

/-- The store without what a chain is made of, tells and asks. -/
def outside (store : Store) : Store := store.bare fun _ => #[]

theorem outside_beneath (store : Store) : store.beneath.outside = store.outside := rfl

theorem outside_of_beneath {store other : Store} (same : store.beneath = other.beneath) :
    store.outside = other.outside := by
  rw [← outside_beneath, same, outside_beneath]

/-- What a value contains is found beneath a chain. -/
theorem contents_beneath (store : Store) (v : Value) : store.beneath.contents v = store.contents v := by
  suffices same : ∀ depth v, store.beneath.contentsTo depth v = store.contentsTo depth v from same _ v
  intro depth
  induction depth with
  | zero => exact fun _ => rfl
  | succ depth ih =>
    intro v
    rw [contentsTo, contentsTo, funext ih]
    rfl

theorem contents_of_beneath (store other : Store) (same : store.beneath = other.beneath) (v : Value) :
    store.contents v = other.contents v := by
  rw [← contents_beneath, same, contents_beneath]

theorem cursors_of_outside {store other : Store} (same : store.outside = other.outside) :
    store.cursors = other.cursors := by
  change store.outside.cursors = other.outside.cursors
  rw [same]

end Store

namespace Run

variable {α β : Type}

/-- Whether a run from this store neither depends on sequences, journal and what is not kept of key functions nor
changes them. -/
def BlindAt (keep : Array KeyFunction → Array KeyFunction) (run : Run α) (store : Store) : Prop :=
  run.from? (store.bare keep) = ((run.from? store).1, (run.from? store).2.bare keep)

/-- Whether a run has to do with neither sequences nor the journal nor key functions. -/
def Blind (run : Run α) : Prop := ∀ keep store, run.BlindAt keep store

/-- A run that is blind to what is left out of two stores ends alike from both. -/
theorem BlindAt.congr {keep : Array KeyFunction → Array KeyFunction} {run : Run α} {store other : Store}
    (blind : run.BlindAt keep store) (blind' : run.BlindAt keep other) (same : store.bare keep = other.bare keep) :
    (run.from? store).1 = (run.from? other).1 ∧
      (run.from? store).2.bare keep = (run.from? other).2.bare keep := by
  rw [BlindAt] at blind blind'
  have ends := blind.symm.trans ((congrArg run.from? same).trans blind')
  exact Prod.mk.inj ends

/-- A blind run leaves key functions alone: those that are put back afterwards are those that were there all the
time. -/
theorem BlindAt.keys {run : Run α} {store : Store} (kept : run.BlindAt (fun _ => store.keys) store)
    (there : run.BlindAt id store) : (run.from? store).2.keys = store.keys :=
  congrArg (fun ended => Store.keys ended.2) (there.symm.trans kept)

/-! ## What blind runs are made of -/

theorem BlindAt.bind {keep : Array KeyFunction → Array KeyFunction} {run : Run α} {next : α → Run β} {store : Store}
    (blind : run.BlindAt keep store) (rest : ∀ a left, run.from? store = (.ok a, left) → (next a).BlindAt keep left) :
    (run >>= next).BlindAt keep store := by
  rw [BlindAt] at blind
  rw [BlindAt, from?_bind, from?_bind, blind]
  rcases ends : run.from? store with ⟨halt | a, left⟩
  · rfl
  · exact rest a left ends

theorem Blind.bind {run : Run α} {next : α → Run β} (blind : run.Blind) (rest : ∀ a, (next a).Blind) :
    (run >>= next).Blind :=
  fun keep store => (blind keep store).bind fun a left _ => rest a keep left

theorem Blind.ite {c : Prop} [Decidable c] {run other : Run α} (blind : run.Blind) (blind' : other.Blind) :
    (if c then run else other).Blind := by
  split
  · exact blind
  · exact blind'

/-- What is done first under a condition is blind if it is and the rest is. -/
theorem Blind.first {c : Prop} [Decidable c] {run : Run α} {rest : α → Run β} {a : α} (blind : run.Blind)
    (rests : ∀ a, (rest a).Blind) : (if c then run >>= rest else rest a).Blind :=
  .ite (blind.bind rests) (rests a)

theorem blind_pure (a : α) : (pure a : Run α).Blind := fun _ _ => rfl

theorem blind_fail (fault : Fault) : (fail fault : Run α).Blind := fun _ _ => rfl

/-- Reading something off a store that does not depend on what is left out. -/
theorem blind_view {f : Store → α} (same : ∀ keep store, f (store.bare keep) = f store) : (view f).Blind :=
  fun keep store => by
    rw [BlindAt, from?_view, from?_view, same]

theorem blind_newObject (v : Value) : (newObject v).Blind :=
  .ite (blind_pure v) (.bind (fun _ _ => rfl) fun _ => blind_pure _)

theorem blind_updateMeter? (id : Option MeterId) (f : Meter → Meter) : (updateMeter? id f).Blind := by
  cases id with
  | none => exact blind_pure ()
  | some id => exact fun _ _ => rfl

theorem blind_newCursor (cursor : Cursor) : (newCursor cursor).Blind := fun _ _ => rfl

theorem blind_deliver (event : Event) : (deliver event).Blind := by
  cases event with
  | value v => exact blind_pure v
  | made v => exact blind_newObject v
  | fault fault => exact blind_fail fault

/-! ## Moving an iterator on -/

/-- Moving on an iterator that is no stream has to do with neither sequences nor key functions. -/
theorem blindAt_advance (keep : Array KeyFunction → Array KeyFunction) (n : Nat) {store : Store} {id : CursorId}
    (noStream : (store.cursor id).isStream = false) : ((calls (n + 1)).advance id).BlindAt keep store := by
  have set : ∀ cursor, (setCursor id cursor).Blind := fun _ _ _ => rfl
  have form : ∀ other : Store, ((calls (n + 1)).advance id).from? other = ((calls n).advanceWith id).from? other :=
    fun _ => rfl
  rw [BlindAt, form, form, Calls.advanceWith, from?_bind_ok (from?_cursor ..), from?_bind_ok (from?_cursor ..)]
  rw [show (store.bare keep).cursor id = store.cursor id from rfl]
  cases found : store.cursor id with
  | walking name script position meter closing =>
    have blind : (advanceWalker id name script position meter closing).Blind := by
      refine (blind_updateMeter? meter _).bind fun _ => ?_
      cases script position with
      | none => exact blind_fail _
      | some event => exact (set _).bind fun _ => blind_deliver event
    exact blind keep store
  | listing list position ended =>
    have blind : (advanceListing id list position ended).Blind := by
      unfold advanceListing
      refine Blind.first (a := ()) (blind_fail _) ?_
      refine fun _ => (blind_view fun _ _ => rfl).bind fun items => ?_
      cases items[position]? with
      | none => exact (set _).bind fun _ => blind_fail _
      | some v => exact (set _).bind fun _ => blind_pure v
    exact blind keep store
  | ranging start stop step position =>
    have blind : (advanceRanging id start stop step position).Blind := by
      unfold advanceRanging
      cases Value.rangeItem? start stop step position with
      | none => exact blind_fail _
      | some v => exact (set _).bind fun _ => blind_newObject v
    exact blind keep store
  | generating script position phase meter closing =>
    have blind : (advanceGenerator id script position phase meter closing).Blind := by
      unfold advanceGenerator
      refine Blind.first (a := ()) (blind_fail _) ?_
      refine fun _ => Blind.first (a := ()) (blind_updateMeter? meter _) ?_
      intro _
      cases script position with
      | none => exact (set _).bind fun _ => blind_fail _
      | some event =>
        refine (blind_updateMeter? meter _).bind fun _ => ?_
        cases event with
        | fault fault => exact (set _).bind fun _ => blind_fail _
        | value v => exact (set _).bind fun _ => blind_deliver _
        | made v => exact (set _).bind fun _ => blind_deliver _
    exact blind keep store
  | streaming pipeline input phase => simp [found, Cursor.isStream] at noStream

/-- An iterator that is no stream does not become one when it is moved on. -/
theorem noStream_advance (n : Nat) {store : Store} {id : CursorId} (noStream : (store.cursor id).isStream = false) :
    ((((calls (n + 1)).advance id).from? store).2.cursor id).isStream = false := by
  obtain ⟨meters, -, ends⟩ := Store.from?_advanceWith (calls n) rfl noStream
  change ((((calls n).advanceWith id).from? store).2.cursor id).isStream = false
  rw [ends]
  have set : ∀ cursor : Cursor, cursor.isStream = false → ∀ left : Store,
      left.cursors = store.cursors.modify id.index (fun _ => cursor) → (left.cursor id).isStream = false := by
    intro cursor still left same
    rw [Store.cursor, same, Array.getD_eq_getD_getElem?, Array.getElem?_modify, if_pos rfl]
    cases store.cursors[id.index]? with
    | none => rfl
    | some old => exact still
  have moves : (store.cursor id).afterElement.isStream = false ∧ (store.cursor id).afterEnd.isStream = false ∧
      (store.cursor id).afterFault.isStream = false := by
    generalize store.cursor id = cursor at noStream
    cases cursor with
    | streaming pipeline input phase => cases noStream
    | _ => exact ⟨rfl, rfl, rfl⟩
  rw [Store.advanced]
  split
  · exact set _ noStream _ rfl
  · split
    · exact set _ moves.2.1 _ rfl
    · exact set _ moves.2.2 _ rfl
    · rename_i event _ _
      refine set _ moves.1 _ ?_
      cases event with
      | made v =>
        rw [deliver, from?_newObject]
        split <;> rfl
      | value | fault => rfl

/-- How deep the calls may be does not matter to an iterator that is no stream. -/
theorem advance_depth (n : Nat) {store : Store} {id : CursorId} (noStream : (store.cursor id).isStream = false) :
    ((calls (n + 1)).advance id).from? store = ((calls 1).advance id).from? store := by
  change ((calls n).advanceWith id).from? store = ((calls 0).advanceWith id).from? store
  rw [Calls.advanceWith, Calls.advanceWith, from?_bind_ok (from?_cursor ..), from?_bind_ok (from?_cursor ..)]
  cases found : store.cursor id with
  | streaming pipeline input phase => simp [found, Cursor.isStream] at noStream
  | _ => rfl

/-! ## Opening -/

theorem blind_openSource (source : Source) : (openSource source).Blind := by
  unfold openSource
  split
  · exact (blind_newCursor _).bind fun _ => blind_pure _
  · exact .bind (fun _ _ => rfl) fun _ => (blind_newCursor _).bind fun _ => blind_pure _
  · exact .bind (fun _ _ => rfl) fun _ => blind_fail _
  · exact (blind_newCursor _).bind fun _ => blind_pure _
  · exact blind_fail _

theorem blind_openFeed (v : Value) : (openFeed v).Blind := by
  -- What is no reference to a list, a source, an iterator or a sequence is opened by its contents.
  have held : (∀ keep (store : Store), (store.bare keep).typeName v = store.typeName v) → (openHeld v).Blind := by
    intro names
    have same : ∀ keep (store : Store), (store.bare keep).plain v = store.plain v := fun _ _ => by
      cases v with
      | object ref => cases ref <;> rfl
      | _ => rfl
    refine (blind_view same).bind fun held => ?_
    split
    · exact (blind_newCursor _).bind fun _ => blind_pure _
    · split
      · exact (blind_newCursor _).bind fun _ => blind_pure _
      · exact (blind_view names).bind fun _ => blind_fail _
  cases v with
  | object ref =>
    cases ref with
    | sequence id => exact blind_pure _
    | cursor id => exact blind_pure _
    | list id => exact (blind_newCursor _).bind fun _ => blind_pure _
    | source id => exact (blind_view fun _ _ => rfl).bind blind_openSource
    | _ => exact held fun _ _ => rfl
  | _ => exact held fun _ _ => rfl

theorem blind_install (v : Value) : (install v).Blind := by
  have all : ∀ items : List Value, (∀ v ∈ items, (install v).Blind) → (installAll items).Blind := by
    intro items each
    induction items with
    | nil => exact blind_pure _
    | cons item rest ih =>
      refine (each item List.mem_cons_self).bind fun w => ?_
      exact (ih fun v member => each v (List.mem_cons_of_mem _ member)).bind fun _ => blind_pure _
  induction v using Value.containerInduction with
  | leaf v plain =>
    have form : install v = newObject v := by
      cases v <;> first | rfl | cases plain
    rw [form]
    exact blind_newObject v
  | list items ih => exact (all items ih).bind fun _ => .bind (fun _ _ => rfl) fun _ => blind_pure _
  | tuple items ih | set items ih | frozenset items ih => exact (all items ih).bind fun _ => blind_newObject _
  | dict entries ih =>
    refine Blind.bind ?_ fun _ => blind_newObject _
    induction entries with
    | nil => exact blind_pure _
    | cons entry rest ih' =>
      refine (ih entry List.mem_cons_self).1.bind fun _ => (ih entry List.mem_cons_self).2.bind fun _ => ?_
      exact (ih' fun e member => ih e (List.mem_cons_of_mem _ member)).bind fun _ => blind_pure _

theorem blind_callSource (source : Source) (product : Product) : (callSource source product).Blind := by
  have makes : (make source.meter product).Blind := by
    cases product with
    | value v => exact blind_pure v
    | shared id => exact blind_pure _
    | _ => exact (blind_newCursor _).bind fun _ => blind_pure _
  refine Blind.bind (fun _ _ => rfl) fun _ => (blind_view fun _ _ => rfl).bind fun count => ?_
  exact .ite ((blind_fail _).bind fun _ => makes) makes

end Run

namespace Store

/-- Opening raw data has to do with neither sequences nor the journal, whatever the store has grown to. -/
theorem Raw.blindAt_opener {first store : Store} {d : Value} (raw : first.Raw d) (grows : first.Grows store) :
    (first.groundBody d).opener.BlindAt id store := by
  cases iterable : first.isIterable d with
  | true =>
    rw [groundBody_iterable iterable]
    exact Run.blind_openFeed d id store
  | false =>
    rw [groundBody_produced iterable]
    have produces := raw.produces iterable
    have called : (Run.call d []).BlindAt id store := by
      cases d with
      | object ref =>
        cases ref with
        | key k =>
          have pure' : store.AnswersPurely k [] := produces.later grows
          have names (other : Store) (v : Value) : v.refs = [] → other.typeName v = v.plainName :=
            other.typeName_of_refs_nil
          have same : Run.answerOf (store.bare id) k [] = Run.answerOf store k [] := by
            have first := pure'.1 (store.bare id).typeName (store.key k).history (names _)
            have second := pure'.1 store.typeName (store.key k).history (names _)
            exact congrArg (Prod.mk []) (first.trans second.symm)
          change (Run.callKey k []).BlindAt id store
          rw [Run.BlindAt, Run.callKey, Run.from?_bind_ok (Run.from?_view ..), Run.from?_bind_ok (Run.from?_view ..),
            same]
          obtain ⟨args, answer⟩ := Run.answerOf store k []
          cases answer <;> rfl
        | source s =>
          refine (Run.blind_view fun _ _ => rfl).bind (fun source => ?_) id store
          split
          · exact Run.blind_callSource source _
          · exact Run.blind_fail _
        | _ => exact produces.elim
      | _ => exact produces.elim
    exact called.bind fun v left _ => (Run.blind_install v).bind Run.blind_openFeed id left

/-! ## Using what is beneath -/

/-- The store after an iterator was moved on once. -/
def turned (k : CursorId) (store : Store) : Store := (((calls 1).advance k).from? store).2

/-- The store after data were opened and drawn from so many times, with nothing in between. -/
def consumed (store : Store) (d : Value) : Nat → Store
  | 0 => store
  | t + 1 =>
    match (store.groundBody d).opener.from? store with
    | (.ok (.cursor k), opened) => (turned k)^[t + 1] opened
    | (_, opened) => opened

/-- The store after a key was asked for an element, which a key function keeps. -/
def asked (store : Store) (multi : Bool) (key : Value) (item : Item) : Store :=
  match key, item.arguments multi with
  | .object (.key id), .ok arguments => { store with
      keys := store.keys.modify id.index fun key => { key with history := key.history.push arguments } }
  | _, _ => store

theorem beneath_asked {store other : Store} (same : store.beneath = other.beneath) (multi : Bool) (key : Value)
    (item : Item) : (store.asked multi key item).beneath = (other.asked multi key item).beneath := by
  have form : ∀ store : Store, (store.asked multi key item).beneath = (store.beneath.asked multi key item).beneath := by
    intro store
    unfold asked
    split <;> rfl
  rw [form, same, ← form]

theorem outside_asked (store : Store) (multi : Bool) (key : Value) (item : Item) :
    (store.asked multi key item).outside = store.outside := by
  unfold asked
  split <;> rfl

/-- Moving an iterator on that is no stream has to do with neither sequences nor key functions. -/
theorem bare_turned {store other : Store} {k : CursorId} (keep : Array KeyFunction → Array KeyFunction)
    (noStream : (store.cursor k).isStream = false) (same : store.bare keep = other.bare keep) :
    (store.turned k).bare keep = (other.turned k).bare keep := by
  have cursors : store.cursor k = other.cursor k := by
    change (store.bare keep).cursor k = (other.bare keep).cursor k
    rw [same]
  exact ((Run.blindAt_advance keep 0 noStream).congr (Run.blindAt_advance keep 0 (cursors ▸ noStream)) same).2

theorem keys_turned {store : Store} {k : CursorId} (noStream : (store.cursor k).isStream = false) :
    (store.turned k).keys = store.keys :=
  (Run.blindAt_advance _ 0 noStream).keys (Run.blindAt_advance id 0 noStream)

end Store

/-! ## Taps -/

/-- A store with the iterator that is drawn from, once there is one. -/
structure Tap where
  store : Store
  held : Option CursorId

/-- What a key function is asked by a stage with a key, if that is the function and the element can be taken apart if
it has to. -/
def Item.asks (multi : Bool) (id : KeyId) (item : Item) (key : Value) : Option (List Value) :=
  match key, item.arguments multi with
  | .object (.key other), .ok arguments => if other = id then some arguments else none
  | _, _ => none

namespace Deed

/-- Whether the ground was drawn from. -/
def isDraw : Deed → Bool
  | drew => true
  | judged .. => false

/-- What a key function is asked for the sake of a deed, given the keys at each height. -/
def asks (multi : Bool) (keyAt : Nat → Value) (id : KeyId) : Deed → Option (List Value)
  | drew => none
  | judged height item => item.asks multi id (keyAt height)

end Deed

namespace Tap

/-- Moves the iterator of a tap on, which is opened if there is none. -/
def draw (opener : Run Feed) (tap : Tap) : Tap :=
  match tap.held with
  | some k => ⟨tap.store.turned k, some k⟩
  | none =>
    match opener.from? tap.store with
    | (.ok (.cursor k), opened) => ⟨opened.turned k, some k⟩
    | (_, opened) => ⟨opened, none⟩

/-- Does to a tap what is beneath a chain when it does a deed. -/
def does (opener : Run Feed) (multi : Bool) (keyAt : Nat → Value) (tap : Tap) : Deed → Tap
  | .drew => tap.draw opener
  | .judged height item => { tap with store := tap.store.asked multi (keyAt height) item }

/-- A tap after some deeds. -/
def after (opener : Run Feed) (multi : Bool) (keyAt : Nat → Value) (tap : Tap) (deeds : List Deed) : Tap :=
  deeds.foldl (does opener multi keyAt) tap

/-- Whether deeds lead from one tap to another as far as what is beneath is concerned. -/
def Leads (opener : Run Feed) (multi : Bool) (keyAt : Nat → Value) (tap : Tap) (deeds : List Deed) (left : Tap) :
    Prop :=
  ∀ store : Store, store.beneath = tap.store.beneath →
    (after opener multi keyAt ⟨store, tap.held⟩ deeds).store.beneath = left.store.beneath ∧
      (after opener multi keyAt ⟨store, tap.held⟩ deeds).held = left.held

variable {opener : Run Feed} {multi : Bool} {keyAt : Nat → Value}

/-- A change of sequences or the journal takes no deed. -/
theorem Leads.still {store after : Store} (held : Option CursorId) (same : after.beneath = store.beneath) :
    Leads opener multi keyAt ⟨store, held⟩ [] ⟨after, held⟩ := fun _ before => ⟨before.trans same.symm, rfl⟩

theorem Leads.trans {first second third : Tap} {deeds more : List Deed}
    (leads : Leads opener multi keyAt first deeds second) (rest : Leads opener multi keyAt second more third) :
    Leads opener multi keyAt first (deeds ++ more) third := by
  intro store same
  obtain ⟨same', held⟩ := leads store same
  rw [Tap.after, List.foldl_append, ← Tap.after, ← Tap.after]
  obtain ⟨same'', held'⟩ := rest _ same'
  rw [← held] at same'' held'
  exact ⟨same'', held'⟩

/-- What follows that only sequences or the journal change changes nothing. -/
theorem Leads.then {tap left : Tap} {deeds : List Deed} {last : Store} (leads : Leads opener multi keyAt tap deeds left)
    (same : last.beneath = left.store.beneath) : Leads opener multi keyAt tap deeds ⟨last, left.held⟩ := by
  have all := leads.trans (.still left.held same)
  rwa [List.append_nil] at all

theorem Leads.judged (store : Store) (held : Option CursorId) (height : Nat) (item : Item) :
    Leads opener multi keyAt ⟨store, held⟩ [.judged height item] ⟨store.asked multi (keyAt height) item, held⟩ :=
  fun _ same => ⟨Store.beneath_asked same multi (keyAt height) item, rfl⟩

/-- Moving on the iterator that is held is one draw. -/
theorem Leads.drew {store : Store} {k : CursorId} (noStream : (store.cursor k).isStream = false) :
    Leads opener multi keyAt ⟨store, some k⟩ [.drew] ⟨store.turned k, some k⟩ :=
  fun _ same => ⟨(Store.bare_turned id noStream same.symm).symm, rfl⟩

/-- Opening an iterator and moving it on is one draw. -/
theorem Leads.opened {store opened : Store} {k : CursorId}
    (blind : ∀ other : Store, other.beneath = store.beneath → opener.BlindAt id other)
    (opens : opener.from? store = (.ok (.cursor k), opened)) (noStream : (opened.cursor k).isStream = false) :
    Leads opener multi keyAt ⟨store, none⟩ [.drew] ⟨opened.turned k, some k⟩ := by
  intro other same
  obtain ⟨ends, beneath⟩ := (blind other same).congr (blind store rfl) same
  rw [opens] at ends beneath
  change (Tap.draw opener ⟨other, none⟩).store.beneath = _ ∧ (Tap.draw opener ⟨other, none⟩).held = _
  rw [Tap.draw]
  rcases result : opener.from? other with ⟨ended, opened'⟩
  rw [result] at ends beneath
  obtain rfl : ended = .ok (.cursor k) := ends
  exact ⟨(Store.bare_turned id noStream beneath.symm).symm, rfl⟩

/-- Opening may fail, and then gives no iterator. -/
theorem Leads.refused {store opened : Store} {halt : Halt}
    (blind : ∀ other : Store, other.beneath = store.beneath → opener.BlindAt id other)
    (opens : opener.from? store = (.error halt, opened)) :
    Leads opener multi keyAt ⟨store, none⟩ [.drew] ⟨opened, none⟩ := by
  intro other same
  obtain ⟨ends, beneath⟩ := (blind other same).congr (blind store rfl) same
  rw [opens] at ends beneath
  change (Tap.draw opener ⟨other, none⟩).store.beneath = _ ∧ (Tap.draw opener ⟨other, none⟩).held = _
  rw [Tap.draw]
  rcases result : opener.from? other with ⟨ended, opened'⟩
  rw [result] at ends beneath
  obtain rfl : ended = .error halt := ends
  exact ⟨beneath, rfl⟩

/-! ## Taps without stages -/

/-- Whether a store is another one, with the iterator where it is, and key functions that were asked more. -/
structure Apart (store other : Store) (asked : KeyId → List (List Value)) : Prop where
  outside : store.outside = other.outside
  many : store.keys.size = other.keys.size
  histories : ∀ id : KeyId, id.index < other.keys.size →
    (store.key id).history.toList = (other.key id).history.toList ++ asked id

/-- A key function that is there keeps what it was asked. -/
theorem history_asked (store : Store) (multi : Bool) (keyAt : Nat → Value) (height : Nat) (item : Item) {id : KeyId}
    (inside : id.index < store.keys.size) :
    ((store.asked multi (keyAt height) item).key id).history.toList =
      (store.key id).history.toList ++ ((Deed.judged height item).asks multi keyAt id).toList := by
  by_cases asks : ∃ other arguments, keyAt height = .object (.key other) ∧ item.arguments multi = .ok arguments
  · obtain ⟨other, arguments, form, given⟩ := asks
    simp only [Deed.asks, Item.asks, Store.asked, form, given]
    by_cases same : other = id
    · subst same
      simp [Store.key, Array.getD_eq_getD_getElem?, Array.getElem_modify, inside]
    · have apart : other.index ≠ id.index := fun index => same (by cases other; cases id; simp_all)
      simp [Store.key, Array.getD_eq_getD_getElem?, Array.getElem?_modify, apart, same]
  · have nothing : (Deed.judged height item).asks multi keyAt id = none ∧
        store.asked multi (keyAt height) item = store := by
      simp only [Deed.asks, Item.asks, Store.asked]
      generalize keyAt height = key at asks
      cases given : item.arguments multi with
      | error fault => simp
      | ok arguments =>
        cases key with
        | object ref =>
          cases ref with
          | key other => exact absurd ⟨other, arguments, rfl, given⟩ asks
          | _ => exact ⟨rfl, rfl⟩
        | _ => exact ⟨rfl, rfl⟩
    rw [nothing.1, nothing.2]
    exact (List.append_nil _).symm

/-- From a held iterator, deeds move it on once for each draw, and ask key functions besides. -/
theorem after_held {k : CursorId} (deeds : List Deed) {store other : Store} {asked : KeyId → List (List Value)}
    (apart : Apart store other asked) (noStream : (other.cursor k).isStream = false) :
    Apart (Tap.after opener multi keyAt ⟨store, some k⟩ deeds).store
      ((Store.turned k)^[deeds.countP Deed.isDraw] other)
      fun id => asked id ++ deeds.filterMap (Deed.asks multi keyAt id) := by
  induction deeds generalizing store other asked with
  | nil => exact ⟨apart.outside, apart.many, fun id inside => (apart.histories id inside).trans (by simp)⟩
  | cons deed rest ih =>
    cases deed with
    | drew =>
      have cursors : store.cursor k = other.cursor k := by
        rw [Store.cursor, Store.cursor, Store.cursors_of_outside apart.outside]
      have keys := Store.keys_turned (cursors ▸ noStream)
      have keys' := Store.keys_turned noStream
      have turned : Apart (store.turned k) (other.turned k) asked := by
        refine ⟨Store.bare_turned _ (cursors ▸ noStream) apart.outside, by rw [keys, keys', apart.many], ?_⟩
        intro id inside
        have history := apart.histories id (by rwa [keys'] at inside)
        rw [Store.key, Store.key, keys, keys']
        exact history
      have rest := ih turned (Run.noStream_advance 0 noStream)
      rw [List.countP_cons_of_pos (by rfl), Function.iterate_succ_apply]
      exact rest
    | judged height item =>
      have more : Apart (store.asked multi (keyAt height) item) other
          fun id => asked id ++ ((Deed.judged height item).asks multi keyAt id).toList := by
        refine ⟨(Store.outside_asked ..).trans apart.outside, ?_, fun id inside => ?_⟩
        · rw [← apart.many]
          unfold Store.asked
          split <;> simp
        · rw [history_asked _ _ _ _ _ (by rwa [apart.many]), apart.histories id inside, List.append_assoc]
      have all := ih more noStream
      rw [List.countP_cons_of_neg (by simp [Deed.isDraw])]
      refine ⟨all.outside, all.many, fun id inside => ?_⟩
      have history := all.histories id inside
      rw [List.append_assoc] at history
      have split : (Deed.judged height item :: rest).filterMap (Deed.asks multi keyAt id) =
          ((Deed.judged height item).asks multi keyAt id).toList ++ rest.filterMap (Deed.asks multi keyAt id) := by
        rw [List.filterMap_cons]
        cases (Deed.judged height item).asks multi keyAt id <;> rfl
      rw [split]
      exact history

/-- Deeds that begin with a draw take from data what as many draws with nothing in between do. -/
theorem after_consumed {store opened : Store} {d : Value} {k : CursorId}
    (opens : (store.groundBody d).opener.from? store = (.ok (.cursor k), opened))
    (noStream : (opened.cursor k).isStream = false) (deeds : List Deed)
    (first : ∀ deed, deeds.head? = some deed → deed.isDraw) :
    Apart (Tap.after (store.groundBody d).opener multi keyAt ⟨store, none⟩ deeds).store
      (store.consumed d (deeds.countP Deed.isDraw)) fun id => deeds.filterMap (Deed.asks multi keyAt id) := by
  cases deeds with
  | nil => exact ⟨rfl, rfl, fun id _ => (List.append_nil (store.key id).history.toList).symm⟩
  | cons deed rest =>
    have draws := first deed rfl
    cases deed with
    | judged height item => cases draws
    | drew =>
      have same : Apart (opened.turned k) (opened.turned k) fun _ => [] := ⟨rfl, rfl, fun _ _ => by simp⟩
      have all := @after_held (store.groundBody d).opener multi keyAt k rest _ _ _ same
        (Run.noStream_advance 0 noStream)
      have begun : Tap.does (store.groundBody d).opener multi keyAt ⟨store, none⟩ .drew = ⟨opened.turned k, some k⟩ := by
        rw [Tap.does, Tap.draw, opens]
      rw [List.countP_cons_of_pos (by rfl), Store.consumed, opens]
      simp only [Function.iterate_succ_apply, Tap.after, List.foldl_cons, begun]
      exact all

end Tap

end FirstSeen
