import FirstSeen.Proofs.Tower.Standing
import FirstSeen.Proofs.Tower.Tapping

/-!
# What is done beneath a chain

A chain that is asked for an element does beneath itself what its tower lists: it draws from its ground, and asks the
key function of each stage for the elements that the stage judges. All else that it does concerns its sequences and
the journal. This is told along the calls of the engine, one operation inside another, while the list is made by
one element after another; the lemmas on how elements surface bring the two together.
-/

set_option autoImplicit false

namespace FirstSeen

/-- A body without the keys that it has seen. -/
def Body.sketch : Body → Body
  | .distinct supply key limit _ => .distinct supply key limit .empty
  | body => body

namespace Run

/-- Whether a run changes nothing but sequences and the journal. -/
def Quiet {α : Type} (run : Run α) : Prop := ∀ store : Store, (run.from? store).2.beneath = store.beneath

variable {α β : Type}

theorem Quiet.bind {run : Run α} {next : α → Run β} (quiet : run.Quiet) (rest : ∀ a, (next a).Quiet) :
    (run >>= next).Quiet := by
  intro store
  have first := quiet store
  rw [from?_bind]
  rcases ends : run.from? store with ⟨halt | a, left⟩ <;> rw [ends] at first
  · exact first
  · exact (rest a left).trans first

theorem quiet_view (f : Store → α) : (view f).Quiet := fun _ => rfl

theorem quiet_updateSequence (id : SequenceId) (f : SequenceState → SequenceState) : (updateSequence id f).Quiet :=
  fun _ => rfl

theorem quiet_tell (notice : Notice) : (tell notice).Quiet := fun _ => rfl

/-- Signalling the end of a sequence is its own affair. -/
theorem quiet_signalEnd (id : SequenceId) : (signalEnd id).Quiet := by
  refine (quiet_updateSequence id _).bind fun _ => (quiet_view _).bind fun _ => (quiet_tell _).bind fun _ => ?_
  refine (quiet_view _).bind fun state => ?_
  split
  · exact quiet_updateSequence id _
  · exact quiet_updateSequence id _
  · exact fun _ => rfl

end Run

namespace Store

/-- Whether the chain of some sequences has these keys at each height, and below them a sequence with this body
that holds this iterator. -/
def Linked (ground : Body) (keyAt : Nat → Value) (held : Option CursorId) (store : Store) :
    List SequenceId → Prop
  | [] => False
  | [id] => (store.sequence id).body = ground.withFeed (held.map .cursor)
  | id :: below :: ids => (∀ supply key limit seen, (store.sequence id).body = .distinct supply key limit seen →
      keyAt (below :: ids).length = key) ∧ Linked ground keyAt held store (below :: ids)

variable {D : Item → Prop} {aside : Option CursorId} {multi : Bool} {ground : Body} {keyAt : Nat → Value}

/-! ## Links -/

/-- Links do not depend on flags and seen keys. -/
theorem Linked.congr {before after : Store} {held : Option CursorId} {ids : List SequenceId}
    (base : ground.isGround) (linked : before.Linked ground keyAt held ids)
    (same : ∀ id ∈ ids, (after.sequence id).body.sketch = (before.sequence id).body.sketch) :
    after.Linked ground keyAt held ids := by
  match ids with
  | [] => exact linked.elim
  | [id] =>
    have here := same id List.mem_cons_self
    rw [show (before.sequence id).body = _ from linked] at here
    change (after.sequence id).body = _
    generalize (after.sequence id).body = body at here
    cases ground with
    | iterable | produced =>
      cases body <;> cases here
      rfl
    | _ => cases base
  | id :: below :: ids =>
    refine ⟨fun supply key limit seen form => ?_, linked.2.congr base fun other member =>
      same other (List.mem_cons_of_mem _ member)⟩
    have here := same id List.mem_cons_self
    rw [form] at here
    cases old : (before.sequence id).body with
    | distinct supply' key' limit' seen' =>
      rw [old] at here
      cases here
      exact linked.1 _ _ _ _ old
    | _ => rw [old] at here; cases here

theorem Linked.spared {before after : Store} {held : Option CursorId} {ids : List SequenceId}
    (base : ground.isGround) (linked : before.Linked ground keyAt held ids)
    (same : ∀ id ∈ ids, after.sequence id = before.sequence id) : after.Linked ground keyAt held ids :=
  linked.congr base fun id member => by rw [same id member]

theorem Linked.updated {store : Store} {held : Option CursorId} {ids : List SequenceId} {id : SequenceId}
    {f : SequenceState → SequenceState} (base : ground.isGround) (linked : store.Linked ground keyAt held ids)
    (same : ∀ state, (f state).body = state.body) : (store.updated id f).Linked ground keyAt held ids := by
  refine linked.congr base fun other _ => ?_
  by_cases here : other = id
  · subst here
    simp only [Store.updated, Store.sequence, Array.getD_eq_getD_getElem?, Array.getElem?_modify, if_true]
    cases store.sequences[other.index]? with
    | none => rfl
    | some state => exact congrArg Body.sketch (same state)
  · rw [sequence_updated_ne here]

/-- A chain is as long as its tower is high. -/
theorem Stands.length {store : Store} {id : SequenceId} {ids : List SequenceId} {tower : Tower}
    (stands : store.Stands D aside multi id ids tower) : ids.length = tower.height := by
  induction stands with
  | ground => rfl
  | passage passes body bound apart rest ih | filter passes flag body sound data rule_eq apart rest ih =>
    rw [List.length_cons, ih, Tower.height]

/-- Below its topmost sequence a chain is linked as it is. -/
theorem Linked.below {store : Store} {held : Option CursorId} {id below : SequenceId} {ids : List SequenceId}
    {tower : Tower} (linked : store.Linked ground keyAt held (id :: ids))
    (stands : store.Stands D aside multi below ids tower) : store.Linked ground keyAt held ids ∧
      ∀ supply key limit seen, (store.sequence id).body = .distinct supply key limit seen →
        keyAt tower.height = key := by
  have long := stands.length
  match ids with
  | [] =>
    cases tower <;> simp [Tower.height] at long
  | other :: ids => exact ⟨linked.2, fun supply key limit seen form => long ▸ linked.1 supply key limit seen form⟩

/-- A chain that is linked is so below another sequence, if that has the key that it should have. -/
theorem Linked.above {store : Store} {held : Option CursorId} {id below : SequenceId} {ids : List SequenceId}
    {tower : Tower} (linked : store.Linked ground keyAt held ids)
    (stands : store.Stands D aside multi below ids tower)
    (key : ∀ supply key limit seen, (store.sequence id).body = .distinct supply key limit seen →
      keyAt tower.height = key) : store.Linked ground keyAt held (id :: ids) := by
  have long := stands.length
  match ids with
  | [] => exact linked.elim
  | other :: ids => exact ⟨fun supply key' limit seen form => long ▸ key supply key' limit seen form, linked⟩

/-! ## Asking keys -/

/-- What a key function is asked for an element is kept. -/
theorem callKeyOn_asked {store : Store} {id : KeyId} {v : Value} {item : Item} (c : Calls)
    (shows' : store.Shows D item v) :
    ((c.callKeyOn (.object (.key id)) multi v).from? store).2 = store.asked multi (.object (.key id)) item := by
  have called : ∀ arguments : List Value, ((Run.call (.object (.key id)) arguments).from? store).2 =
      { store with keys := store.keys.modify id.index fun key =>
        { key with history := key.history.push (arguments.map store.contents) } } := by
    intro arguments
    change ((Run.callKey id arguments).from? store).2 = _
    rw [Run.callKey, Run.from?_bind_ok (Run.from?_view ..)]
    simp only [Run.answerOf]
    cases (store.key id).respond store.typeName (store.key id).history (arguments.map store.contents) <;> rfl
  cases multi with
  | false =>
    refine (called [v]).trans ?_
    simp only [List.map_cons, List.map_nil, shows'.contents]
    rfl
  | true =>
    have asked := from?_itemsOf? c shows'
    have items := (contents_parts shows'.data).1
    rw [shows'.contents] at items
    change ((c.itemsOf? v >>= _).from? store).2 = _
    cases room : item.roomFault? with
    | some fault =>
      rw [room] at asked
      rw [Run.from?_bind_error asked]
      simp only [Store.asked, Item.arguments, room]
      rfl
    | none =>
      rw [room] at asked
      rw [Run.from?_bind_ok asked]
      cases spread : store.itemsHeld v with
      | none =>
        rw [spread] at items
        simp only [Store.asked, Item.arguments, room, items]
        rfl
      | some all =>
        rw [spread] at items
        have given : item.arguments true = .ok (all.map store.contents) := by
          simp only [Item.arguments, room, items]
          rfl
        refine (called all).trans ?_
        simp only [Store.asked, given]

variable (multi) in
theorem keyFor_asked {store : Store} {key v : Value} {item : Item} (c : Calls)
    (form : key = .null ∨ ∃ id, key = .object (.key id)) (shows' : store.Shows D item v) :
    ((c.keyFor key multi v).from? store).2 = store.asked multi key item := by
  rcases form with rfl | ⟨id, rfl⟩
  · rfl
  · have asked := @callKeyOn_asked D multi store id v item c shows'
    rw [Calls.keyFor, if_neg (by simp [Value.isNull]), Run.from?_onFault]
    rcases ends : (c.callKeyOn (.object (.key id)) multi v).from? store with ⟨(fault | _) | k, after⟩ <;>
      rw [ends] at asked <;> exact asked

/-! ## Tracing calls -/

/-- What grew still did if sequences and the journal are changed. -/
theorem Grows.of_beneath {first store other : Store} (grows : first.Grows store)
    (same : other.beneath = store.beneath) : first.Grows other := by
  have grows' : first.Grows other.beneath := by
    rw [same]
    exact ⟨grows.data, grows.lists, grows.sources, grows.steps, grows.keys, grows.raising, grows.meters⟩
  exact ⟨grows'.data, grows'.lists, grows'.sources, grows'.steps, grows'.keys, grows'.raising, grows'.meters⟩

/-- Whether deeds tell what was done beneath a chain that was asked for an element, and the chain is still linked
unless it met an end. -/
def Traced (ground : Body) (multi : Bool) (keyAt : Nat → Value) (ids : List SequenceId) (held : Option CursorId)
    (store : Store) (deeds : List Deed) (told : Draw) (after : Store) : Prop :=
  ∃ held', Tap.Leads ground.opener multi keyAt ⟨store, held⟩ deeds ⟨after, held'⟩ ∧
    ((∀ fault, told = .error fault → fault.isEnd = false) → after.Linked ground keyAt held' ids)

/-- Whether a body is over data, whose opening has to do with neither sequences nor the journal. -/
structure Grounds (first : Store) (ground : Body) : Prop where
  base : ground.isGround
  blind : ∀ later, first.Grows later → ground.opener.BlindAt id later

/-- The iterator that an origin holds is no stream. -/
theorem noStream_of_holds {store : Store} {k : CursorId} {start : Start} {kept : Tape}
    (holds : store.HoldsFeed D aside (some (.cursor k)) (some start))
    (plays : ∀ id, aside = some id → store.Plays D id kept) : (store.cursor k).isStream = false := by
  cases start with
  | own tape => exact holds.2.2.noStream
  | kept => exact (plays k holds).2.noStream

/-- A pull from a sequence over data is one draw beneath it. -/
theorem pull_traced_ground {first store : Store} {id : SequenceId} {pass : Pass} {origin left : Origin}
    {held : Option CursorId} {n : Nat} {told : Draw} (grounds : first.Grounds ground) (grows : first.Grows store)
    (passes : store.Passes D id pass) (backs : store.Backs D aside (store.sequence id).body origin)
    (linked : store.Linked ground keyAt held [id]) (drawn : origin.draw n = some (told, left)) :
    store.Traced ground multi keyAt [id] held [.drew] told (((calls (n + 1)).pull id).from? store).2 := by
  have form : (store.sequence id).body = ground.withFeed (held.map .cursor) := linked
  have parts := withFeed_ground grounds.base
  have pulled := from?_pullWith_ground (calls n) rfl backs.ground
  change ((calls (n + 1)).pull id).from? store = _ at pulled
  have holds := backs.held
  rw [form, (parts _).2.1] at holds
  rw [pulled, form, (parts _).2.1, (parts _).1]
  rw [form] at backs
  cases held with
  | some k =>
    obtain ⟨_, start, -, held⟩ := holds.some
    rw [held] at holds
    obtain ⟨n, rfl⟩ : ∃ m, n = m + 1 := by
      cases n with
      | zero => simp [Origin.draw, held] at drawn
      | succ m => exact ⟨m, rfl⟩
    have noStream := noStream_of_holds holds backs.kept
    obtain ⟨ended, after, ends, -, -, still⟩ := advance_backs n backs holds
    have turned : after = store.turned k := by
      rw [Run.advance_depth n noStream] at ends
      rw [turned, ends]
    change store.Traced ground multi keyAt [id] (some k) [.drew] told
      (((calls (n + 1)).advance k).from? store).2
    rw [ends]
    refine ⟨some k, turned ▸ Tap.Leads.drew noStream, fun _ => ?_⟩
    exact linked.spared grounds.base fun other _ => by simp only [Store.sequence, still.sequences]
  | none =>
    have held : origin.held = none := by
      cases held : origin.held with
      | none => rfl
      | some start => rw [held] at holds; exact holds.elim
    have blind : ∀ other : Store, other.beneath = store.beneath → ground.opener.BlindAt (fun keys => keys) other :=
      fun other same => grounds.blind other (grows.of_beneath same)
    obtain ⟨opened, opens, called⟩ := backs.opens store 0 (.refl store) fun _ _ => rfl
    rw [Origin.draw, held] at drawn
    cases start : origin.openings 0 with
    | error fault =>
      rw [start] at opens
      obtain ⟨extend, opens⟩ := opens
      rw [(parts _).1] at opens
      simp only [Option.map_none, Run.from?_bind_error opens]
      refine ⟨none, .refused blind opens, fun _ => linked.spared grounds.base fun other _ => ?_⟩
      simp only [Store.sequence, extend.sequences]
    | ok start' =>
      rw [start] at opens drawn
      rw [← form] at backs opens called
      obtain ⟨n, rfl⟩ : ∃ m, n = m + 1 := by
        cases n with
        | zero => simp at drawn
        | succ m => exact ⟨m, rfl⟩
      have extend := opens.1
      obtain ⟨k, opens, holds', backs'⟩ := opens_backs backs opens called
      rw [form, (parts _).1] at opens
      have noStream := noStream_of_holds holds' backs'.kept
      let put : Store := opened.updated id fun state => { state with body := ground.withFeed (some (.cursor k)) }
      have there : put.Backs D aside (store.sequence id).body _ :=
        backs'.later (grows_updated ..) (fun _ _ => rfl) (Nat.le_refl _)
        fun _ _ _ => rfl
      obtain ⟨ended, after, ends, -, -, still⟩ := advance_backs n there (holds'.later fun _ _ _ plays =>
        (grows_updated ..).plays (Nat.le_refl _) rfl plays)
      have turned : after = put.turned k := by
        rw [Run.advance_depth n (show (put.cursor k).isStream = false from noStream)] at ends
        rw [turned, ends]
      simp only [Option.map_none]
      rw [Run.from?_bind_ok opens, Run.from?_bind_ok (Run.from?_setBody ..), (parts _).2.2]
      change store.Traced ground multi keyAt [id] none [.drew] told
        (((calls (n + 1)).advance k).from? put).2
      rw [ends]
      have same : after.beneath = (opened.turned k).beneath := by
        rw [turned]
        exact bare_turned _ noStream rfl
      refine ⟨some k, Tap.Leads.then (Tap.Leads.opened blind opens noStream) same, fun _ => ?_⟩
      change (after.sequence id).body = _
      rw [show after.sequence id = put.sequence id by simp only [Store.sequence, still.sequences],
        sequence_updated (by rw [extend.sequences]; exact passes.inside)]
      rfl

variable (multi) in
/-- Judging an element asks the key function of the stage, and leaves the chain linked as it was. -/
theorem judge_traced {store : Store} {id below : SequenceId} {chain : List SequenceId} {key limit v : Value}
    {seen : Seen} {item : Item} {held : Option CursorId} (c : Calls) (base : ground.isGround)
    (body : (store.sequence id).body = .distinct below key limit seen)
    (form : key = .null ∨ ∃ id, key = .object (.key id))
    (shows' : store.Shows D item v) (linked : store.Linked ground keyAt held chain) :
    let judged := ((do Run.remember id (← c.keyFor key multi v)).from? store).2
    judged.beneath = (store.asked multi key item).beneath ∧ judged.Linked ground keyAt held chain := by
  have asked := keyFor_asked multi c form shows'
  have same : (store.asked multi key item).sequences = store.sequences := by
    unfold Store.asked
    split <;> rfl
  have linked' : (store.asked multi key item).Linked ground keyAt held chain :=
    linked.spared base fun other _ => by simp only [Store.sequence, same]
  rcases ends : (c.keyFor key multi v).from? store with ⟨halt | w, left⟩ <;> rw [ends] at asked <;>
    obtain rfl : left = store.asked multi key item := asked
  · rw [Run.from?_bind_error ends]
    exact ⟨rfl, linked'⟩
  · have body' : ((store.asked multi key item).sequence id).body = .distinct below key limit seen := by
      rw [← body, Store.sequence, same, ← Store.sequence]
    obtain ⟨journal, remembered⟩ := from?_remember w body'
    rw [Run.from?_bind_ok ends, remembered]
    refine ⟨rfl, linked'.congr base fun other _ => ?_⟩
    change (((store.asked multi key item).updated id fun state => { state with body := .distinct .. }).sequence
      other).body.sketch = _
    by_cases here : other = id
    · subst here
      by_cases inside : other.index < (store.asked multi key item).sequences.size
      · rw [sequence_updated inside, body']
        rfl
      · rw [Store.updated, Store.sequence, Array.getD_eq_getD_getElem?, Array.getElem?_modify,
          Store.sequence, Array.getD_eq_getD_getElem?]
        simp [Array.getElem?_eq_none (Nat.le_of_not_lt inside)]
    · rw [sequence_updated_ne here]

/-- What a pull leaves is settled beneath nothing. -/
theorem Traced.settled {store : Store} {id : SequenceId} {ids : List SequenceId} {held : Option CursorId}
    {deeds : List Deed} {told : Draw} {run : Run Value} (ended : (run.from? store).2.Delivers D (run.from? store).1 told)
    (traced : store.Traced ground multi keyAt ids held deeds told (run.from? store).2) :
    store.Traced ground multi keyAt ids held deeds told ((Run.onFault run fun fault => do
      if fault.isEnd then Run.signalEnd id
      Run.fail fault).from? store).2 := by
  obtain ⟨held', leads, linked⟩ := traced
  rw [Run.from?_onFault]
  rcases ends : run.from? store with ⟨(fault | _) | v, left⟩ <;> rw [ends] at ended leads linked
  · cases told with
    | ok item => exact ended.elim
    | error fault' =>
      obtain rfl : fault = fault' := Halt.fault.inj ended
      by_cases signals : fault.isEnd
      · simp only [signals, if_true]
        refine ⟨held', leads.then ?_, fun noEnd => ?_⟩
        · have quiet := ((Run.quiet_signalEnd id).bind fun _ => fun _ => rfl : Run.Quiet (do
            Run.signalEnd id
            Run.fail fault : Run Value)) left
          exact quiet
        · rw [noEnd fault rfl] at signals
          cases signals
      · simp only [signals]
        exact ⟨held', leads, linked⟩
  · cases told with
    | ok item => exact ended.elim
    | error fault => cases (show Halt.outOfFuel = .fault fault from ended)
  · exact ⟨held', leads, linked⟩

/-- A change of sequences or the journal before a call is not traced. -/
theorem Traced.earlier {store other after : Store} {ids : List SequenceId} {held : Option CursorId}
    {deeds : List Deed} {told : Draw} (traced : other.Traced ground multi keyAt ids held deeds told after)
    (same : other.beneath = store.beneath) : store.Traced ground multi keyAt ids held deeds told after := by
  obtain ⟨held', leads, linked⟩ := traced
  exact ⟨held', fun last before => leads last (before.trans same.symm), linked⟩

/-- What was traced below a sequence is traced above it, which has the key that it had. -/
theorem Traced.above {store after : Store} {id below : SequenceId} {ids : List SequenceId} {tower : Tower}
    {held : Option CursorId} {deeds : List Deed} {told : Draw}
    (traced : store.Traced ground multi keyAt ids held deeds told after)
    (stands : after.Stands D aside multi below ids tower)
    (key : ∀ supply key limit seen, (after.sequence id).body = .distinct supply key limit seen →
      keyAt tower.height = key) : store.Traced ground multi keyAt (id :: ids) held deeds told after := by
  obtain ⟨held', leads, linked⟩ := traced
  exact ⟨held', leads, fun noEnd => (linked noEnd).above stands key⟩

/-- What is pulled from a stage: an element of its supply if its key is fresh. -/
theorem from?_pull_distinct {store : Store} {id below : SequenceId} {key limit : Value} {seen : Seen} (n : Nat)
    (body : (store.sequence id).body = .distinct below key limit seen) :
    ((calls (n + 1)).pull id).from? store =
      ((calls n).next below >>= fun element =>
        ((do Run.remember id (← (calls n).keyFor key (store.sequence id).multiValue element)) >>= fun fresh =>
          if fresh then pure element else (calls n).pull id)).from? store := by
  change ((calls n).pullWith id).from? store = _
  rw [Calls.pullWith, Run.from?_bind_ok (Run.from?_sequence ..), body]
  simp only [Calls.pullDistinct, bind_assoc]

/-- Whether all chains that can be asked, at some depth of calls, are traced. -/
def TracesNext (D : Item → Prop) (aside : Option CursorId) (multi : Bool) (ground : Body) (keyAt : Nat → Value)
    (first : Store) (n : Nat) : Prop :=
  ∀ (store : Store) (id : SequenceId) (ids : List SequenceId) (tower left : Tower) (held : Option CursorId)
    (told : Draw), first.Grows store → store.Stands D aside multi id ids tower → tower.Calm →
    store.Linked ground keyAt held ids → tower.next n = some (told, left) →
    ∃ deeds, Tower.Surfaces tower deeds told left ∧
      store.Traced ground multi keyAt ids held deeds told (((calls n).next id).from? store).2

/-- Whether all chains that can be pulled from, at some depth of calls, are traced. -/
def TracesPull (D : Item → Prop) (aside : Option CursorId) (multi : Bool) (ground : Body) (keyAt : Nat → Value)
    (first : Store) (n : Nat) : Prop :=
  ∀ (store : Store) (id : SequenceId) (ids : List SequenceId) (tower left : Tower) (held : Option CursorId)
    (told : Draw), first.Grows store → store.Stands D aside multi id ids tower → tower.Calm →
    tower.pass.started = true → store.Linked ground keyAt held ids → tower.pull n = some (told, left) →
    ∃ deeds, Tower.Surfaces tower deeds told (Tower.settle (told, left)).2 ∧
      store.Traced ground multi keyAt ids held deeds told (((calls n).pull id).from? store).2

/-- Asking a chain is traced if pulling from it is. -/
theorem tracesNext_succ {first : Store} {n : Nat} (grounds : first.Grounds ground)
    (pulls : TracesPull D aside multi ground keyAt first n) :
    TracesNext D aside multi ground keyAt first (n + 1) := by
  intro store id ids tower left held told grows stands calm linked asks
  obtain ⟨inside, started, exhausted, peeks⟩ := stands.passes
  rw [calm.pass.1] at peeks
  rw [calm.pass.2] at exhausted
  have peeked : (store.sequence id).peeked = none := by
    cases found : (store.sequence id).peeked with
    | none => rfl
    | some v => rw [found] at peeks; exact peeks.elim
  rw [Tower.next, calm.pass.1, calm.pass.2] at asks
  obtain ⟨⟨told', left'⟩, pulled, settled⟩ := Option.map_eq_some_iff.mp asks
  have same : (Tower.settle (told', left')).1 = told' := by cases told' <;> rfl
  obtain rfl : told' = told := same.symm.trans (congrArg Prod.fst settled)
  have there := sequence_updated (f := fun state : SequenceState => { state with started := true }) inside
  have begun := stands.repass (f := fun state => { state with started := true })
    { tower.pass with started := true } (fun _ => rfl) (fun _ => rfl)
    ⟨by simpa using inside, by rw [there], by rw [there, exhausted, calm.pass.2],
      by rw [there, peeked, calm.pass.1]; trivial⟩
  have calm' : tower.begun.Calm := by cases tower <;> exact calm
  obtain ⟨deeds, surfaces, traced⟩ := pulls _ _ _ _ _ _ _ (grows.trans (grows_updated ..)) begun calm'
    (by rw [Tower.pass_withPass]) (linked.updated grounds.base fun _ => rfl) pulled
  have delivers := (next_pull_stands n).2 _ _ _ _ begun
  rw [show (tower.withPass { tower.pass with started := true }).pull n = some (told', left') from pulled] at delivers
  refine ⟨deeds, ?_, ?_⟩
  · rw [settled] at surfaces
    exact Tower.surfaces_begun.mp surfaces
  · change store.Traced ground multi keyAt ids held deeds told' (((calls n).nextWith id).from? store).2
    rw [Calls.nextWith, Run.from?_bind_ok (Run.from?_sequence ..), peeked, exhausted]
    exact Traced.earlier (traced.settled delivers.1) rfl

/-- Pulling from a distinct stage is traced if asking its supply is, and pulling from the stage again. -/
theorem pull_traced_filter {first : Store} {n : Nat} (grounds : first.Grounds ground)
    (nexts : TracesNext D aside multi ground keyAt first n) (pulls : TracesPull D aside multi ground keyAt first n)
    {store : Store} {id below : SequenceId} {ids : List SequenceId} {pass : Pass} {tower left : Tower} {rule : Rule}
    {key limit : Value} {seen : Seen} {held : Option CursorId} {told : Draw} (grows : first.Grows store)
    (passes : store.Passes D id pass) (flag : (store.sequence id).multiValue = multi)
    (body : (store.sequence id).body = .distinct below key limit seen) (sound : store.SoundKey D multi key)
    (data : store.IsData limit) (rule_eq : rule = store.ruleOf multi key limit) (apart : id ∉ ids)
    (rest : store.Stands D aside multi below ids tower) (calm : (Tower.filter pass rule seen tower).Calm)
    (started : pass.started = true) (linked : store.Linked ground keyAt held (id :: ids))
    (ends : (Tower.filter pass rule seen tower).pull (n + 1) = some (told, left)) :
    ∃ deeds, Tower.Surfaces (.filter pass rule seen tower) deeds told (Tower.settle (told, left)).2 ∧
      store.Traced ground multi keyAt (id :: ids) held deeds told (((calls (n + 1)).pull id).from? store).2 := by
  obtain ⟨linked', keyHere⟩ := linked.below rest
  have unfolded := from?_pull_distinct n body
  rw [flag] at unfolded
  have asked := next_stands n rest
  rw [unfolded, Run.from?_bind]
  rw [Tower.pull] at ends
  rcases drawn : tower.next n with _ | ⟨told', below'⟩
  · simp [drawn] at ends
  obtain ⟨deeds, surfaces, traced⟩ := nexts store below ids tower below' held told' grows rest calm.2 linked' drawn
  rcases answered : ((calls n).next below).from? store with ⟨ended, after⟩
  rw [drawn, answered] at asked
  rw [answered] at traced
  obtain ⟨delivers, stands, works⟩ := asked
  obtain ⟨same, passes'⟩ := works.passes apart passes
  have high : below'.height = tower.height := Tower.height_next drawn
  have keyHere' : ∀ supply key limit seen, (after.sequence id).body = .distinct supply key limit seen →
      keyAt below'.height = key := fun supply key limit seen form =>
    high ▸ keyHere supply key limit seen (same ▸ form)
  cases told' with
  | error fault =>
    simp only [drawn, Option.some.injEq, Prod.mk.injEq] at ends
    obtain ⟨rfl, rfl⟩ := ends
    rcases ended with halt | v
    · exact ⟨deeds, Tower.surfaces_filter_failed surfaces started, traced.above stands keyHere'⟩
    · exact delivers.elim
  | ok item =>
    rcases ended with halt | v
    · exact delivers.elim
    obtain ⟨held', leads, links⟩ := traced
    specialize links (by rintro _ ⟨⟩)
    -- The element is judged, which asks the key function of the stage.
    have sound' := works.grows.soundKey sound
    have data' := works.grows.isData data
    have rule_eq' := rule_eq.trans (works.grows.ruleOf data).symm
    have key : keyAt tower.height = key := keyHere below key limit seen body
    have judged := @Tower.surfaces_filter_judged _ rule seen _ _ _ _ surfaces started
    obtain ⟨last, remembers, stands', worked, grows'⟩ := judge_stands (calls n) passes' (same ▸ flag)
      (same ▸ body) sound' data' rule_eq' apart stands delivers
    have trace := judge_traced multi (calls n) grounds.base (same ▸ body) sound'.form delivers (links.above stands keyHere')
    rw [remembers] at trace
    obtain ⟨beneath, links'⟩ := trace
    have leads' : Tap.Leads ground.opener multi keyAt ⟨store, held⟩ (deeds ++ [.judged tower.height item])
        ⟨last, held'⟩ := by
      refine leads.trans (Tap.Leads.then (Tap.Leads.judged after held' tower.height item) ?_)
      rw [key]
      exact beneath
    simp only [Run.from?_bind, remembers]
    clear remembers
    simp only [drawn] at ends
    rcases verdict : rule.judge seen item with ⟨fault | _ | _, seen'⟩ <;>
      rw [verdict] at judged ends stands' <;> simp only at judged ends
    · obtain ⟨rfl, rfl⟩ := Prod.mk.inj (Option.some.inj ends)
      exact ⟨_, judged, held', leads', fun _ => links'⟩
    · have calm' : (Tower.filter pass rule seen' below').Calm := ⟨calm.1, surfaces.calm calm.2⟩
      obtain ⟨more, surfaces', last', leads'', links''⟩ := pulls last id (id :: ids) _ _ held' told
        (grows.trans (works.grows.trans grows')) stands' calm' started links' ends
      refine ⟨_, judged more told _ surfaces', last', ?_, links''⟩
      rw [List.append_cons]
      exact leads'.trans leads''
    · obtain ⟨rfl, rfl⟩ := Prod.mk.inj (Option.some.inj ends)
      exact ⟨_, judged, held', leads', fun _ => links'⟩

/-- At every depth of calls, what is done beneath a calm chain that is asked for an element is what its tower
lists. -/
theorem next_pull_traced {first : Store} (grounds : first.Grounds ground) (n : Nat) :
    TracesNext D aside multi ground keyAt first n ∧ TracesPull D aside multi ground keyAt first n := by
  induction n with
  | zero =>
    refine ⟨fun _ _ _ _ _ _ _ _ _ _ _ ends => ?_, fun _ _ _ _ _ _ _ _ _ _ _ _ ends => ?_⟩
    · simp [Tower.next] at ends
    · simp [Tower.pull] at ends
  | succ n ih =>
    obtain ⟨ihNext, ihPull⟩ := ih
    refine ⟨tracesNext_succ grounds ihPull, ?_⟩
    intro store id ids tower left held told grows stands calm started linked ends
    cases stands with
    | ground passes flag backs =>
      obtain ⟨⟨told', left'⟩, drawn, here⟩ := Option.map_eq_some_iff.mp ends
      obtain ⟨rfl, rfl⟩ := Prod.mk.inj here
      exact ⟨[.drew], Tower.surfaces_ground drawn started, pull_traced_ground grounds grows passes backs linked drawn⟩
    | @passage _ below ids pass tower steps input passes body bound apart rest =>
      have unfolded : ((calls (n + 1)).pull id).from? store = ((calls n).next below).from? store := by
        change ((calls n).pullWith id).from? store = _
        rw [Calls.pullWith, Run.from?_bind_ok (Run.from?_sequence ..), body]
        rfl
      obtain ⟨⟨told', left'⟩, drawn, here⟩ := Option.map_eq_some_iff.mp ends
      obtain ⟨rfl, rfl⟩ := Prod.mk.inj here
      obtain ⟨deeds, surfaces, traced⟩ := ihNext store below ids tower left' held told' grows rest calm.2
        (linked.below rest).1 drawn
      have asked := next_stands n rest
      rw [drawn] at asked
      obtain ⟨-, stands', works⟩ := asked
      rw [unfolded]
      refine ⟨deeds, Tower.surfaces_passage surfaces started, traced.above stands' ?_⟩
      intro supply key limit seen form
      rw [(works.passes apart passes).1, body] at form
      cases form
    | filter passes flag body sound data rule_eq apart rest =>
      exact pull_traced_filter grounds ihNext ihPull grows passes flag body sound data rule_eq apart rest calm started
        linked ends

end Store

end FirstSeen
