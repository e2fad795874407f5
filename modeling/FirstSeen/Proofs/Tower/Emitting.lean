import FirstSeen.Proofs.Tower.Sieving
import FirstSeen.Proofs.Tower.Tracing

/-!
# Sources that go on

An origin *emits* events if it hands them out in turn, whether elements or faults, and then signals the end, which none
of the faults does. A sequence over it that is asked again and again tells them all, since faults of that sort leave
it where it is.

Neither opening data nor drawing from them asks a key function, except one that makes the data. What a key function
was asked therefore stays as it is while the sequence below a stage is asked.
-/

set_option autoImplicit false

namespace FirstSeen

namespace Origin

/-- Whether drawing from an origin gives these events in turn, none of which signals the end, and then the end. -/
def Emits (origin : Origin) : List Draw → Prop
  | [] => origin.taken.1 = .error .ended
  | event :: rest =>
    (origin.taken.1 = event ∧ ∀ fault, event = .error fault → fault.isEnd = false) ∧ Emits origin.taken.2 rest

theorem Emits.noEnd {origin : Origin} {events : List Draw} (emits : origin.Emits events) {fault : Fault}
    (member : .error fault ∈ events) : fault.isEnd = false := by
  induction events generalizing origin with
  | nil => cases member
  | cons event rest ih =>
    obtain ⟨⟨-, noEnd⟩, emits⟩ := emits
    rcases List.mem_cons.mp member with same | member
    · exact noEnd fault same.symm
    · exact ih emits member

/-- An iterator that goes on through faults emits its script. -/
theorem emits_of_walker {origin : Origin} {tape : Tape} {closing : Option Fault} {events : List Draw}
    (current : origin.current = some tape) (walks : tape.manner = .walker closing)
    (script : ∀ i, tape.script (tape.position + i) = events[i]?)
    (noEnd : ∀ fault, .error fault ∈ events → fault.isEnd = false) : origin.Emits events := by
  induction events generalizing origin tape with
  | nil =>
    have here : tape.script tape.position = none := script 0
    simp [Emits, (Tower.taken_current current).1, Tape.step, walks, Manner.spent, here]
  | cons event rest ih =>
    obtain ⟨told, moved⟩ := Tower.taken_current current
    have here : tape.script tape.position = some event := script 0
    have later (i : Nat) : tape.script (tape.position + 1 + i) = rest[i]? := by
      rw [Nat.add_assoc, Nat.add_comm 1 i]
      exact script (i + 1)
    have noEnd' : ∀ fault, .error fault ∈ rest → fault.isEnd = false := fun fault member =>
      noEnd fault (List.mem_cons_of_mem _ member)
    cases event with
    | ok item =>
      simp only [Tape.step, walks, Manner.spent, here] at told moved
      exact ⟨⟨told, fun _ same => by cases same⟩, ih moved rfl later noEnd'⟩
    | error fault =>
      simp only [Tape.step, walks, Manner.spent, here] at told moved
      refine ⟨⟨told, fun _ same => ?_⟩, ih moved rfl later noEnd'⟩
      cases same
      exact noEnd fault List.mem_cons_self

end Origin

/-- All that is done to lift what surfaces of a ground is one draw. -/
theorem Tower.Surfaces.deeds_ground {pass : Pass} {origin : Origin} {deeds : List Deed} {told : Draw} {left : Tower}
    (surfaces : Surfaces (.ground pass origin) deeds told left) : deeds = [.drew] := by
  cases surfaces with
  | failed lifts | fresh lifts | dropped lifts =>
    rw [lift] at lifts
    split at lifts <;> simp_all

/-! ## Key functions that are left alone -/

namespace Run

variable {α β : Type} {id : KeyId}

/-- Whether a run leaves a key function and what it was asked alone. -/
def SparesKey (id : KeyId) (run : Run α) : Prop :=
  ∀ store : Store, (run.from? store).2.keys[id.index]? = store.keys[id.index]?

theorem SparesKey.bind {run : Run α} {next : α → Run β} (spares : run.SparesKey id)
    (rest : ∀ a, (next a).SparesKey id) : (run >>= next).SparesKey id := by
  intro store
  have first := spares store
  rw [from?_bind]
  rcases ends : run.from? store with ⟨halt | a, left⟩ <;> rw [ends] at first
  · exact first
  · exact (rest a left).trans first

theorem Blind.sparesKey {run : Run α} (blind : run.Blind) : run.SparesKey id := fun store =>
  congrArg (fun keys : Array KeyFunction => keys[id.index]?) ((blind _ store).keys (blind _ store))

/-- A key function that is called is the only one that keeps this. -/
theorem sparesKey_callKey {other : KeyId} (apart : other ≠ id) (arguments : List Value) :
    (callKey other arguments).SparesKey id := by
  intro store
  have elsewhere : other.index ≠ id.index := fun same => apart (by cases other; cases id; cases same; rfl)
  rw [callKey, from?_bind_ok (from?_view ..)]
  have kept (given : List Value) : (store.keys.modify other.index fun key =>
      { key with history := key.history.push given })[id.index]? = store.keys[id.index]? := by
    rw [Array.getElem?_modify, if_neg elsewhere]
  obtain ⟨given, answer⟩ := answerOf store other arguments
  cases answer <;> exact kept given

end Run

namespace Store

/-- Opening raw data leaves all key functions alone but one that makes the data. -/
theorem Raw.sparesKey_opener {first : Store} {d : Value} (raw : first.Raw d) {id : KeyId}
    (apart : d ≠ .object (.key id)) : (first.groundBody d).opener.SparesKey id := by
  cases iterable : first.isIterable d with
  | true =>
    rw [groundBody_iterable iterable]
    exact (Run.blind_openFeed d).sparesKey
  | false =>
    rw [groundBody_produced iterable]
    have produces := raw.produces iterable
    have called : (Run.call d []).SparesKey id := by
      cases d with
      | object ref =>
        cases ref with
        | key k => exact Run.sparesKey_callKey (fun same => apart (by rw [same])) []
        | source s =>
          refine (Run.Blind.bind (Run.blind_view fun _ _ => rfl) fun source => ?_).sparesKey
          split
          · exact Run.blind_callSource source _
          · exact Run.blind_fail _
        | _ => exact produces.elim
      | _ => exact produces.elim
    exact called.bind fun v => ((Run.blind_install v).bind Run.blind_openFeed).sparesKey

/-! ## A sequence over data -/

theorem Raw.grounds {first : Store} {d : Value} (raw : first.Raw d) : first.Grounds (first.groundBody d) :=
  ⟨(backs_of_raw raw raw.within).ground, fun _ grown => raw.blindAt_opener grown⟩

/-- Whether a sequence over data draws from an origin, and neither peeked at an element nor met the end. -/
structure Supplies (first : Store) (d : Value) (multi : Bool) (supply : SequenceId) (origin : Origin) (store : Store) :
    Prop where
  grows : first.Grows store
  stands : ∃ started, store.Stands Item.Plain (first.aside d) multi supply [supply]
    (.ground ⟨started, false, none⟩ origin)
  linked : ∃ held, store.Linked (first.groundBody d) (fun _ => .null) held [supply]

section Supplying

variable {first store : Store} {d : Value} {multi : Bool} {supply : SequenceId} {origin : Origin}

theorem Supplies.spared {after : Store} (raw : first.Raw d) (supplies : Supplies first d multi supply origin store)
    (spares : store.Spares [supply] after) : Supplies first d multi supply origin after := by
  obtain ⟨grows, ⟨started, stands⟩, ⟨held, linked⟩⟩ := supplies
  exact ⟨grows.trans spares.grows, ⟨started, stands.spared spares⟩, held, linked.spared raw.grounds.base spares.same⟩

/-- A draw beneath a sequence over data leaves a key function alone that does not make the data. -/
theorem Traced.key {after : Store} {ground : Body} {keyAt : Nat → Value} {held : Option CursorId} {told : Draw}
    {aside : Option CursorId} {D : Item → Prop} {id : KeyId}
    (traced : store.Traced ground multi keyAt [supply] held [.drew] told after)
    (spares : ground.opener.SparesKey id) (linked : store.Linked ground keyAt held [supply])
    (base : ground.isGround) (backs : store.Backs D aside (store.sequence supply).body origin) :
    after.keys[id.index]? = store.keys[id.index]? := by
  obtain ⟨held', leads, -⟩ := traced
  have form : (store.sequence supply).body = ground.withFeed (held.map .cursor) := linked
  have parts := withFeed_ground base
  have opener : (store.sequence supply).body.opener = ground.opener := by rw [form, (parts _).1]
  have holds := backs.held
  rw [form, (parts _).2.1] at holds
  have same := congrArg Store.keys (leads store rfl).1
  change (Tap.draw ground.opener ⟨store, held⟩).store.keys = after.keys at same
  rw [← same]
  cases held with
  | some k =>
    obtain ⟨_, start, -, held⟩ := holds.some
    rw [held] at holds
    rw [Tap.draw, keys_turned (noStream_of_holds holds backs.kept)]
  | none =>
    obtain ⟨opened, opens, called⟩ := backs.opens store 0 (.refl store) fun _ _ => rfl
    have spared := spares store
    simp only [Tap.draw]
    cases start : origin.openings 0 with
    | error fault =>
      rw [start, opener] at opens
      rw [opens.2] at spared ⊢
      exact spared
    | ok start' =>
      rw [start] at opens
      obtain ⟨k, opens, holds', backs'⟩ := opens_backs backs opens called
      rw [opener] at opens
      rw [opens] at spared ⊢
      rw [keys_turned (noStream_of_holds holds' backs'.kept)]
      exact spared

/-- What a sequence over data tells next is what its origin draws. -/
theorem Supplies.next (supplies : Supplies first d multi supply origin store) (raw : first.Raw d) {n : Nat}
    (deep : 3 ≤ n) :
    ∃ ended after, ((calls n).next supply).from? store = (ended, after) ∧
      after.Delivers Item.Plain ended origin.taken.1 ∧ store.Works [supply] after ∧
      (∀ id : KeyId, d ≠ .object (.key id) → after.keys[id.index]? = store.keys[id.index]?) ∧
      ((∀ fault, origin.taken.1 = .error fault → fault.isEnd = false) →
        Supplies first d multi supply origin.taken.2 after) := by
  obtain ⟨grows, ⟨started, stands⟩, ⟨held, linked⟩⟩ := supplies
  let begun : Tower := .ground ⟨true, false, none⟩ origin.taken.2
  obtain ⟨left, asks, kept⟩ : ∃ left, (Tower.ground ⟨started, false, none⟩ origin).next 3 = some (origin.taken.1, left) ∧
      ((∀ fault, origin.taken.1 = .error fault → fault.isEnd = false) → left = begun) := by
    have settled : (Tower.ground ⟨started, false, none⟩ origin).next 3 =
        some (Tower.settle (origin.taken.1, begun)) := by
      have drawn := Origin.draw_succ 0 origin
      simp only [Tower.next, Tower.pass, Tower.begun, Tower.withPass, Tower.pull, drawn]
      rfl
    refine ⟨_, settled.trans (congrArg some (Prod.ext ?_ rfl)), fun noEnd => ?_⟩
    · cases origin.taken.1 <;> rfl
    · cases drawn : origin.taken.1 with
      | ok item => rfl
      | error fault => rw [Tower.settle_error, Tower.halted_of_not_end (noEnd fault drawn)]
  have asks := Tower.next_mono deep asks
  have told := next_stands n stands
  rw [asks] at told
  obtain ⟨delivers, stands', works⟩ := told
  obtain ⟨deeds, surfaces, traced⟩ := (next_pull_traced raw.grounds n).1 store supply [supply] _ _ held _ grows stands
    ⟨rfl, rfl⟩ linked asks
  obtain rfl := surfaces.deeds_ground
  refine ⟨_, _, rfl, delivers, works, fun id apart => ?_, fun noEnd =>
    ⟨grows.trans works.grows, ⟨true, (kept noEnd).subst stands'⟩, ?_⟩⟩
  · cases stands with
    | ground _ _ backs => exact traced.key (raw.sparesKey_opener apart) linked raw.grounds.base backs
  · obtain ⟨held', -, linked'⟩ := traced
    exact ⟨held', linked' noEnd⟩

end Supplying

end Store

end FirstSeen
