import FirstSeen.Proofs.Tower.Flowing
import FirstSeen.Proofs.Tower.Raw
import FirstSeen.Proofs.Tower.Restarting

/-!
# Sequences over data and factories

A new sequence provides data, or a factory with or without a declared size. It *replays* some elements if it hands them out
each time that it begins, from a new iterator which can be closed. Such a sequence stands as a ground that can be taken
back whenever it was started.
-/

set_option autoImplicit false

namespace FirstSeen

namespace Store

/-- What is opened by a sequence with a body that was not begun, at its next beginning or after so many more. -/
def openingOf (store : Store) (body : Body) (n : Nat) : Except Fault Start :=
  match body with
  | .iterable data _ => store.startOf data
  | .produced factory _ _ => store.startCalled factory (store.callsTo factory + n + 1)
  | _ => .error .notImplemented

/-- Whether a body is that of a new sequence over data, or over a factory with any declared size. -/
inductive Provides (store : Store) : Body → Prop
  | data {data : Value} (offers : store.Offers data) : Provides store (.iterable data none)
  | factory {factory size : Value} (produces : store.Produces factory) : Provides store (.produced factory size none)

/-- The origin of a new sequence with a body. -/
def originIn (store : Store) (body : Body) : Origin where
  openings := store.openingOf body
  kept := store.tapeOf default
  held := none
  oneShot := false
  drops := body.factory?.isSome
  size := match body with
    | .iterable data _ => store.sizeOf data
    | .produced _ size _ => .ok size
    | _ => .ok .null

variable {store : Store} {body : Body} {tape : Tape}

/-- What is opened anew is no iterator that was there. -/
theorem not_isOneShot {data : Value} (offers : store.Offers data) (opens : store.startOf data = .ok (.own tape)) :
    isOneShot data = false := by
  cases data with
  | object ref =>
    cases ref with
    | cursor id => cases opens
    | sequence id => exact (offers (.sequence id) (by simp [Value.refs])).elim
    | _ => rfl
  | _ => rfl

/-- What a source makes anew is no iterator that was there. -/
theorem not_shared {id : SourceId} {count : Nat} {other : CursorId}
    (opens : store.startCalled (.object (.source id)) count = .ok (.own tape)) :
    ¬ ((store.source id).product = some (.shared other) ∨
      (store.source id).product = some (.value (.object (.cursor other)))) := by
  rintro (found | found) <;> simp only [startCalled, found] at opens <;> split at opens <;> cases opens

/-- The origin of new data backs them if what it opens is always new. -/
theorem backs_data {data : Value} (offers : store.Offers data) (starts : store.startOf data = .ok (.own tape)) :
    store.Backs Item.Plain none (.iterable data none) (store.originIn (.iterable data none)) := by
  have again := not_isOneShot offers starts
  refine ⟨rfl, fun later n grows _ => ?_, fun id found => (by cases found), trivial, ⟨fun oneShot => (by cases oneShot), ?_⟩,
    fun other feed form oneShot => ?_, ⟨fun drops => (by cases drops), ?_⟩, fun later grows => from?_lengthOf offers grows⟩
  · obtain ⟨after, opened, -⟩ := openFeed_opens none offers grows rfl (fun _ starts => startOf_within offers starts)
      fun id same => by
        rw [same] at starts
        cases starts
    exact ⟨after, opened, fun id found => by cases found⟩
  · rintro ⟨other, feed, form, oneShot⟩
    cases form
    rw [again] at oneShot
    cases oneShot
  · cases form
    rw [again] at oneShot
    cases oneShot
  · rintro ⟨_, _, _, form⟩
    cases form

/-- The origin of a new factory backs it if what it makes is always new. -/
theorem backs_factory {factory size : Value} (produces : store.Produces factory)
    (starts : ∀ n, store.startCalled factory (store.callsTo factory + n + 1) = .ok (.own tape)) :
    store.Backs Item.Plain none (.produced factory size none) (store.originIn (.produced factory size none)) := by
  refine ⟨rfl, fun later n grows called => ?_, fun id found => (by cases found), trivial, ⟨nofun, ?_⟩,
    fun other feed form => (by cases form), ⟨fun _ => ⟨_, _, _, rfl⟩, fun _ => rfl⟩, fun _ _ => rfl⟩
  · have starts := starts n
    rw [show (store.originIn (.produced factory size none)).openings n = .ok (.own tape) from starts]
    cases factory with
    | object ref =>
      cases ref with
      | source id =>
        have callable : (store.source id).product.isSome := by
          cases found : (store.source id).product with
          | none => simp [startCalled, found] at starts
          | some product => rfl
        obtain ⟨after, opened, calls⟩ := callSource_opens none grows produces (by rw [called id rfl]; rfl) starts
          (fun _ same => startCalled_within produces (starts.trans same)) callable fun other same =>
            absurd same (not_shared starts)
        refine ⟨after, opened, fun other found => ?_⟩
        cases found
        exact calls
      | key id =>
        obtain ⟨after, opened, -⟩ := callKey_opens none grows produces starts
          fun _ same => startCalled_within produces (starts.trans same)
        exact ⟨after, opened, fun other found => by cases found⟩
      | _ => exact produces.elim
    | _ => exact produces.elim
  · rintro ⟨_, _, form, -⟩
    cases form

/-- The origin of the body of a new sequence backs it if what it opens is always new. -/
theorem Provides.backs (provides : store.Provides body) (opens : ∀ n, store.openingOf body n = .ok (.own tape)) :
    store.Backs Item.Plain none body (store.originIn body) := by
  cases provides with
  | data offers => exact backs_data offers (opens 0)
  | factory produces => exact backs_factory produces opens

/-- Whether a sequence is new, and hands out these elements each time that it begins, from a new iterator that does not
fail when it is closed. -/
structure Replays (store : Store) (multi : Bool) (items : List Item) (s : SequenceId) : Prop where
  inside : s.index < store.sequences.size
  provides : store.Provides (store.sequence s).body
  new : store.sequence s = { body := (store.sequence s).body, multiValue := multi }
  gives : ∃ tape last, (∀ n, store.openingOf (store.sequence s).body n = .ok (.own tape)) ∧
    tape.manner.closing? = none ∧ tape.Reaches items last ∧ last.Ended

/-- A sequence that replays elements stands as a ground at its beginning, which can be taken back. -/
theorem Replays.stands {multi : Bool} {items : List Item} {s : SequenceId} (replays : store.Replays multi items s) :
    ∃ origin tape last, store.Stands Item.Plain none multi s [s] (.ground {} origin) ∧ origin.held = none ∧
      Tower.Returns (.ground {} origin) (.ground {} origin) ∧ origin.current = some tape ∧ tape.Reaches items last ∧
      last.Ended := by
  obtain ⟨inside, provides, new, tape, last, opens, silent, reaches, ended⟩ := replays
  refine ⟨store.originIn (store.sequence s).body, tape, last, .ground ⟨inside, ?_, ?_, ?_⟩ ?_ (provides.backs opens), rfl,
    ⟨⟨rfl, fun n => (opens n).trans (opens 0).symm, ?_, by rintro ⟨⟩⟩, ⟨fun n other starts => ?_, by rintro _ ⟨⟩⟩, rfl⟩, ?_,
    reaches, ended⟩
  · rw [new]
  · rw [new]
  · rw [new]
    trivial
  · rw [new]
  · exact fun same => by
      rw [show (store.originIn (store.sequence s).body).openings 0 = _ from opens 0] at same
      cases same
  · obtain rfl : tape = other := Start.own.inj (Except.ok.inj ((opens n).symm.trans starts))
    exact silent
  · rw [Origin.current, show (store.originIn (store.sequence s).body).openings 0 = _ from opens 0]
    rfl

end Store

end FirstSeen
