import FirstSeen.Proofs.Stacking
import FirstSeen.Proofs.Tower.Judging

/-!
# Stacks that march in step

The sequences of a stack are *abreast* if their flags agree and no element waits at any of them. Handing out an element keeps
them abreast: what is asked of the top is asked of all, down to the ground, and an end that is signalled at the ground is
signalled at each sequence on the way back. So does taking them back, which begins at the ground: either that fails, and no
sequence of the stack has changed, or each of them is at its beginning.

What they tell of the milestones of their passes comes in the same order: from the ground to the top, each time for all.
-/

set_option autoImplicit false

namespace FirstSeen

/-- Whether a sequence was started and has met its end, as told, and no element waits there. -/
structure SequenceState.IsAt (state : SequenceState) (started exhausted : Bool) : Prop where
  started : state.started = started
  exhausted : state.exhausted = exhausted
  peeked : state.peeked = none

namespace Store

/-- Whether several sequences stand alike. -/
def Abreast (store : Store) (chain : List SequenceId) (started exhausted : Bool) : Prop :=
  ∀ id ∈ chain, (store.sequence id).IsAt started exhausted

/-- A stack of different sequences among those that are enclosed. -/
structure Column (ids : List SequenceId) (streams : List CursorId) (store : Store) (chain : List SequenceId) : Prop where
  encloses : store.Encloses ids streams
  stack : store.Stack ids streams chain
  nodup : chain.Nodup
  members : ∀ id ∈ chain, id ∈ ids

/-- What happens where only the sequences of a column take other states, and tell some milestones. -/
structure Marches (ids : List SequenceId) (streams : List CursorId) (chain : List SequenceId) (told : List Milestone)
    (store after : Store) : Prop where
  column : after.Column ids streams chain
  grows : store.GrowsTo after
  become : ∀ id ∈ ids, (store.sequence id).body.Becomes (Ref.Among ids streams) (after.sequence id).body
  aside : ∀ id ∈ ids, id ∉ chain → after.sequence id = store.sequence id
  cursor : ∀ id ∈ streams, after.cursor id = store.cursor id
  milestones : after.milestones ids = store.milestones ids ++ told

/-- What happens where only the top of a column takes another state, and tells some milestones. -/
structure AtTop (ids : List SequenceId) (streams : List CursorId) (id : SequenceId) (rest : List SequenceId)
    (told : List Milestone) (store after : Store) : Prop where
  marches : Marches ids streams (id :: rest) told store after
  others : ∀ other, other ≠ id → after.sequence other = store.sequence other

variable {ids : List SequenceId} {streams : List CursorId} {chain rest : List SequenceId} {id supply : SequenceId}
  {store left after : Store} {told told' : List Milestone} {started exhausted : Bool}

/-! ## Columns -/

theorem Column.moved (column : store.Column ids streams chain) : Marches ids streams chain [] store store :=
  ⟨column, store.growsTo_refl, fun _ _ => .same, fun _ _ _ => rfl, fun _ _ => rfl, (List.append_nil _).symm⟩

theorem Marches.trans (first : Marches ids streams chain told store left) (second : Marches ids streams chain told' left after) :
    Marches ids streams chain (told ++ told') store after where
  column := second.column
  grows := first.grows.trans second.grows
  become id member := (first.become id member).trans (second.become id member)
  aside id member apart := (second.aside id member apart).trans (first.aside id member apart)
  cursor id member := (second.cursor id member).trans (first.cursor id member)
  milestones := by rw [second.milestones, first.milestones, List.append_assoc]

theorem AtTop.trans (first : AtTop ids streams id rest told store left) (second : AtTop ids streams id rest told' left after) :
    AtTop ids streams id rest (told ++ told') store after :=
  ⟨first.marches.trans second.marches, fun other apart => (second.others other apart).trans (first.others other apart)⟩

/-- What comes below the top of a column. -/
theorem Column.below (column : store.Column ids streams (id :: supply :: rest)) : store.Column ids streams (supply :: rest) :=
  ⟨column.encloses, column.stack.tail, column.nodup.of_cons,
    fun other member => column.members other (List.mem_cons_of_mem _ member)⟩

theorem Column.top_mem (column : store.Column ids streams (id :: rest)) : id ∈ ids := column.members id List.mem_cons_self

theorem Column.top_not_mem (column : store.Column ids streams (id :: rest)) : id ∉ rest := column.nodup.notMem

theorem Column.inside (column : store.Column ids streams chain) (member : id ∈ chain) : id.index < store.sequences.size :=
  column.encloses.hides.sequenceThere id (column.members id member)

/-- What happens below the top leaves the top as it is. -/
theorem Marches.top (column : store.Column ids streams (id :: rest)) (moves : Marches ids streams rest told store after) :
    after.sequence id = store.sequence id := moves.aside id column.top_mem column.top_not_mem

/-- What happens below the top, seen from the top. -/
theorem Marches.above (column : store.Column ids streams (id :: rest)) (moves : Marches ids streams rest told store after)
    (stack : after.Stack ids streams (id :: rest)) : Marches ids streams (id :: rest) told store after where
  column := ⟨moves.column.encloses, stack, column.nodup, column.members⟩
  grows := moves.grows
  become := moves.become
  aside other member apart := moves.aside other member fun held => apart (List.mem_cons_of_mem _ held)
  cursor := moves.cursor
  milestones := moves.milestones

/-- What others do moves nothing. -/
theorem Beyond.moves (column : store.Column ids streams chain) (beyond : Beyond ids streams store after) :
    Marches ids streams chain [] store after where
  column := ⟨beyond.encloses, column.stack.congr fun other member => beyond.sequence other (column.members other member),
    column.nodup, column.members⟩
  grows := beyond.grows
  become other member := by rw [beyond.sequence other member]; exact .same
  aside other member _ := beyond.sequence other member
  cursor := beyond.cursor
  milestones := beyond.milestones.trans (List.append_nil _).symm

theorem Abreast.congr (abreast : store.Abreast chain started exhausted)
    (same : ∀ id ∈ chain, after.sequence id = store.sequence id) : after.Abreast chain started exhausted :=
  fun id member => by rw [same id member]; exact abreast id member

theorem Abreast.beyond (column : store.Column ids streams chain) (beyond : Beyond ids streams store after)
    (abreast : store.Abreast chain started exhausted) : after.Abreast chain started exhausted :=
  abreast.congr fun other member => beyond.sequence other (column.members other member)

/-- A pipeline remains one of the same steps on the same input, with the same output. -/
theorem Marches.pipeline (marches : Marches ids streams chain told store after) (member : id ∈ ids) {steps : ListId}
    {input output : Value} (form : (store.sequence id).body = .pipeline steps input output) :
    (after.sequence id).body = .pipeline steps input output := by
  have becomes := marches.become id member
  rw [form] at becomes
  generalize (after.sequence id).body = body at becomes
  cases becomes
  rfl

/-! ## The top of a column -/

/-- The top takes another state. -/
theorem Column.updated (column : store.Column ids streams (id :: rest)) {f : SequenceState → SequenceState}
    (becomes : (store.sequence id).body.Becomes (Ref.Among ids streams) (f (store.sequence id)).body)
    (becomes' : (store.sequence id).body.Becomes store.Lacks (f (store.sequence id)).body)
    (peeked : ∀ v, (f (store.sequence id)).peeked = some v → store.Knows v) :
    AtTop ids streams id rest [] store (store.updated id f) ∧ (store.updated id f).sequence id = f (store.sequence id) := by
  have state : (store.updated id f).sequence id = f (store.sequence id) :=
    sequence_updated (column.inside List.mem_cons_self)
  obtain ⟨encloses, grows⟩ := column.encloses.updated column.top_mem (f := f)
    ⟨becomes'.avoids (column.encloses.whole.sequence id).body, peeked⟩
  have become : ∀ other, (store.sequence other).body.Becomes (Ref.Among ids streams) ((store.updated id f).sequence other).body := by
    intro other
    by_cases here : other = id
    · subst here
      rw [state]
      exact becomes
    · rw [sequence_updated_ne here]
      exact .same
  exact ⟨⟨⟨⟨encloses, column.stack.becomes fun other _ => become other, column.nodup, column.members⟩, grows,
    fun other _ => become other, fun other _ apart => sequence_updated_ne fun here => apart (here ▸ List.mem_cons_self),
    fun _ _ => rfl, (List.append_nil _).symm⟩, fun other apart => sequence_updated_ne apart⟩, state⟩

/-- The flags of the top change, and what waits there. -/
theorem Column.flagged (column : store.Column ids streams (id :: rest)) {f : SequenceState → SequenceState}
    (same : (f (store.sequence id)).body = (store.sequence id).body)
    (peeked : ∀ v, (f (store.sequence id)).peeked = some v → store.Knows v) :
    AtTop ids streams id rest [] store (store.updated id f) ∧ (store.updated id f).sequence id = f (store.sequence id) :=
  column.updated (by rw [same]; exact .same) (by rw [same]; exact .same) peeked

/-- The top takes another body. -/
theorem Column.setBody (column : store.Column ids streams (id :: rest)) {b : Body} {ended : Except Halt Unit}
    (becomes : (store.sequence id).body.Becomes (Ref.Among ids streams) b)
    (becomes' : (store.sequence id).body.Becomes store.Lacks b) (ends : (Run.setBody id b).from? store = (ended, after)) :
    AtTop ids streams id rest [] store after ∧ after.sequence id = { store.sequence id with body := b } := by
  cases ends
  exact column.updated becomes becomes' (column.encloses.whole.sequence id).peeked

/-- Something is told of the top. -/
theorem Column.tells (column : store.Column ids streams (id :: rest)) (notice : Notice) (subject : notice.subject = id) :
    AtTop ids streams id rest notice.milestone?.toList store { store with journal := store.journal.push notice } := by
  have encloses := column.encloses.told (store.journal.push notice)
  refine ⟨⟨⟨encloses, column.stack.congr fun _ _ => rfl, column.nodup, column.members⟩, fun ref lacks => ?_, fun _ _ => .same,
    fun _ _ _ => rfl, fun _ _ => rfl, ?_⟩, fun _ _ => rfl⟩
  · cases ref <;> exact lacks
  · have member : notice.subject ∈ ids := subject ▸ column.top_mem
    simp only [Store.milestones, Array.toList_push, List.filter_append, List.filterMap_append]
    rw [List.filter_cons_of_pos (by simpa using member)]
    cases notice <;> rfl

/-- The top releases what it no longer needs. -/
theorem Column.cleanUp (column : store.Column ids streams (id :: rest)) {ended : Except Halt Unit}
    (ends : (Run.cleanUp id).from? store = (ended, after)) :
    AtTop ids streams id rest [] store after ∧ ∃ body, after.sequence id = { store.sequence id with body := body } := by
  rw [Run.cleanUp, Run.from?_bind_ok (Run.from?_sequence ..)] at ends
  split at ends <;> rename_i form
  · obtain ⟨atTop, state⟩ := column.setBody (by rw [form]; exact .distinct) (by rw [form]; exact .distinct) ends
    exact ⟨atTop, _, state⟩
  · obtain ⟨atTop, state⟩ := column.setBody (by rw [form]; exact .produced (by simp)) (by rw [form]; exact .produced (by simp))
      ends
    exact ⟨atTop, _, state⟩
  · cases ends
    exact ⟨⟨column.moved, fun _ _ => rfl⟩, _, rfl⟩

/-- The top signals its end. -/
theorem Column.signalEnd (column : store.Column ids streams (id :: rest)) {ended : Except Halt Unit}
    (ends : (Run.signalEnd id).from? store = (ended, after)) :
    AtTop ids streams id rest [⟨.exhausted, id⟩] store after ∧
      ∃ body, after.sequence id = { store.sequence id with body := body, exhausted := true } := by
  obtain ⟨met, flagged⟩ := column.flagged (f := fun state => { state with exhausted := true }) rfl
    (column.encloses.whole.sequence id).peeked
  have said := met.marches.column.tells (.exhausted id
    ((store.updated id fun state => { state with exhausted := true }).sequence id).body.kind) rfl
  rw [Run.signalEnd, Run.from?_bind_ok (Run.from?_updateSequence ..), Run.from?_bind_ok (Run.from?_sequence ..),
    Run.from?_bind_ok (Run.from?_tell ..)] at ends
  obtain ⟨cleans, body, state⟩ := said.marches.column.cleanUp ends
  refine ⟨(met.trans said).trans cleans, body, ?_⟩
  rw [state]
  change { (store.updated id fun state => { state with exhausted := true }).sequence id with body := body } = _
  rw [flagged]

/-- What recording a key has to tell of the top. -/
theorem Column.tellSeen (column : store.Column ids streams (id :: rest)) (key : Value) (notices : List SeenNotice) :
    ∃ journal, (Run.tellSeen id key notices).from? store = (.ok (), { store with journal := journal }) ∧
      AtTop ids streams id rest [] store { store with journal := journal } := by
  induction notices generalizing store with
  | nil => exact ⟨store.journal, rfl, column.moved, fun _ _ => rfl⟩
  | cons notice later ih =>
    cases notice with
    | listLookup =>
      have first := column.tells (.listLookup id (store.typeName key)) rfl
      obtain ⟨journal, ends, tells⟩ := ih first.marches.column
      exact ⟨journal, ends, first.trans tells⟩
    | limitReached =>
      have first := column.tells (.limitReached id) rfl
      obtain ⟨journal, ends, tells⟩ := ih first.marches.column
      exact ⟨journal, ends, first.trans tells⟩

/-- A stage at the top remembers a key. -/
theorem Column.remember (column : store.Column ids streams (id :: rest)) {key limit k : Value} {seen : Seen}
    (form : (store.sequence id).body = .distinct supply key limit seen) {ended : Except Halt Bool}
    (ends : (Run.remember id k).from? store = (ended, after)) :
    AtTop ids streams id rest [] store after ∧ ∃ body, after.sequence id = { store.sequence id with body := body } := by
  let recording := seen.record (store.contents limit) store.raising (store.contents k)
  rw [Run.remember, Run.from?_bind_ok (Run.from?_sequence ..), form] at ends
  simp only at ends
  rw [Run.from?_bind_ok (Run.from?_contents ..), Run.from?_bind_ok (Run.from?_view ..),
    Run.from?_bind_ok (Run.from?_contents ..)] at ends
  obtain ⟨records, state⟩ := column.setBody (b := .distinct supply key limit recording.seen)
    (by rw [form]; exact .distinct) (by rw [form]; exact .distinct) rfl
  obtain ⟨journal, tells, telling⟩ := records.marches.column.tellSeen k recording.notices
  rw [Run.from?_bind_ok (Run.from?_setBody ..)] at ends
  have answers : (Run.ofExcept recording.outcome).from? _ = (ended, after) := (Run.from?_bind_ok tells).symm.trans ends
  rw [Run.from?_ofExcept] at answers
  cases answers
  exact ⟨records.trans telling, _, state⟩

end Store

namespace Calls

open Run Store

/-- What handing out an element comes to: it is sought in part of a column, whose sequences stand alike then, and signal the
end from the ground to the top if it is met. -/
structure Hands (ids : List SequenceId) (streams : List CursorId) (chain part : List SequenceId) (ended : Except Halt Value)
    (store after : Store) : Prop where
  marches : Marches ids streams chain (if metEnd ended then Lap.exhausted.all part else []) store after
  abreast : after.Abreast part true (metEnd ended)
  fine : ∀ v, ended = .ok v → v.Avoids (Ref.Among ids streams) ∧ after.Knows v

/-- What taking back comes to: part of a column is taken back, from the ground to the top, or nothing of the column changes. -/
inductive TakesBack (ids : List SequenceId) (streams : List CursorId) (chain part : List SequenceId) (store after : Store) :
    Except Halt Unit → Prop
  | back (marches : Marches ids streams chain (Lap.rewound.all part) store after)
    (abreast : after.Abreast part false false) : TakesBack ids streams chain part store after (.ok ())
  | fault {fault : Fault} (beyond : Beyond ids streams store after) :
    TakesBack ids streams chain part store after (.error (.fault fault))

/-- Whether operations keep columns in step. -/
structure InStep (ids : List SequenceId) (streams : List CursorId) (c : Calls) : Prop where
  next : ∀ {id rest store after ended started}, store.Column ids streams (id :: rest) →
    store.Abreast (id :: rest) started false → (c.next id).from? store = (ended, after) → ended ≠ .error .outOfFuel →
    Hands ids streams (id :: rest) (id :: rest) ended store after
  pull : ∀ {id rest store after ended started}, store.Column ids streams (id :: rest) →
    store.Abreast rest started false → (c.pull id).from? store = (ended, after) → ended ≠ .error .outOfFuel →
    Hands ids streams (id :: rest) rest ended store after ∧
      ∃ body, after.sequence id = { store.sequence id with body := body }
  rewind : ∀ {id rest store after ended}, store.Column ids streams (id :: rest) →
    (c.rewind id).from? store = (ended, after) → ended ≠ .error .outOfFuel →
    TakesBack ids streams (id :: rest) (id :: rest) store after ended
  size : ∀ {id rest store after ended}, store.Column ids streams (id :: rest) →
    (c.size id).from? store = (ended, after) → ended ≠ .error .outOfFuel → Beyond ids streams store after
  isMulti : ∀ {id rest store after ended}, store.Column ids streams (id :: rest) →
    (c.isMulti id).from? store = (ended, after) → ended ≠ .error .outOfFuel → Beyond ids streams store after

@[simp] theorem metEnd_ok {α : Type} (a : α) : metEnd (.ok a : Except Halt α) = false := rfl

/-- A key is never made with the signal of an end. -/
theorem metEnd_keyFor (c : Calls) (key : Value) (multi : Bool) (element : Value) (store : Store) :
    metEnd ((c.keyFor key multi element).from? store).1 = false := by
  unfold keyFor
  split
  · rfl
  · rw [from?_onFault]
    rcases (c.callKeyOn key multi element).from? store with ⟨(fault | _) | v, left⟩
    · simp only [from?_fail]
      unfold insteadOfEnd
      split
      · rfl
      · simpa [metEnd, faultOf] using ‹¬fault.isEnd = true›
    · rfl
    · rfl

variable {c : Calls} {n : Nat} {started exhausted : Bool} {chain rest : List SequenceId} {id supply : SequenceId}
  {ids : List SequenceId} {streams : List CursorId} {store left after : Store} {ended : Except Halt Value}

/-- What is sought below the top, without an end, is handed out by the top. -/
theorem Hands.onward (hands : Hands ids streams (id :: rest) rest ended store after) (before : metEnd ended = false)
    (top : (after.sequence id).IsAt true false) : Hands ids streams (id :: rest) (id :: rest) ended store after where
  marches := by simpa [before] using hands.marches
  abreast := List.forall_mem_cons.mpr ⟨before.symm ▸ top, hands.abreast⟩
  fine := hands.fine

/-- An end that is met below the top is signalled by the top. -/
theorem Hands.signals (hands : Hands ids streams (id :: rest) rest ended store left) (met : metEnd ended = true)
    {signalled : Except Halt Unit} (ends : (signalEnd id).from? left = (signalled, after))
    (top : (left.sequence id).IsAt true false) : Hands ids streams (id :: rest) (id :: rest) ended store after := by
  have column := hands.marches.column
  obtain ⟨signals, body, state⟩ := column.signalEnd ends
  have all := hands.marches.trans signals.marches
  refine ⟨by simpa [met] using all, List.forall_mem_cons.mpr ⟨?_, ?_⟩, fun v same => ?_⟩
  · rw [state]
    exact ⟨top.started, met.symm, top.peeked⟩
  · exact Abreast.congr hands.abreast fun other member => signals.others other fun same => column.top_not_mem (same ▸ member)
  · rw [same] at met
    cases met

/-- Handing out an element is pulling it, and signalling the end that is met. -/
theorem Hands.next {before : Store} {ended' : Except Halt Value} (unawaited : (before.sequence id).Unawaited)
    (ongoing : (before.sequence id).exhausted = false)
    (pulled : (c.pull id).from? (before.updated id fun state => { state with started := true }) = (ended', left))
    (hands : Hands ids streams (id :: rest) rest ended' store left) (top : (left.sequence id).IsAt true false)
    (ends : (c.nextWith id).from? before = (ended, after)) (enough : ended ≠ .error .outOfFuel) :
    Hands ids streams (id :: rest) (id :: rest) ended store after := by
  rw [next_unawaited unawaited ongoing, pulled] at ends
  rcases ended' with (fault | _) | v
  · cases met : fault.isEnd with
    | false =>
      simp only [met, Bool.false_eq_true, if_false] at ends
      cases ends
      exact hands.onward met top
    | true =>
      simp only [met, if_true] at ends
      cases ends
      exact hands.signals met rfl top
  · cases ends
    exact absurd rfl enough
  · cases ends
    exact hands.onward rfl top

/-- If the next element can be asked for, so can what it is pulled from. -/
theorem pull_enough (unawaited : (store.sequence id).Unawaited) (ongoing : (store.sequence id).exhausted = false)
    (ends : (c.nextWith id).from? store = (ended, after)) (enough : ended ≠ .error .outOfFuel) :
    ((c.pull id).from? (store.updated id fun state => { state with started := true })).1 ≠ .error .outOfFuel := by
  rw [next_unawaited unawaited ongoing] at ends
  rcases pulled : (c.pull id).from? (store.updated id fun state => { state with started := true }) with
    ⟨(fault | _) | v, left⟩ <;> rw [pulled] at ends
  · simp
  · cases ends
    exact absurd rfl enough
  · simp

namespace InStep

theorem nextWith (inStep : InStep ids streams c) (column : store.Column ids streams (id :: rest))
    (abreast : store.Abreast (id :: rest) started false) (ends : (c.nextWith id).from? store = (ended, after))
    (enough : ended ≠ .error .outOfFuel) : Hands ids streams (id :: rest) (id :: rest) ended store after := by
  obtain ⟨top, others⟩ := List.forall_mem_cons.mp abreast
  obtain ⟨begins, begun⟩ := column.flagged (f := fun state => { state with started := true }) rfl
    (column.encloses.whole.sequence id).peeked
  have others' : (store.updated id fun state => { state with started := true }).Abreast rest started false :=
    Abreast.congr others fun other member => begins.others other fun same => column.top_not_mem (same ▸ member)
  have enough' := pull_enough top.peeked top.exhausted ends enough
  rcases pulled : (c.pull id).from? (store.updated id fun state => { state with started := true }) with ⟨ended', left⟩
  rw [pulled] at enough'
  obtain ⟨hands, body, state⟩ := inStep.pull begins.marches.column others' pulled enough'
  refine Hands.next top.peeked top.exhausted pulled ⟨begins.marches.trans hands.marches, hands.abreast, hands.fine⟩ ?_ ends enough
  rw [state, begun]
  exact ⟨rfl, top.exhausted, top.peeked⟩

/-- At the ground, elements are drawn from elsewhere. -/
theorem draw (within : c.Within (calls n)) (column : store.Column ids streams [id]) {feed : Feed}
    (outside : ¬Ref.Among ids streams feed.ref) (ends : (c.draw feed).from? store = (ended, after))
    (enough : ended ≠ .error .outOfFuel) :
    Hands ids streams [id] [] ended store after ∧ ∃ body, after.sequence id = { store.sequence id with body := body } := by
  obtain ⟨beyond, fine⟩ := beyond_of_quiet (within.draw feed) ((heeds_calls n).draw outside) ((upholds_calls n).draw feed)
    column.encloses ends enough
  exact ⟨⟨by simpa using beyond.moves column, by simp [Abreast], fine⟩, _, beyond.sequence id column.top_mem⟩

/-- At the ground, a feed is opened by the first pull of a pass. -/
theorem openThen (within : c.Within (calls n)) (column : store.Column ids streams [id]) (opener : Run Feed) (body : Feed → Body)
    (heeds : opener.Heeds (Ref.Among ids streams) fun feed => ¬Ref.Among ids streams feed.ref)
    (whole : opener.Whole store fun left feed => ¬left.Lacks feed.ref)
    (becomes : ∀ (hidden : Ref → Prop) feed, ¬hidden feed.ref → (store.sequence id).body.Becomes hidden (body feed))
    (ends : (do
      let feed ← opener
      setBody id (body feed)
      c.draw feed : Run Value).from? store = (ended, after))
    (enough : ended ≠ .error .outOfFuel) :
    Hands ids streams [id] [] ended store after ∧ ∃ body, after.sequence id = { store.sequence id with body := body } := by
  rcases bind_ends ends with ⟨halt, opened, rfl⟩ | ⟨feed, left, opened, ends⟩
  · obtain ⟨beyond, -⟩ := beyond_of_run heeds whole column.encloses opened
    exact ⟨⟨by simpa using beyond.moves column, by simp [Abreast], nofun⟩, _, beyond.sequence id column.top_mem⟩
  · obtain ⟨beyond, fine⟩ := beyond_of_run heeds whole column.encloses opened
    obtain ⟨outside, there⟩ := fine feed rfl
    have column' := (beyond.moves column).column
    have same := beyond.sequence id column.top_mem
    rcases bind_ends ends with ⟨halt, sets, -⟩ | ⟨_, left', sets, ends⟩
    · cases sets
    · obtain ⟨begins, state⟩ := column'.setBody (by rw [same]; exact becomes _ feed outside)
        (by rw [same]; exact becomes _ feed there) sets
      obtain ⟨hands, body', state'⟩ := draw within begins.marches.column outside ends enough
      refine ⟨⟨by simpa using ((beyond.moves column).trans begins.marches).trans hands.marches, hands.abreast, hands.fine⟩, body', ?_⟩
      rw [state', state, same]

/-- A stage passes what its supply hands out, or asks again. -/
theorem pullDistinct (inStep : InStep ids streams c) (within : c.Within (calls n))
    (column : store.Column ids streams (id :: supply :: rest)) {key limit : Value} {seen : Seen}
    (form : (store.sequence id).body = .distinct supply key limit seen) (avoids : key.Avoids (Ref.Among ids streams))
    (abreast : store.Abreast (supply :: rest) started false) (multi : Bool)
    (ends : (do
      let element ← c.next supply
      let k ← c.keyFor key multi element
      if ← barring (fun _ => metEnd) (Run.remember id k) then return element else c.pull id : Run Value).from? store =
        (ended, after))
    (enough : ended ≠ .error .outOfFuel) :
    Hands ids streams (id :: supply :: rest) (supply :: rest) ended store after ∧
      ∃ body, after.sequence id = { store.sequence id with body := body } := by
  -- What the supply does, seen from the stage.
  have asked : ∀ {ended' left'}, (c.next supply).from? store = (ended', left') → ended' ≠ .error .outOfFuel →
      Hands ids streams (id :: supply :: rest) (supply :: rest) ended' store left' ∧ left'.sequence id = store.sequence id := by
    intro ended' left' hands enough'
    have hands' := inStep.next column.below abreast hands enough'
    have same := hands'.marches.top column
    exact ⟨⟨hands'.marches.above column (.distinct (same ▸ form) avoids hands'.marches.column.stack), hands'.abreast,
      hands'.fine⟩, same⟩
  rcases bind_ends ends with ⟨halt, drawn, rfl⟩ | ⟨element, left, drawn, ends⟩
  · obtain ⟨hands, same⟩ := asked drawn fun same => enough (by cases same; rfl)
    exact ⟨⟨hands.marches, hands.abreast, nofun⟩, _, same⟩
  obtain ⟨hands, same⟩ := asked drawn (by simp)
  have fine := hands.fine element rfl
  -- The key is made elsewhere.
  have keys : ∀ {ended' left'}, (c.keyFor key multi element).from? left = (ended', left') → ended' ≠ .error .outOfFuel →
      Beyond ids streams left left' := fun keyed enough' =>
    (beyond_of_quiet (within.keyFor key multi element) ((heeds_calls n).keyFor avoids multi fine.1)
      ((upholds_calls n).keyFor key multi fine.2) hands.marches.column.encloses keyed enough').1
  rcases bind_ends ends with ⟨halt, keyed, rfl⟩ | ⟨k, left', keyed, ends⟩
  · have ongoing := metEnd_keyFor c key multi element left
    rw [keyed] at ongoing
    have beyond := keys keyed fun same => enough (by cases same; rfl)
    have top := beyond.sequence id column.top_mem
    exact ⟨⟨by simpa [ongoing] using hands.marches.trans (beyond.moves hands.marches.column),
      ongoing ▸ Abreast.beyond hands.marches.column.below beyond hands.abreast, nofun⟩,
      _, top.trans same⟩
  have beyond := keys keyed (by simp)
  have column' := (beyond.moves hands.marches.column).column
  have top := (beyond.sequence id column.top_mem).trans same
  have abreast' := Abreast.beyond hands.marches.column.below beyond hands.abreast
  -- The key is recorded, without an end.
  have records : ∀ {ended' left''}, (barring (fun _ => metEnd) (Run.remember id k)).from? left' = (ended', left'') →
      ended' ≠ .error .outOfFuel → metEnd ended' = false ∧ AtTop ids streams id (supply :: rest) [] left' left'' ∧
        (∃ body, left''.sequence id = { store.sequence id with body := body }) ∧
          left''.Abreast (supply :: rest) true false := by
    intro ended' left'' recorded enough'
    rw [from?_barring] at recorded
    split at recorded
    · cases recorded
      exact absurd rfl enough'
    · rename_i free
      obtain ⟨atTop, body, state⟩ := column'.remember (by rw [top]; exact form) recorded
      rw [recorded] at free
      exact ⟨by simpa using free, atTop, ⟨body, by rw [state, top]⟩, Abreast.congr abreast' fun other member =>
        atTop.others other fun same => column.top_not_mem (same ▸ member)⟩
  have passed := hands.marches.trans (beyond.moves hands.marches.column)
  simp only [metEnd_ok, Bool.false_eq_true, if_false, List.append_nil] at passed
  rcases bind_ends ends with ⟨halt, recorded, rfl⟩ | ⟨fresh, left'', recorded, ends⟩
  · obtain ⟨ongoing, atTop, state, abreast''⟩ := records recorded fun same => enough (by cases same; rfl)
    have ongoing' : metEnd (.error halt : Except Halt Value) = false := by cases halt <;> exact ongoing
    exact ⟨⟨by simpa [ongoing'] using passed.trans atTop.marches, ongoing' ▸ abreast'', nofun⟩, state⟩
  obtain ⟨-, atTop, ⟨body, state⟩, abreast''⟩ := records recorded (by simp)
  have passed' := passed.trans atTop.marches
  simp only [List.append_nil] at passed'
  cases fresh with
  | true =>
    cases ends
    refine ⟨⟨by simpa using passed', abreast'', ?_⟩, body, state⟩
    rintro _ ⟨⟩
    exact ⟨fine.1, fine.2.less (beyond.grows.trans atTop.marches.grows)⟩
  | false =>
    obtain ⟨hands', body', state'⟩ := inStep.pull passed'.column abreast'' ends enough
    exact ⟨⟨by simpa using passed'.trans hands'.marches, hands'.abreast, hands'.fine⟩, body', by rw [state', state]⟩

/-- A pipeline passes what its output hands out. -/
theorem nextBelow (inStep : InStep ids streams c) {output : SequenceId} {steps : ListId} {input : Value}
    (column : store.Column ids streams (id :: output :: rest))
    (form : (store.sequence id).body = .pipeline steps input (.ofSequence output))
    (abreast : store.Abreast (output :: rest) started false) (ends : (c.next output).from? store = (ended, after))
    (enough : ended ≠ .error .outOfFuel) :
    Hands ids streams (id :: output :: rest) (output :: rest) ended store after ∧
      ∃ body, after.sequence id = { store.sequence id with body := body } := by
  have hands := inStep.next column.below abreast ends enough
  have same := hands.marches.top column
  exact ⟨⟨hands.marches.above column (.pipeline (same ▸ form) hands.marches.column.stack), hands.abreast, hands.fine⟩, _, same⟩

/-- Pulling keeps a column in step below its top, where recording a key signals no end. -/
theorem pullQuietly (inStep : InStep ids streams c) (within : c.Within (calls n))
    (column : store.Column ids streams (id :: rest)) (abreast : store.Abreast rest started false)
    (ends : (c.pullQuietly id).from? store = (ended, after)) (enough : ended ≠ .error .outOfFuel) :
    Hands ids streams (id :: rest) rest ended store after ∧
      ∃ body, after.sequence id = { store.sequence id with body := body } := by
  rw [Calls.pullQuietly, from?_bind_ok (from?_sequence ..)] at ends
  have held := column.encloses.whole.sequence id
  cases stack : column.stack with
  | iterable form avoids =>
    rename_i data feed
    simp only [form] at ends
    rw [pullWith, from?_bind_ok (from?_sequence ..), form] at ends
    cases feed with
    | some feed => exact draw within column (avoids.2 feed rfl) ends enough
    | none =>
      exact openThen within column _ _ (heeds_openFeed avoids.1) (whole_openFeed (form ▸ held.body).1)
        (fun hidden feed outside => by
          rw [form]
          exact .iterable fun f same => Option.some.inj same ▸ outside) ends enough
  | produced form avoids =>
    rename_i factory size feed
    simp only [form] at ends
    rw [pullWith, from?_bind_ok (from?_sequence ..), form] at ends
    cases feed with
    | some feed => exact draw within column (avoids.2 feed rfl) ends enough
    | none =>
      refine openThen within column (do Run.openFeed (← Run.install (← Run.call factory [])))
        (fun feed => .produced factory size (some feed))
        ((heeds_call avoids.1 []).bind fun _ fine => (heeds_install (fine rfl)).bind fun _ fine' => heeds_openFeed fine')
        ((whole_call factory []).bind fun _ _ _ fine => (whole_install (fine rfl)).bind fun _ _ _ fine' => whole_openFeed fine')
        (fun hidden feed outside => ?_) ?_ enough
      · rw [form]
        exact .produced fun f same => Option.some.inj same ▸ outside
      · simpa only [pullProduced, bind_assoc] using ends
  | distinct form avoids below =>
    simp only [form] at ends
    exact inStep.pullDistinct within column form avoids abreast _ ends enough
  | pipeline form below =>
    simp only [form] at ends
    rw [pullWith, from?_bind_ok (from?_sequence ..), form] at ends
    exact inStep.nextBelow column form abreast ends enough

/-- Resetting the top takes back what is below it. -/
theorem reset (inStep : InStep ids streams c) (column : store.Column ids streams (id :: rest)) {ended : Except Halt Unit}
    (ends : (c.reset id).from? store = (ended, after)) (enough : ended ≠ .error .outOfFuel) :
    TakesBack ids streams (id :: rest) rest store after ended ∧
      ∃ body, after.sequence id = { store.sequence id with body := body } := by
  -- At the ground the body is reset after what is done elsewhere.
  have grounds : ∀ {left : Store} {body : Body}, rest = [] → Beyond ids streams store left →
      (∀ hidden : Ref → Prop, (store.sequence id).body.Becomes hidden body) →
      (setBody id body).from? left = (ended, after) → TakesBack ids streams (id :: rest) rest store after ended ∧
        ∃ body, after.sequence id = { store.sequence id with body := body } := by
    rintro left body rfl beyond becomes sets
    have same := beyond.sequence id column.top_mem
    have moves := beyond.moves column
    obtain ⟨begins, state⟩ := moves.column.setBody (by rw [same]; exact becomes _) (by rw [same]; exact becomes _) sets
    cases sets
    exact ⟨.back (by simpa using moves.trans begins.marches) (by simp [Abreast]), _, by rw [state, same]⟩
  -- What is taken back below the top.
  have takes : ∀ {supply rest' ended' left}, rest = supply :: rest' → (c.rewind supply).from? store = (ended', left) →
      ended' ≠ .error .outOfFuel → TakesBack ids streams rest rest store left ended' := by
    rintro supply rest' ended' left rfl back enough'
    exact inStep.rewind column.below back enough'
  rw [Calls.reset, from?_bind_ok (from?_sequence ..)] at ends
  cases stack : column.stack with
  | iterable form avoids =>
    rename_i data feed
    simp only [form] at ends
    split at ends
    · rw [from?_bind_ok (from?_typeName ..), from?_bind_error (from?_fail ..)] at ends
      cases ends
      exact ⟨.fault (beyond_refl column.encloses), _, rfl⟩
    · exact grounds rfl (beyond_refl column.encloses) (fun _ => by rw [form]; exact .iterable (by simp)) ends
  | produced form avoids =>
    rename_i factory size feed
    simp only [form] at ends
    cases feed with
    | none => exact grounds rfl (beyond_refl column.encloses) (fun _ => by rw [form]; exact .produced (by simp)) ends
    | some feed =>
      rcases bind_ends ends with ⟨halt, closed, rfl⟩ | ⟨_, left, closed, ends⟩
      · obtain ⟨beyond, -⟩ := beyond_of_run (heeds_closeFeed (avoids.2 feed rfl)) (whole_closeFeed feed) column.encloses closed
        cases halt with
        | fault => exact ⟨.fault beyond, _, beyond.sequence id column.top_mem⟩
        | outOfFuel => exact absurd rfl enough
      · obtain ⟨beyond, -⟩ := beyond_of_run (heeds_closeFeed (avoids.2 feed rfl)) (whole_closeFeed feed) column.encloses closed
        exact grounds rfl beyond (fun _ => by rw [form]; exact .produced (by simp)) ends
  | distinct form avoids below =>
    simp only [form] at ends
    rcases bind_ends ends with ⟨halt, back, rfl⟩ | ⟨_, left, back, ends⟩
    · cases halt with
      | fault =>
        cases takes rfl back (by simp) with
        | fault beyond => exact ⟨.fault beyond, _, beyond.sequence id column.top_mem⟩
      | outOfFuel => exact absurd rfl enough
    · cases takes rfl back (by simp) with
      | back marches abreast =>
        have same := marches.top column
        have marches' := marches.above column (.distinct (same ▸ form) avoids marches.column.stack)
        obtain ⟨begins, state⟩ := marches'.column.setBody (by rw [same, form]; exact .distinct)
          (by rw [same, form]; exact .distinct) ends
        cases ends
        exact ⟨.back (by simpa using marches'.trans begins.marches) (Abreast.congr abreast fun other member =>
          begins.others other fun same => column.top_not_mem (same ▸ member)), _, by rw [state, same]⟩
  | pipeline form below =>
    simp only [form] at ends
    cases ended with
    | error halt =>
      cases halt with
      | fault =>
        cases takes rfl ends (by simp) with
        | fault beyond => exact ⟨.fault beyond, _, beyond.sequence id column.top_mem⟩
      | outOfFuel => exact absurd rfl enough
    | ok =>
      cases takes rfl ends (by simp) with
      | back marches abreast =>
        have same := marches.top column
        exact ⟨.back (marches.above column (.pipeline (same ▸ form) marches.column.stack)) abreast, _, same⟩

/-- Taking the top back is resetting it, and beginning again. -/
theorem rewindWith (inStep : InStep ids streams c) (column : store.Column ids streams (id :: rest)) {ended : Except Halt Unit}
    (ends : (c.rewindWith id).from? store = (ended, after)) (enough : ended ≠ .error .outOfFuel) :
    TakesBack ids streams (id :: rest) (id :: rest) store after ended := by
  rcases bind_ends ends with ⟨halt, resets, rfl⟩ | ⟨_, left, resets, ends⟩
  · cases (inStep.reset column resets (by cases halt <;> simp_all)).1 with
    | fault beyond => exact .fault beyond
  · obtain ⟨takes, -⟩ := inStep.reset column resets (by simp)
    cases takes with
    | back marches abreast =>
      obtain ⟨begins, begun⟩ := marches.column.flagged
        (f := fun state => { state with started := false, exhausted := false, peeked := none }) rfl (by simp)
      have telling := begins.marches.column.tells (.rewound id ((left.updated id fun state =>
        { state with started := false, exhausted := false, peeked := none }).sequence id).body.kind) rfl
      have all := (marches.trans begins.marches).trans telling.marches
      rw [List.append_nil] at all
      cases ends
      refine .back (by rw [Lap.all_cons]; exact all)
        (List.forall_mem_cons.mpr ⟨?_, Abreast.congr abreast fun other member =>
          begins.others other fun same => column.top_not_mem (same ▸ member)⟩)
      change ((left.updated id fun state =>
        { state with started := false, exhausted := false, peeked := none }).sequence id).IsAt false false
      rw [begun]
      exact ⟨rfl, rfl, rfl⟩

/-- Asking for the size changes nothing of a column. -/
theorem sizeWith (inStep : InStep ids streams c) (column : store.Column ids streams (id :: rest))
    (ends : (c.sizeWith id).from? store = (ended, after)) (enough : ended ≠ .error .outOfFuel) :
    Beyond ids streams store after := by
  have unchanged := beyond_refl column.encloses
  rw [Calls.sizeWith, from?_bind_ok (from?_sequence ..)] at ends
  cases stack : column.stack with
  | iterable form avoids =>
    simp only [form] at ends
    exact (beyond_of_run heeds_lengthOf (whole_lengthOf _) column.encloses ends).1
  | produced form avoids =>
    simp only [form] at ends
    cases ends
    exact unchanged
  | distinct form avoids below =>
    simp only [form] at ends
    cases ends
    exact unchanged
  | pipeline form below =>
    simp only [form] at ends
    exact inStep.size column.below ends enough

/-- Asking whether elements are taken apart changes nothing of a column. -/
theorem isMultiWith (inStep : InStep ids streams c) (column : store.Column ids streams (id :: rest))
    {ended : Except Halt Bool} (ends : (c.isMultiWith id).from? store = (ended, after)) (enough : ended ≠ .error .outOfFuel) :
    Beyond ids streams store after := by
  have unchanged := beyond_refl column.encloses
  rw [Calls.isMultiWith, from?_bind_ok (from?_sequence ..)] at ends
  cases stack : column.stack with
  | pipeline form below =>
    simp only [form] at ends
    split at ends
    · cases ends
      exact unchanged
    · exact inStep.isMulti column.below ends enough
  | iterable form | produced form | distinct form =>
    simp only [form] at ends
    cases ends
    exact unchanged

end InStep

/-- At every depth of calls, operations keep columns in step where recording a key signals no end. -/
theorem inStep_quiet (ids : List SequenceId) (streams : List CursorId) (n : Nat) : InStep ids streams (quiet n) := by
  induction n with
  | zero =>
    constructor <;> intros <;> rename_i ends enough <;> cases ends <;> exact absurd rfl enough
  | succ n ih => exact ⟨ih.nextWith, ih.pullQuietly (within_quiet n), fun column ends enough => ih.rewindWith column ends enough,
    ih.sizeWith, fun column ends enough => ih.isMultiWith column ends enough⟩

end Calls

end FirstSeen
