import FirstSeen.Proofs.Laps
import FirstSeen.Proofs.Quieting
import FirstSeen.Proofs.Upholding

/-!
# Stacks of sequences

A *stack* is a chain of sequences from the top to the ground, each of which draws from the next one. It is *enclosed* together
with some streams if nothing else refers to any of them, and no reference in the store leads nowhere. What a chain asks of
others, of data, factories and key functions, then leaves the sequences of the stack and the streams as they are, tells
nothing of them, and answers with nothing that refers to them.
-/

set_option autoImplicit false

namespace FirstSeen

/-- Whether something is one of these sequences or iterators. -/
def Ref.Among (ids : List SequenceId) (streams : List CursorId) : Ref → Prop
  | .sequence id => id ∈ ids
  | .cursor id => id ∈ streams
  | _ => False

/-- Where a sequence tells that a pass over it ends, or begins again. -/
structure Milestone where
  lap : Lap
  id : SequenceId
deriving DecidableEq

/-- The milestone that a notice tells. -/
def Notice.milestone? : Notice → Option Milestone
  | .exhausted id _ => some ⟨.exhausted, id⟩
  | .rewound id _ => some ⟨.rewound, id⟩
  | .listLookup .. | .limitReached _ => none

/-- What is told of a lap by all sequences of a chain, from the ground to the top. -/
def Lap.all (lap : Lap) (chain : List SequenceId) : List Milestone := chain.reverse.map (Milestone.mk lap)

@[simp] theorem Lap.all_nil (lap : Lap) : lap.all [] = [] := rfl

@[simp] theorem Lap.all_cons (lap : Lap) (id : SequenceId) (rest : List SequenceId) : lap.all (id :: rest) = lap.all rest ++ [⟨lap, id⟩] := by
  simp [Lap.all]

/-- What may become of a body in the course of passes: another feed that is not hidden, or other keys that were seen. -/
inductive Body.Becomes (hidden : Ref → Prop) : Body → Body → Prop
  | same {body : Body} : Becomes hidden body body
  | iterable {data : Value} {feed feed' : Option Feed} (avoids : ∀ f, feed' = some f → ¬hidden f.ref) :
    Becomes hidden (.iterable data feed) (.iterable data feed')
  | produced {factory size : Value} {feed feed' : Option Feed} (avoids : ∀ f, feed' = some f → ¬hidden f.ref) :
    Becomes hidden (.produced factory size feed) (.produced factory size feed')
  | distinct {supply : SequenceId} {key limit : Value} {seen seen' : Seen} :
    Becomes hidden (.distinct supply key limit seen) (.distinct supply key limit seen')

theorem Body.Becomes.avoids {hidden : Ref → Prop} {before body : Body} (becomes : before.Becomes hidden body)
    (avoids : before.Avoids hidden) : body.Avoids hidden := by
  cases becomes with
  | same => exact avoids
  | iterable fine | produced fine => exact ⟨avoids.1, fine⟩
  | distinct => exact avoids

theorem Body.Becomes.trans {hidden : Ref → Prop} {first second third : Body} (becomes : first.Becomes hidden second)
    (becomes' : second.Becomes hidden third) : first.Becomes hidden third := by
  cases becomes with
  | same => exact becomes'
  | iterable fine =>
    cases becomes' with
    | same => exact .iterable fine
    | iterable fine' => exact .iterable fine'
  | produced fine =>
    cases becomes' with
    | same => exact .produced fine
    | produced fine' => exact .produced fine'
  | distinct => cases becomes' <;> exact .distinct

namespace Store

/-- The milestones of some sequences, in the order in which they were told. -/
def milestones (store : Store) (ids : List SequenceId) : List Milestone :=
  (store.journal.toList.filter fun notice => notice.subject ∈ ids).filterMap Notice.milestone?

/-- Whether nothing else refers to any of these sequences and iterators, and no reference leads nowhere. -/
structure Encloses (store : Store) (ids : List SequenceId) (streams : List CursorId) : Prop where
  hides : store.Hides (Ref.Among ids streams)
  whole : store.Whole

/-- What others leave of these sequences and iterators: all. -/
structure Beyond (ids : List SequenceId) (streams : List CursorId) (store after : Store) : Prop where
  encloses : after.Encloses ids streams
  grows : store.GrowsTo after
  sequence : ∀ id ∈ ids, after.sequence id = store.sequence id
  cursor : ∀ id ∈ streams, after.cursor id = store.cursor id
  milestones : after.milestones ids = store.milestones ids

/-- A chain of sequences, each of which draws from the next one, over data or a factory. What else it draws on is none of
these sequences and iterators. -/
inductive Stack (ids : List SequenceId) (streams : List CursorId) (store : Store) : List SequenceId → Prop
  | iterable {id : SequenceId} {data : Value} {feed : Option Feed}
      (body : (store.sequence id).body = .iterable data feed)
      (avoids : (Body.iterable data feed).Avoids (Ref.Among ids streams)) : Stack ids streams store [id]
  | produced {id : SequenceId} {factory size : Value} {feed : Option Feed}
      (body : (store.sequence id).body = .produced factory size feed)
      (avoids : (Body.produced factory size feed).Avoids (Ref.Among ids streams)) : Stack ids streams store [id]
  | distinct {id supply : SequenceId} {rest : List SequenceId} {key limit : Value} {seen : Seen}
      (body : (store.sequence id).body = .distinct supply key limit seen) (avoids : key.Avoids (Ref.Among ids streams))
      (below : Stack ids streams store (supply :: rest)) : Stack ids streams store (id :: supply :: rest)
  | pipeline {id output : SequenceId} {rest : List SequenceId} {steps : ListId} {input : Value}
      (body : (store.sequence id).body = .pipeline steps input (.ofSequence output))
      (below : Stack ids streams store (output :: rest)) : Stack ids streams store (id :: output :: rest)

variable {ids : List SequenceId} {streams : List CursorId} {store left after : Store}

/-- A chain remains one as long as its bodies become what passes over them make of them. -/
theorem Stack.becomes {chain : List SequenceId} (stack : store.Stack ids streams chain)
    (become : ∀ id ∈ chain, (store.sequence id).body.Becomes (Ref.Among ids streams) (after.sequence id).body) :
    after.Stack ids streams chain := by
  induction stack with
  | iterable body avoids =>
    have becomes := become _ List.mem_cons_self
    rw [body] at becomes
    generalize form : (after.sequence _).body = body' at becomes
    cases becomes with
    | same => exact .iterable form avoids
    | iterable fine => exact .iterable form ⟨avoids.1, fine⟩
  | produced body avoids =>
    have becomes := become _ List.mem_cons_self
    rw [body] at becomes
    generalize form : (after.sequence _).body = body' at becomes
    cases becomes with
    | same => exact .produced form avoids
    | produced fine => exact .produced form ⟨avoids.1, fine⟩
  | distinct body avoids _ ih =>
    have becomes := become _ List.mem_cons_self
    have below := ih fun id member => become id (List.mem_cons_of_mem _ member)
    rw [body] at becomes
    generalize form : (after.sequence _).body = body' at becomes
    cases becomes <;> exact .distinct form avoids below
  | pipeline body _ ih =>
    have becomes := become _ List.mem_cons_self
    have below := ih fun id member => become id (List.mem_cons_of_mem _ member)
    rw [body] at becomes
    generalize form : (after.sequence _).body = body' at becomes
    cases becomes
    exact .pipeline form below

/-- What comes below the top of a chain is one. -/
theorem Stack.tail {id supply : SequenceId} {rest : List SequenceId} (stack : store.Stack ids streams (id :: supply :: rest)) :
    store.Stack ids streams (supply :: rest) := by
  cases stack <;> assumption

/-- A chain whose sequences are as they were is one. -/
theorem Stack.congr {chain : List SequenceId} (stack : store.Stack ids streams chain)
    (same : ∀ id ∈ chain, after.sequence id = store.sequence id) : after.Stack ids streams chain :=
  stack.becomes fun id member => by rw [same id member]; exact .same

/-! ## What others do -/

theorem beyond_refl (encloses : store.Encloses ids streams) : Beyond ids streams store store :=
  ⟨encloses, store.growsTo_refl, fun _ _ => rfl, fun _ _ => rfl, rfl⟩

theorem Beyond.trans (first : Beyond ids streams store left) (second : Beyond ids streams left after) :
    Beyond ids streams store after :=
  ⟨second.encloses, first.grows.trans second.grows, fun id member => (second.sequence id member).trans (first.sequence id member),
    fun id member => (second.cursor id member).trans (first.cursor id member), second.milestones.trans first.milestones⟩

/-- What heeds the sequences and iterators, and knows what it is asked of, leaves them as they are. -/
theorem beyond_of_run {α : Type} {good : α → Prop} {good' : Store → α → Prop} {run : Run α} {ended : Except Halt α}
    (heeds : run.Heeds (Ref.Among ids streams) good) (whole : run.Whole store good') (encloses : store.Encloses ids streams)
    (ends : run.from? store = (ended, after)) :
    Beyond ids streams store after ∧ ∀ a, ended = .ok a → good a ∧ good' after a := by
  obtain ⟨hides, spared, fine, -⟩ := heeds store encloses.hides
  obtain ⟨grows, whole', fine'⟩ := whole store store.growsTo_refl encloses.whole
  rw [ends] at hides spared fine grows whole' fine'
  refine ⟨⟨⟨hides, whole'⟩, grows, fun id member => spared.sequence id member, fun id member => spared.cursor id member, ?_⟩,
    fun a same => ⟨fine a same, fine' a same⟩⟩
  have lines := spared.lines (fun notice => notice.subject ∈ ids) fun notice wanted => show notice.subject ∈ ids by simpa using wanted
  exact congrArg (List.filterMap Notice.milestone?) lines

/-- As many calls as one likes are enough for what ends quietly. -/
theorem beyond_of_quiet {α : Type} {good : α → Prop} {good' : Store → α → Prop} {run wider : Run α} {ended : Except Halt α}
    (within : run.Within wider) (heeds : wider.Heeds (Ref.Among ids streams) good) (whole : wider.Whole store good')
    (encloses : store.Encloses ids streams) (ends : run.from? store = (ended, after)) (enough : ended ≠ .error .outOfFuel) :
    Beyond ids streams store after ∧ ∀ a, ended = .ok a → good a ∧ good' after a := by
  have same : wider.from? store = run.from? store := (within store).resolve_left (by rwa [ends])
  exact beyond_of_run heeds whole encloses (same.trans ends)

/-! ## What happens to the sequences themselves -/

/-- A sequence takes another state that refers only to what is there. -/
theorem Encloses.updated (encloses : store.Encloses ids streams) {id : SequenceId} (member : id ∈ ids)
    {f : SequenceState → SequenceState} (known : (f (store.sequence id)).Avoids store.Lacks) :
    (store.updated id f).Encloses ids streams ∧ store.GrowsTo (store.updated id f) := by
  have inside : id.index < store.sequences.size := encloses.hides.sequenceThere id member
  have same : store.updated id f = store.updated id fun _ => f (store.sequence id) := by
    have state : store.sequence id = store.sequences[id.index] := by
      simp [Store.sequence, Array.getD_eq_getD_getElem?, inside]
    simp only [Store.updated, state]
    rfl
  obtain ⟨grows, whole, -⟩ := Run.whole_updateSequence id (f := fun _ => f (store.sequence id))
    (fun left state grows _ => known.less grows) store store.growsTo_refl encloses.whole
  exact ⟨⟨encloses.hides.updated member f, same ▸ whole⟩, same ▸ grows⟩

/-- Nothing is enclosed to begin with. -/
theorem encloses_nothing (whole : store.Whole) : store.Encloses [] [] := by
  have none : ∀ ref, Ref.Among [] [] ref → store.Lacks ref := by
    intro ref held
    cases ref <;> cases held
  exact ⟨⟨fun id _ => (whole.sequence id).less none, fun id _ => (whole.cursor id).less none,
    fun id _ => (whole.datum id).less none, fun id _ v member => (whole.list id v member).less none,
    fun id _ => (whole.source id).less none, fun id _ => (whole.key id).less none, fun id _ => (whole.step id).less none,
    fun _ held => (by cases held), fun _ held => (by cases held), fun _ held => (by cases held), fun _ held => (by cases held)⟩,
    whole⟩

/-- Something is told. -/
theorem Encloses.told (encloses : store.Encloses ids streams) (journal : Array Notice) :
    ({ store with journal := journal } : Store).Encloses ids streams :=
  ⟨encloses.hides.told journal, encloses.whole.changed (fun _ lacks => by cases ‹Ref› <;> exact lacks) (fun _ => .inl rfl)
    (fun _ => .inl rfl) (fun _ => .inl rfl) (fun _ => .inl rfl) (fun _ => rfl) (fun _ => rfl) fun _ => rfl⟩

end Store

end FirstSeen
