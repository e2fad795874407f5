import FirstSeen.Iteration
import FirstSeen.Seen

/-!
# Towers

What a chain of sequences does, told without a store. A *tape* is what an iterator comes to: a script of
elements and faults, a position, and how it goes on. An *origin* opens tapes for the sequence at the bottom
of a chain. A *tower* is the chain itself: its ground draws from an origin, a filter hands on the elements
of the tower below it whose keys are fresh, and a passage hands on all of them, as a pipeline does.

`Tower.next` and `Tower.pull` are bounded as the calls of the engine are: they end if the engine ends at
that depth. Taking a tower back to its beginning needs no bound.
-/

set_option autoImplicit false

namespace FirstSeen

/-- An element as far as a run can tell. -/
structure Item where
  contents : Value
  /-- Whether room has to be made before it is taken apart. -/
  boxed : Bool
  /-- The object it is, if it is the same object each time. -/
  held : Option Value
deriving Inhabited

/-- What a draw ends with. -/
abbrev Draw := Except Fault Item

/-! ## Tapes -/

/-- How an iterator goes on: through faults, up to the end of a list, or until a fault leaves it; and the
fault by which closing it fails, if it does. -/
inductive Manner where
  | walker (closing : Option Fault)
  | lister (ended : Bool)
  | generator (phase : Phase) (closing : Option Fault)
deriving Inhabited

/-- An iterator without a store. -/
structure Tape where
  name : String
  script : Nat → Option Draw
  position : Nat
  manner : Manner
deriving Inhabited

namespace Manner

/-- Whether nothing is asked of the script any more. -/
def spent : Manner → Bool
  | walker _ => false
  | lister ended => ended
  | generator phase _ => phase = .finished

/-- The manner after an element was handed out. -/
def afterElement : Manner → Manner
  | walker closing => walker closing
  | lister _ => lister false
  | generator _ closing => generator .suspended closing

/-- The manner after the end or, for a generator, after a fault. -/
def afterEnd : Manner → Manner
  | walker closing => walker closing
  | lister _ => lister true
  | generator _ closing => generator .finished closing

/-- A fault as it leaves the iterator. -/
def raise : Manner → Fault → Fault
  | generator .., fault => Run.insteadOfEnd .generatorSignalledEnd fault
  | _, fault => fault

end Manner

namespace Tape

/-- Moves a tape on. -/
def step (tape : Tape) : Draw × Tape :=
  if tape.manner.spent then (.error .ended, tape)
  else
    match tape.script tape.position with
    | none => (.error .ended, { tape with manner := tape.manner.afterEnd })
    | some (.ok item) =>
      (.ok item, { tape with position := tape.position + 1, manner := tape.manner.afterElement })
    | some (.error fault) =>
      (.error (tape.manner.raise fault),
        { tape with position := tape.position + 1, manner := tape.manner.afterEnd })

/-- Closes a tape: the fault that this raises, if it does, and the tape from then on. -/
def close (tape : Tape) : Option Fault × Tape :=
  match tape.manner with
  | .walker closing => (closing, tape)
  | .lister _ => (none, tape)
  | .generator phase closing =>
    (if phase = .suspended then closing.map (Run.insteadOfEnd .generatorSignalledEnd) else none,
      { tape with manner := .generator .finished closing })

end Tape

/-! ## Origins -/

/-- What opening a source gives: a tape of its own, or the one that is kept aside for all openings. -/
inductive Start where
  | own (tape : Tape)
  | kept
deriving Inhabited

/-- What the sequence at the bottom of a chain draws from: what its openings to come give, the tape that is
kept aside for them, and what it holds now. -/
structure Origin where
  openings : Nat → Except Fault Start
  kept : Tape
  held : Option Start
  /-- Whether the sequence is over an iterator, which cannot be taken back once it was begun. -/
  oneShot : Bool
  /-- Whether a tape is closed when the origin is reset, and dropped at the end. -/
  drops : Bool
  size : Except Fault Value
deriving Inhabited

namespace Origin

/-- Moves on the tape that an origin holds. -/
def advance (origin : Origin) (start : Start) : Draw × Origin :=
  match start with
  | .own tape => (tape.step.1, { origin with held := some (.own tape.step.2) })
  | .kept => (origin.kept.step.1, { origin with held := some .kept, kept := origin.kept.step.2 })

/-- Draws from an origin, which opens a tape if it holds none. Moving a tape on takes a call. -/
def draw (n : Nat) (origin : Origin) : Option (Draw × Origin) :=
  match origin.held with
  | some start => if n = 0 then none else some (origin.advance start)
  | none =>
    let opened := { origin with openings := fun i => origin.openings (i + 1) }
    match origin.openings 0 with
    | .error fault => some (.error fault, opened)
    | .ok start => if n = 0 then none else some (opened.advance start)

/-- Why a sequence over an iterator refuses to begin again. -/
def refusal (origin : Origin) : Fault :=
  .cannotRewind SequenceKind.iterable.typeName (origin.kept.name ++ " is a one-shot iterator")

/-- Closes the tape that an origin holds. -/
def close (origin : Origin) : Option Fault × Origin :=
  match origin.held with
  | none => (none, origin)
  | some (.own tape) => (tape.close.1, { origin with held := some (.own tape.close.2) })
  | some .kept => (origin.kept.close.1, { origin with kept := origin.kept.close.2 })

/-- Resets an origin, given whether a pass was started: the fault by which this fails, if it does. -/
def reset (started : Bool) (origin : Origin) : Option Fault × Origin :=
  if origin.oneShot && started then (some origin.refusal, origin)
  else if origin.drops then
    match origin.close with
    | (some fault, closed) => (some fault, closed)
    | (none, closed) => (none, { closed with held := none })
  else (none, { origin with held := none })

/-- Lets go of what an origin holds, if it does so at the end. -/
def release (origin : Origin) : Origin :=
  if origin.drops then { origin with held := none } else origin

/-- A draw from an origin that ends does so in the same way at any greater depth. -/
theorem draw_mono {n : Nat} {origin : Origin} {drawn : Draw × Origin}
    (h : draw n origin = some drawn) : draw (n + 1) origin = some drawn := by
  unfold draw at h ⊢
  cases held : origin.held with
  | some start =>
    simp only [held] at h ⊢
    split at h
    · cases h
    · simpa using h
  | none =>
    simp only [held] at h ⊢
    cases opened : origin.openings 0 with
    | error fault => simpa [opened] using h
    | ok start =>
      simp only [opened] at h ⊢
      split at h
      · cases h
      · simpa using h

end Origin

/-! ## Towers -/

/-- Where the current pass of a sequence is. -/
structure Pass where
  started : Bool := false
  exhausted : Bool := false
  peeked : Option Item := none
deriving Inhabited

/-- How a distinct stage judges elements. -/
structure Rule where
  keyOf : Item → Except Fault Value
  limit : Value
  raising : Bool
deriving Inhabited

/-- Whether an element is fresh, and what is remembered from then on. -/
def Rule.judge (rule : Rule) (seen : Seen) (item : Item) : Except Fault Bool × Seen :=
  match rule.keyOf item with
  | .error fault => (.error fault, seen)
  | .ok key =>
    let recording := seen.record rule.limit rule.raising key
    (recording.outcome, recording.seen)

/-- A chain of sequences. -/
inductive Tower where
  | ground (pass : Pass) (origin : Origin)
  | passage (pass : Pass) (below : Tower)
  | filter (pass : Pass) (rule : Rule) (seen : Seen) (below : Tower)
deriving Inhabited

namespace Tower

/-- Where the pass of the topmost sequence is. -/
def pass : Tower → Pass
  | ground pass _ | passage pass _ | filter pass .. => pass

/-- The tower with another pass at its top. -/
def withPass (tower : Tower) (pass : Pass) : Tower :=
  match tower with
  | ground _ origin => ground pass origin
  | passage _ below => passage pass below
  | filter _ rule seen below => filter pass rule seen below

/-- How many sequences a tower is made of. -/
def height : Tower → Nat
  | ground .. => 1
  | passage _ below | filter _ _ _ below => below.height + 1

/-- The tower once it was asked for an element. -/
def begun (tower : Tower) : Tower := tower.withPass { tower.pass with started := true }

/-- The tower once its topmost sequence met the end. -/
def finish : Tower → Tower
  | ground pass origin => ground { pass with exhausted := true } origin.release
  | passage pass below => passage { pass with exhausted := true } below
  | filter pass rule _ below => filter { pass with exhausted := true } rule .empty below

/-- What a pull comes to: a fault that signals the end finishes the tower. -/
def settle : Draw × Tower → Draw × Tower
  | (.ok item, tower) => (.ok item, tower)
  | (.error fault, tower) => (.error fault, if fault.isEnd then tower.finish else tower)

mutual

/-- Hands out the next element: the one that was peeked at, or else one that is pulled. -/
def next : Nat → Tower → Option (Draw × Tower)
  | 0, _ => none
  | n + 1, tower =>
    match tower.pass.peeked with
    | some item => some (.ok item, tower.withPass { tower.pass with peeked := none })
    | none =>
      if tower.pass.exhausted then some (.error .ended, tower)
      else (pull n tower.begun).map settle

/-- Gets the next element from what the topmost sequence is made of. -/
def pull : Nat → Tower → Option (Draw × Tower)
  | 0, _ => none
  | n + 1, ground pass origin => (origin.draw n).map fun drawn => (drawn.1, ground pass drawn.2)
  | n + 1, passage pass below => (next n below).map fun drawn => (drawn.1, passage pass drawn.2)
  | n + 1, filter pass rule seen below =>
    match next n below with
    | none => none
    | some (.error fault, below) => some (.error fault, filter pass rule seen below)
    | some (.ok item, below) =>
      match rule.judge seen item with
      | (.error fault, seen) => some (.error fault, filter pass rule seen below)
      | (.ok true, seen) => some (.ok item, filter pass rule seen below)
      | (.ok false, seen) => pull n (filter pass rule seen below)

end

/-- Takes a tower back to its beginning, from the ground up: the fault by which this fails, if it does.
Sequences above the one that fails stay as they are. -/
def rewind : Tower → Option Fault × Tower
  | ground pass origin =>
    match origin.reset pass.started with
    | (some fault, origin) => (some fault, ground pass origin)
    | (none, origin) => (none, ground {} origin)
  | passage pass below =>
    match below.rewind with
    | (some fault, below) => (some fault, passage pass below)
    | (none, below) => (none, passage {} below)
  | filter pass rule seen below =>
    match below.rewind with
    | (some fault, below) => (some fault, filter pass rule seen below)
    | (none, below) => (none, filter {} rule .empty below)

/-- The size that a tower reports. -/
def size : Tower → Except Fault Value
  | ground _ origin => origin.size
  | passage _ below => below.size
  | filter .. => .ok .null

/-- Filters in turn on top of a tower. -/
def filters (rules : List Rule) (below : Tower) : Tower :=
  rules.foldl (fun tower rule => filter {} rule .empty tower) below

end Tower

/-- Gathers what is drawn up to the end, after what was gathered already, latest first. -/
def gatherBy {σ : Type} (draw : Nat → σ → Option (Draw × σ)) :
    Nat → σ → List Item → Option (Except Fault (List Item) × σ)
  | 0, _, _ => none
  | n + 1, state, earlier =>
    match draw n state with
    | none => none
    | some (.ok item, state) => gatherBy draw n state (item :: earlier)
    | some (.error fault, state) =>
      some (if fault.isEnd then .ok earlier.reverse else .error fault, state)

namespace Tower

/-! ## The topmost sequence -/

@[simp] theorem pass_withPass (tower : Tower) (pass : Pass) : (tower.withPass pass).pass = pass := by
  cases tower <;> rfl

@[simp] theorem withPass_withPass (tower : Tower) (pass pass' : Pass) :
    (tower.withPass pass).withPass pass' = tower.withPass pass' := by
  cases tower <;> rfl

@[simp] theorem withPass_pass (tower : Tower) : tower.withPass tower.pass = tower := by
  cases tower <;> rfl

@[simp] theorem height_withPass (tower : Tower) (pass : Pass) :
    (tower.withPass pass).height = tower.height := by
  cases tower <;> rfl

@[simp] theorem height_begun (tower : Tower) : tower.begun.height = tower.height :=
  height_withPass tower _

@[simp] theorem height_finish (tower : Tower) : tower.finish.height = tower.height := by
  cases tower <;> rfl

/-! ## Runs -/

/-- What holds of every call that ends holds of every step that such a call is made of: `R` of asking a tower
for its next element and `S` of pulling from below its topmost sequence. -/
theorem run_induction {R S : Tower → Draw → Tower → Prop}
    (peeked : ∀ tower item, tower.pass.peeked = some item →
      R tower (.ok item) (tower.withPass { tower.pass with peeked := none }))
    (spent : ∀ tower, tower.pass.peeked = none → tower.pass.exhausted = true →
      R tower (.error .ended) tower)
    (settled : ∀ tower told left, tower.pass.peeked = none → tower.pass.exhausted = false →
      S tower.begun told left → R tower (settle (told, left)).1 (settle (told, left)).2)
    (ground : ∀ pass origin n told left, origin.draw n = some (told, left) →
      S (ground pass origin) told (ground pass left))
    (passage : ∀ pass below told left, R below told left → S (passage pass below) told (passage pass left))
    (failed : ∀ pass rule seen below fault left, R below (.error fault) left →
      S (filter pass rule seen below) (.error fault) (filter pass rule seen left))
    (judged : ∀ pass rule seen below item left, R below (.ok item) left →
      (∀ fault, (rule.judge seen item).1 = .error fault →
        S (filter pass rule seen below) (.error fault) (filter pass rule (rule.judge seen item).2 left)) ∧
      ((rule.judge seen item).1 = .ok true →
        S (filter pass rule seen below) (.ok item) (filter pass rule (rule.judge seen item).2 left)) ∧
      ∀ told last, (rule.judge seen item).1 = .ok false →
        S (filter pass rule (rule.judge seen item).2 left) told last →
        S (filter pass rule seen below) told last)
    (n : Nat) :
    (∀ tower told left, next n tower = some (told, left) → R tower told left) ∧
      ∀ tower told left, pull n tower = some (told, left) → S tower told left := by
  induction n with
  | zero => exact ⟨fun _ _ _ h => by simp [next] at h, fun _ _ _ h => by simp [pull] at h⟩
  | succ n ih =>
    obtain ⟨ihNext, ihPull⟩ := ih
    refine ⟨fun tower told left h => ?_, fun tower told left h => ?_⟩
    · rw [next] at h
      cases found : tower.pass.peeked with
      | some item =>
        simp only [found, Option.some.injEq, Prod.mk.injEq] at h
        obtain ⟨rfl, rfl⟩ := h
        exact peeked tower item found
      | none =>
        simp only [found] at h
        by_cases exhausted : tower.pass.exhausted
        · rw [if_pos exhausted] at h
          simp only [Option.some.injEq, Prod.mk.injEq] at h
          obtain ⟨rfl, rfl⟩ := h
          exact spent tower found exhausted
        · rw [if_neg exhausted] at h
          obtain ⟨⟨drawn, rest⟩, ends, same⟩ := Option.map_eq_some_iff.mp h
          have result := settled tower drawn rest found (by simpa using exhausted) (ihPull _ _ _ ends)
          rw [same] at result
          exact result
    · cases tower with
      | ground pass origin =>
        rw [pull] at h
        obtain ⟨⟨drawn, rest⟩, ends, same⟩ := Option.map_eq_some_iff.mp h
        obtain ⟨rfl, rfl⟩ := Prod.mk.inj same
        exact ground pass origin n drawn rest ends
      | passage pass below =>
        rw [pull] at h
        obtain ⟨⟨drawn, rest⟩, ends, same⟩ := Option.map_eq_some_iff.mp h
        obtain ⟨rfl, rfl⟩ := Prod.mk.inj same
        exact passage pass below drawn rest (ihNext _ _ _ ends)
      | filter pass rule seen below =>
        rw [pull] at h
        rcases drawn : next n below with _ | ⟨fault | item, below'⟩
        · simp [drawn] at h
        · simp only [drawn, Option.some.injEq, Prod.mk.injEq] at h
          obtain ⟨rfl, rfl⟩ := h
          exact failed pass rule seen below fault below' (ihNext _ _ _ drawn)
        · obtain ⟨fails, fresh, repeated⟩ := judged pass rule seen below item below' (ihNext _ _ _ drawn)
          rw [drawn] at h
          rcases verdict : rule.judge seen item with ⟨fault | _ | _, seen'⟩ <;>
            simp only [verdict] at h fails fresh repeated
          · simp only [Option.some.injEq, Prod.mk.injEq] at h
            obtain ⟨rfl, rfl⟩ := h
            exact fails fault rfl
          · exact repeated told left trivial (ihPull _ _ _ h)
          · simp only [Option.some.injEq, Prod.mk.injEq] at h
            obtain ⟨rfl, rfl⟩ := h
            exact fresh trivial

/-- What a pull comes to is as high as the tower that it left. -/
theorem height_settle (told : Draw) (left : Tower) : (settle (told, left)).2.height = left.height := by
  cases told with
  | ok item => rfl
  | error fault =>
    simp only [settle]
    split
    · exact height_finish left
    · rfl

/-- A tower stays as high as it is. -/
theorem height_next {n : Nat} {tower left : Tower} {told : Draw} (h : next n tower = some (told, left)) :
    left.height = tower.height := by
  refine (run_induction (R := fun tower _ left => left.height = tower.height)
    (S := fun tower _ left => left.height = tower.height) ?_ ?_ ?_ ?_ ?_ ?_ ?_ n).1 _ _ _ h
  · exact fun tower item _ => height_withPass tower _
  · exact fun _ _ _ => rfl
  · exact fun tower told left _ _ same => (height_settle told left).trans (same.trans (height_begun tower))
  · exact fun _ _ _ _ _ _ => rfl
  · exact fun pass below told left same => congrArg (· + 1) same
  · exact fun pass rule seen below fault left same => congrArg (· + 1) same
  · exact fun pass rule seen below item left same => ⟨fun _ _ => congrArg (· + 1) same,
      fun _ => congrArg (· + 1) same, fun told last _ rest => rest.trans (congrArg (· + 1) same)⟩

theorem height_rewind (tower : Tower) : tower.rewind.2.height = tower.height := by
  induction tower with
  | ground pass origin =>
    rw [rewind]
    split <;> rfl
  | passage pass below ih | filter pass rule seen below ih =>
    rw [rewind]
    split <;> rename_i rewinds <;> rw [rewinds] at ih <;> exact congrArg (· + 1) ih

/-! ## Depth -/

/-- What ends at a depth ends in the same way one call deeper. -/
theorem next_pull_succ (n : Nat) :
    (∀ (tower : Tower) (drawn : Draw × Tower), next n tower = some drawn →
      next (n + 1) tower = some drawn) ∧
    ∀ (tower : Tower) (drawn : Draw × Tower), pull n tower = some drawn →
      pull (n + 1) tower = some drawn := by
  induction n with
  | zero => exact ⟨fun _ _ h => by simp [next] at h, fun _ _ h => by simp [pull] at h⟩
  | succ n ih =>
    obtain ⟨ihNext, ihPull⟩ := ih
    refine ⟨fun tower drawn h => ?_, fun tower drawn h => ?_⟩
    · rw [next] at h ⊢
      cases peeked : tower.pass.peeked with
      | some item => simpa [peeked] using h
      | none =>
        simp only [peeked] at h ⊢
        by_cases exhausted : tower.pass.exhausted
        · rwa [if_pos exhausted] at h ⊢
        · rw [if_neg exhausted] at h ⊢
          obtain ⟨pulled, ends, rfl⟩ := Option.map_eq_some_iff.mp h
          rw [ihPull _ _ ends]
          rfl
    · cases tower with
      | ground pass origin =>
        rw [pull] at h ⊢
        obtain ⟨drawn, ends, rfl⟩ := Option.map_eq_some_iff.mp h
        rw [Origin.draw_mono ends]
        rfl
      | passage pass below =>
        rw [pull] at h ⊢
        obtain ⟨drawn, ends, rfl⟩ := Option.map_eq_some_iff.mp h
        rw [ihNext _ _ ends]
        rfl
      | filter pass rule seen below =>
        rw [pull] at h ⊢
        cases drawn' : next n below with
        | none => simp [drawn'] at h
        | some pair =>
          rw [ihNext _ _ drawn']
          simp only [drawn'] at h
          obtain ⟨fault | item, below'⟩ := pair
          · exact h
          · simp only at h ⊢
            rcases judged : rule.judge seen item with ⟨fault | _ | _, seen'⟩
            · simpa [judged] using h
            · simp only [judged] at h ⊢
              exact ihPull _ _ h
            · simpa [judged] using h

/-- A call that ends does so in the same way at any greater depth. -/
theorem next_mono {n m : Nat} {tower : Tower} {drawn : Draw × Tower} (le : n ≤ m)
    (h : next n tower = some drawn) : next m tower = some drawn := by
  induction le with
  | refl => exact h
  | step _ ih => exact (next_pull_succ _).1 _ _ ih

/-- A pull that ends does so in the same way at any greater depth. -/
theorem pull_mono {n m : Nat} {tower : Tower} {drawn : Draw × Tower} (le : n ≤ m)
    (h : pull n tower = some drawn) : pull m tower = some drawn := by
  induction le with
  | refl => exact h
  | step _ ih => exact (next_pull_succ _).2 _ _ ih

end Tower

end FirstSeen
