import FirstSeen.Proofs.Tower.Surfacing

/-!
# What a tower lifts

The filters of a tower, from the ground up, are stages that *sieve* the elements of the tape at its ground. The
fate of an element depends only on the stages and on what they remember: it is dropped by the first stage that
has seen its key, gets to the top if there is none, or meets a fault on the way. What a calm tower lifts is
therefore told by its tape and its stages.
-/

set_option autoImplicit false

namespace FirstSeen

/-! ## Stages -/

/-- A distinct stage: how it judges elements, and what it remembers. -/
structure Stage where
  rule : Rule
  seen : Seen

namespace Stage

/-- Whether an element is fresh to a stage, and the stage from then on. -/
def judge (stage : Stage) (item : Item) : Except Fault Bool × Stage :=
  ((stage.rule.judge stage.seen item).1, { stage with seen := (stage.rule.judge stage.seen item).2 })

/-- The fate of an element that goes up through stages, and the stages from then on. -/
def sieve : List Stage → Item → Except Fault Bool × List Stage
  | [], _ => (.ok true, [])
  | stage :: rest, item =>
    match stage.judge item with
    | (.ok true, stage) => ((sieve rest item).1, stage :: (sieve rest item).2)
    | (verdict, stage) => (verdict, stage :: rest)

/-- How many stages judge an element that goes up through them. -/
def reached : List Stage → Item → Nat
  | [], _ => 0
  | stage :: rest, item =>
    match (stage.judge item).1 with
    | .ok true => reached rest item + 1
    | _ => 1

/-- The stages after elements went up through them in turn. -/
def sieveAll (stages : List Stage) (items : List Item) : List Stage :=
  items.foldl (fun stages item => (sieve stages item).2) stages

/-- The elements that get to the top among those that go up in turn. -/
def outputs : List Stage → List Item → List Item
  | _, [] => []
  | stages, item :: rest =>
    match sieve stages item with
    | (.ok true, stages) => item :: outputs stages rest
    | (_, stages) => outputs stages rest

/-- Whether no element that goes up meets a fault. -/
def Smooth : List Stage → List Item → Prop
  | _, [] => True
  | stages, item :: rest => (∃ fresh, (sieve stages item).1 = .ok fresh) ∧ Smooth (sieve stages item).2 rest

/-- The last stage judges the elements that get through the others. -/
theorem sieve_snoc (stages : List Stage) (stage : Stage) (item : Item) :
    sieve (stages ++ [stage]) item =
      match sieve stages item with
      | (.ok true, stages) => ((stage.judge item).1, stages ++ [(stage.judge item).2])
      | (verdict, stages) => (verdict, stages ++ [stage]) := by
  induction stages with
  | nil =>
    simp only [List.nil_append, sieve]
    rcases stage.judge item with ⟨_ | _ | _, after⟩ <;> rfl
  | cons first rest ih =>
    simp only [List.cons_append, sieve, ih]
    rcases first.judge item with ⟨_ | _ | _, after⟩
    · rfl
    · rfl
    · rcases sieve rest item with ⟨_ | _ | _, others⟩ <;> rfl

/-- The last stage is reached by the elements that get through the others. -/
theorem reached_snoc (stages : List Stage) (stage : Stage) (item : Item) :
    reached (stages ++ [stage]) item =
      match (sieve stages item).1 with
      | .ok true => stages.length + 1
      | _ => reached stages item := by
  induction stages with
  | nil =>
    simp only [List.nil_append, reached, sieve]
    rcases (stage.judge item).1 with _ | _ | _ <;> rfl
  | cons first rest ih =>
    simp only [List.cons_append, reached, sieve, ih]
    rcases first.judge item with ⟨_ | _ | _, after⟩
    · rfl
    · rfl
    · rcases sieve rest item with ⟨_ | _ | _, others⟩ <;> rfl

/-- An element that gets to the top is judged by all stages. -/
theorem reached_of_fresh {stages : List Stage} {item : Item} (fresh : (sieve stages item).1 = .ok true) :
    reached stages item = stages.length := by
  induction stages with
  | nil => rfl
  | cons first rest ih =>
    rw [sieve] at fresh
    rw [reached]
    rcases judged : first.judge item with ⟨_ | _ | _, after⟩ <;> rw [judged] at fresh <;> simp only at fresh
    · cases fresh
    · cases fresh
    · simp only [ih fresh, List.length_cons]

theorem reached_le (stages : List Stage) (item : Item) : reached stages item ≤ stages.length := by
  induction stages with
  | nil => exact Nat.le_refl _
  | cons first rest ih =>
    rw [reached, List.length_cons]
    split <;> omega

end Stage

/-! ## The stages and the tape of a tower -/

namespace Tower

/-- The filters of a tower as stages, from the ground up. -/
def stages : Tower → List Stage
  | ground .. => []
  | passage _ below => below.stages
  | filter _ rule seen below => below.stages ++ [⟨rule, seen⟩]

/-- How high the towers below the filters are, from the ground up. -/
def heights : Tower → List Nat
  | ground .. => []
  | passage _ below => below.heights
  | filter _ _ _ below => below.heights ++ [below.height]

/-- The tape that the next draw of a tower moves on, if there is one. -/
def source : Tower → Option Tape
  | ground _ origin => origin.current
  | passage _ below | filter _ _ _ below => below.source

theorem length_heights (tower : Tower) : tower.heights.length = tower.stages.length := by
  induction tower with
  | ground pass origin => rfl
  | passage pass below ih => exact ih
  | filter pass rule seen below ih => simp [heights, stages, ih]

/-- What was done to lift an element: the ground was drawn from, and the element judged as far up as it got. -/
def deedsFor (tower : Tower) (item : Item) : List Deed :=
  .drew :: (tower.heights.take (Stage.reached tower.stages item)).map (.judged · item)

/-- Where a calm tower is after it lifted an element: its stages have judged it, and its tape has moved on. -/
structure LeftBy (left : Tower) (tower : Tower) (tape : Tape) (stages : List Stage) : Prop where
  source : left.source = some tape
  stages : left.stages = stages
  heights : left.heights = tower.heights
  height : left.height = tower.height
  calm : left.Calm

/-- The draw of an origin moves on its tape. -/
theorem taken_current {origin : Origin} {tape : Tape} (current : origin.current = some tape) :
    origin.taken.1 = tape.step.1 ∧ origin.taken.2.current = some tape.step.2 :=
  Origin.draw_current (n := 1) current (Origin.draw_succ 0 origin)

/-- A fault that signals no end changes nothing. -/
theorem halted_of_not_end {fault : Fault} (noEnd : fault.isEnd = false) (tower : Tower) :
    halted fault tower = tower := by
  rw [halted, noEnd]
  rfl

section Layers

variable {left below : Tower} {tape : Tape} {stages : List Stage} {pass : Pass}

theorem LeftBy.passage (leaves : left.LeftBy below tape stages) (calm : pass.peeked = none ∧ pass.exhausted = false) :
    LeftBy (.passage { pass with started := true } left) (.passage pass below) tape stages :=
  ⟨leaves.source, leaves.stages, leaves.heights, congrArg (· + 1) leaves.height, calm, leaves.calm⟩

theorem LeftBy.filter (leaves : left.LeftBy below tape stages) (calm : pass.peeked = none ∧ pass.exhausted = false)
    (rule : Rule) (seen after : Seen) :
    LeftBy (.filter { pass with started := true } rule after left) (.filter pass rule seen below) tape
      (stages ++ [⟨rule, after⟩]) := by
  refine ⟨leaves.source, ?_, ?_, congrArg (· + 1) leaves.height, calm, leaves.calm⟩
  · rw [Tower.stages, leaves.stages]
  · change left.heights ++ [left.height] = below.heights ++ [below.height]
    rw [leaves.heights, leaves.height]

end Layers

/-- The element that the tape of a calm tower hands out meets its fate in the stages. A fault that it meets may
finish the sequences above only if it signals an end. -/
theorem lift_item {tower : Tower} {tape moved : Tape} {item : Item} (calm : tower.Calm)
    (source : tower.source = some tape) (hands : tape.step = (.ok item, moved)) :
    ∃ left, tower.lift =
        ((Stage.sieve tower.stages item).1.map fun fresh => (item, fresh), tower.deedsFor item, left) ∧
      ((∀ fault, (Stage.sieve tower.stages item).1 = .error fault → fault.isEnd = false) →
        left.LeftBy tower moved (Stage.sieve tower.stages item).2) := by
  induction tower with
  | ground pass origin =>
    obtain ⟨told, current⟩ := taken_current source
    rw [hands] at told current
    refine ⟨ground { pass with started := true } origin.taken.2, ?_, fun _ => ⟨current, rfl, rfl, rfl, calm⟩⟩
    rw [lift]
    rcases taken : origin.taken with ⟨drawn, left⟩
    rw [taken] at told
    cases told
    rfl
  | passage pass below ih =>
    obtain ⟨left, lifts, leaves⟩ := ih calm.2 source
    rw [lift, lifts]
    simp only [stages, deedsFor, heights]
    generalize Stage.sieve below.stages item = sieved at leaves
    rcases sieved with ⟨fault | fresh, after⟩
    · refine ⟨_, rfl, fun noEnd => ?_⟩
      rw [halted_of_not_end (noEnd fault rfl)]
      exact (leaves noEnd).passage calm.1
    · exact ⟨_, rfl, fun noEnd => (leaves noEnd).passage calm.1⟩
  | filter pass rule seen below ih =>
    obtain ⟨left, lifts, leaves⟩ := ih calm.2 source
    have all : below.heights.take below.stages.length = below.heights := by
      rw [← length_heights, List.take_length]
    have few : below.heights.length = below.stages.length := length_heights below
    rw [lift, lifts]
    simp only [stages, deedsFor, heights, Stage.sieve_snoc, Stage.reached_snoc]
    have reached := @Stage.reached_of_fresh below.stages item
    have fewer : (below.heights ++ [below.height]).take (Stage.reached below.stages item) =
        below.heights.take (Stage.reached below.stages item) :=
      List.take_append_of_le_length (few ▸ Stage.reached_le below.stages item)
    generalize Stage.sieve below.stages item = sieved at leaves reached
    rcases sieved with ⟨fault | _ | _, after⟩
    · simp only [fewer]
      refine ⟨_, rfl, fun noEnd => ?_⟩
      rw [halted_of_not_end (noEnd fault rfl)]
      exact (leaves noEnd).filter calm.1 rule seen seen
    · simp only [fewer]
      exact ⟨_, rfl, fun noEnd => (leaves noEnd).filter calm.1 rule seen seen⟩
    · specialize leaves fun fault fails => by cases fails
      specialize reached rfl
      have whole : (below.heights ++ [below.height]).take (below.stages.length + 1) =
          below.heights ++ [below.height] := List.take_of_length_le (by simp [few])
      simp only [reached, all, whole, Stage.judge, List.map_append, List.map_cons, List.map_nil, Except.map]
      rcases rule.judge seen item with ⟨fault | fresh, seen'⟩
      · refine ⟨_, rfl, fun noEnd => ?_⟩
        rw [halted_of_not_end (noEnd fault rfl)]
        exact leaves.filter calm.1 rule seen seen'
      · exact ⟨_, rfl, fun _ => leaves.filter calm.1 rule seen seen'⟩

/-- A fault of the tape of a calm tower goes all the way up, and leaves the tower calm unless it signals the
end. -/
theorem lift_fault {tower : Tower} {tape moved : Tape} {fault : Fault} (calm : tower.Calm)
    (source : tower.source = some tape) (fails : tape.step = (.error fault, moved)) :
    ∃ left, tower.lift = (.error fault, [.drew], left) ∧
      (fault.isEnd = false → left.LeftBy tower moved tower.stages) ∧
      (fault.isEnd = true → left.pass.peeked = none ∧ left.pass.exhausted = true) := by
  have spent : ∀ tower : Tower, tower.pass.peeked = none → fault.isEnd = true →
      (halted fault tower).pass.peeked = none ∧ (halted fault tower).pass.exhausted = true := by
    intro tower unpeeked ended
    rw [halted, if_pos ended, (peeked_finish tower).1]
    exact ⟨unpeeked, (peeked_finish tower).2⟩
  induction tower with
  | ground pass origin =>
    obtain ⟨told, current⟩ := taken_current source
    rw [fails] at told current
    refine ⟨halted fault (ground { pass with started := true } origin.taken.2), ?_, fun noEnd => ?_, ?_⟩
    · rw [lift]
      rcases taken : origin.taken with ⟨drawn, left⟩
      rw [taken] at told
      cases told
      rfl
    · rw [halted_of_not_end noEnd]
      exact ⟨current, rfl, rfl, rfl, calm⟩
    · exact spent _ calm.1
  | passage pass below ih =>
    obtain ⟨left, lifts, leaves, -⟩ := ih calm.2 source
    refine ⟨halted fault (passage { pass with started := true } left), by rw [lift, lifts], fun noEnd => ?_, ?_⟩
    · rw [halted_of_not_end noEnd]
      exact (leaves noEnd).passage calm.1
    · exact spent _ calm.1.1
  | filter pass rule seen below ih =>
    obtain ⟨left, lifts, leaves, -⟩ := ih calm.2 source
    refine ⟨halted fault (filter { pass with started := true } rule seen left), by rw [lift, lifts],
      fun noEnd => ?_, ?_⟩
    · rw [halted_of_not_end noEnd]
      exact (leaves noEnd).filter calm.1 rule seen seen
    · exact spent _ calm.1.1

end Tower

/-! ## Gathering -/

/-- What is gathered does not depend on how many calls are allowed beyond those it takes. -/
theorem gatherBy_mono {σ : Type} {draw : Nat → σ → Option (Draw × σ)}
    (mono : ∀ (n m : Nat) (state : σ) (drawn : Draw × σ), n ≤ m → draw n state = some drawn →
      draw m state = some drawn)
    {n m : Nat} (le : n ≤ m) {state : σ} {earlier : List Item} {result : Except Fault (List Item) × σ}
    (ends : gatherBy draw n state earlier = some result) : gatherBy draw m state earlier = some result := by
  induction n generalizing m state earlier with
  | zero => cases ends
  | succ n ih =>
    obtain ⟨m, rfl⟩ : ∃ k, m = k + 1 := ⟨m - 1, by omega⟩
    rw [gatherBy] at ends ⊢
    rcases drawn : draw n state with _ | ⟨fault | item, left⟩ <;> rw [drawn] at ends
    · cases ends
    · rw [mono n m _ _ (by omega) drawn]
      exact ends
    · rw [mono n m _ _ (by omega) drawn]
      exact ih (by omega) ends

namespace Tower

/-- What surfaces of a tower in turn, up to an end. -/
inductive Collects : Tower → List Item → Prop
  | ended {tower left : Tower} {deeds : List Deed} {fault : Fault} (signals : fault.isEnd = true)
      (surfaces : Surfaces tower deeds (.error fault) left) : Collects tower []
  | more {tower left : Tower} {deeds : List Deed} {item : Item} {rest : List Item}
      (surfaces : Surfaces tower deeds (.ok item) left) (others : Collects left rest) :
      Collects tower (item :: rest)

/-- An element that is dropped makes no difference to what surfaces. -/
theorem Collects.dropped {tower between : Tower} {deeds : List Deed} {item : Item} {items : List Item}
    (collects : Collects between items) (lifts : tower.lift = (.ok (item, false), deeds, between)) :
    Collects tower items := by
  cases collects with
  | ended signals surfaces => exact .ended signals (.dropped lifts surfaces)
  | more surfaces others => exact .more (.dropped lifts surfaces) others

theorem gather_mono {n m : Nat} (le : n ≤ m) {tower : Tower} {earlier : List Item}
    {result : Except Fault (List Item) × Tower} (ends : gatherBy next n tower earlier = some result) :
    gatherBy next m tower earlier = some result := by
  have mono : ∀ n m tower drawn, n ≤ m → next n tower = some drawn → next m tower = some drawn :=
    fun _ _ _ _ => next_mono
  exact gatherBy_mono mono le ends

/-- What surfaces of a calm tower in turn can be gathered. -/
theorem Collects.gather {tower : Tower} {items earlier : List Item} (collects : Collects tower items)
    (calm : tower.Calm) :
    ∃ n left, gatherBy next n tower earlier = some (.ok (earlier.reverse ++ items), left) := by
  induction collects generalizing earlier with
  | @ended tower left deeds fault signals surfaces =>
    obtain ⟨n, ends⟩ := surfaces_next calm surfaces
    refine ⟨n + 1, left, ?_⟩
    simp only [gatherBy, ends, signals, if_true, List.append_nil]
  | @more tower left deeds item rest surfaces others ih =>
    obtain ⟨n, ends⟩ := surfaces_next calm surfaces
    obtain ⟨m, last, gathers⟩ := @ih (item :: earlier) (surfaces.calm calm)
    have rest := gather_mono (Nat.le_max_right n m) gathers
    refine ⟨max n m + 1, last, ?_⟩
    simp only [gatherBy, next_mono (Nat.le_max_left n m) ends, rest]
    simp

/-- Of a calm tower whose tape comes to an end surfaces what the stages let through, if nothing fails on the
way. -/
theorem collects_outputs {tower : Tower} {tape last : Tape} {items : List Item} (calm : tower.Calm)
    (source : tower.source = some tape) (reaches : tape.Reaches items last) (ended : last.Ended)
    (smooth : Stage.Smooth tower.stages items) : Collects tower (Stage.outputs tower.stages items) := by
  induction items generalizing tower tape with
  | nil =>
    obtain rfl : tape = last := reaches
    obtain ⟨left, lifts, -⟩ := lift_fault calm source (Prod.ext ended rfl)
    exact .ended rfl (.failed lifts)
  | cons item rest ih =>
    obtain ⟨⟨fresh, judged⟩, smooth⟩ := smooth
    obtain ⟨left, lifts, leaves⟩ := lift_item calm source (Prod.ext reaches.1 rfl)
    obtain ⟨source', stages', -, -, calm'⟩ := leaves fun fault fails => by rw [judged] at fails; cases fails
    have others := ih calm' source' reaches.2 (stages' ▸ smooth)
    rw [stages'] at others
    rw [judged] at lifts
    rw [Stage.outputs]
    rcases sieved : Stage.sieve tower.stages item with ⟨verdict, after⟩
    rw [sieved] at judged others
    obtain rfl : verdict = .ok fresh := judged
    cases fresh with
    | true => exact .more (.fresh lifts) others
    | false => exact others.dropped lifts

end Tower

end FirstSeen
