import FirstSeen.Proofs.History.Keeping

/-!
# Scenes that simulate each other

If one tower does whatever another one does, with a few calls more, then a scene of the one does whatever a
scene of the other does: the streams of both are where they are because of what was drawn for them. Streams that
differ may stay different as long as nobody asks them.
-/

set_option autoImplicit false

namespace FirstSeen

/-- Whether an operation asks only streams of a kind. -/
def Op.Asks (live : Nat → Prop) (op : Op) : Prop :=
  ∀ i, op = .pull i ∨ op = .drain i → live i

namespace Tower

/-- Whether related towers look the same, and the second one does what the first one does, with some more
calls. -/
structure Simulates (rel : Tower → Tower → Prop) (more : Nat) : Prop where
  next : ∀ n tower other told left, rel tower other → Tower.next n tower = some (told, left) →
    ∃ left', Tower.next (n + more) other = some (told, left') ∧ rel left left'
  pass : ∀ tower other, rel tower other → other.pass = tower.pass
  repass : ∀ tower other pass, rel tower other → rel (tower.withPass pass) (other.withPass pass)
  rewind : ∀ tower other, rel tower other →
    other.rewind.1 = tower.rewind.1 ∧ rel tower.rewind.2 other.rewind.2
  size : ∀ tower other, rel tower other → other.size = tower.size

namespace Simulates

variable {rel : Tower → Tower → Prop} {more : Nat} {tower other : Tower}

theorem restart (simulates : Simulates rel more) (related : rel tower other) :
    other.restart.1 = tower.restart.1 ∧ rel tower.restart.2 other.restart.2 := by
  rw [Tower.restart, Tower.restart, simulates.pass _ _ related]
  split
  · exact simulates.rewind _ _ related
  · exact ⟨rfl, related⟩

theorem peek (simulates : Simulates rel more) {n : Nat} {told : Draw} {left : Tower} (related : rel tower other)
    (ends : tower.peek n = some (told, left)) :
    ∃ left', other.peek (n + more) = some (told, left') ∧ rel left left' := by
  rw [Tower.peek] at ends ⊢
  rw [simulates.pass _ _ related]
  split at ends
  · cases ends
    exact ⟨other, rfl, related⟩
  · obtain ⟨⟨drawn, between⟩, asked, same⟩ := Option.map_eq_some_iff.mp ends
    obtain ⟨between', asked', related'⟩ := simulates.next _ _ _ _ _ related asked
    rw [asked', Option.map_some]
    cases drawn with
    | error fault =>
      cases same
      exact ⟨between', rfl, related'⟩
    | ok item =>
      cases same
      rw [← simulates.pass _ _ related']
      exact ⟨_, rfl, simulates.repass _ _ _ related'⟩

theorem force (simulates : Simulates rel more) {n : Nat} {told : Except Fault (List Item)} {left : Tower}
    (related : rel tower other) (ends : tower.force n = some (told, left)) :
    ∃ left', other.force (n + more) = some (told, left') ∧ rel left left' := by
  obtain ⟨same, related'⟩ := simulates.restart related
  rw [Tower.force] at ends ⊢
  rcases restarts : tower.restart with ⟨fault, between⟩
  rcases restarts' : other.restart with ⟨fault', between'⟩
  rw [restarts] at ends same related'
  rw [restarts'] at same related'
  obtain rfl : fault' = fault := same
  cases fault' with
  | some fault =>
    cases ends
    exact ⟨between', rfl, related'⟩
  | none => exact gatherBy_simulates simulates.next n related' ends

end Simulates

/-- Towers that are the same simulate each other. -/
theorem simulates_of_eq {rel : Tower → Tower → Prop} (same : ∀ tower other, rel tower other ↔ tower = other) :
    Simulates rel 0 where
  next n tower other told left related ends := by
    obtain rfl := (same _ _).mp related
    exact ⟨left, ends, (same _ _).mpr rfl⟩
  pass tower other related := by rw [(same _ _).mp related]
  repass tower other pass related := by
    obtain rfl := (same _ _).mp related
    exact (same _ _).mpr rfl
  rewind tower other related := by
    obtain rfl := (same _ _).mp related
    exact ⟨rfl, (same _ _).mpr rfl⟩
  size tower other related := by rw [(same _ _).mp related]

end Tower

namespace Scene

/-- Whether the towers of two scenes are related, and those of their streams that may be asked are at the same
place. -/
structure Matches (rel : Tower → Tower → Prop) (live : Nat → Prop) (scene other : Scene) : Prop where
  tower : rel scene.tower other.tower
  many : scene.streams.length = other.streams.length
  streams : ∀ i, live i → scene.streams[i]? = other.streams[i]?

variable {rel : Tower → Tower → Prop} {more : Nat} {live : Nat → Prop}

/-- Related towers without streams match. -/
theorem matches_begun (live : Nat → Prop) {tower other : Tower} (related : rel tower other) :
    (Scene.mk tower []).Matches rel live ⟨other, []⟩ := ⟨related, rfl, fun _ _ => rfl⟩

/-- What is drawn for a stream leaves scenes that match. -/
theorem matches_hand {scene other : Scene} {left left' : Tower} (agrees : scene.Matches rel live other)
    (related : rel left left') (i : Nat) (told : Draw) :
    (hand other.streams i (told, left')).1 = (hand scene.streams i (told, left)).1 ∧
      (hand scene.streams i (told, left)).2.Matches rel live (hand other.streams i (told, left')).2 := by
  have set : ∀ course : Course, (Scene.mk left (scene.streams.set i course)).Matches rel live
      ⟨left', other.streams.set i course⟩ := by
    refine fun course => ⟨related, by simpa using agrees.many, fun j there => ?_⟩
    rw [List.getElem?_set, List.getElem?_set, agrees.many, agrees.streams j there]
  cases told with
  | error fault => exact ⟨rfl, set .spent⟩
  | ok item => exact ⟨rfl, set .drawing⟩

/-- Asking a stream that is where it is in the other scene ends in the same way. -/
theorem matches_advance (simulates : Tower.Simulates rel more) {n i : Nat} {scene other left : Scene} {told : Draw}
    (there : live i) (agrees : scene.Matches rel live other) (ends : scene.advance i n = some (told, left)) :
    ∃ left', other.advance i (n + more) = some (told, left') ∧ left.Matches rel live left' := by
  cases n with
  | zero => cases ends
  | succ n =>
    have handed : ∀ tower tower' : Tower, rel tower tower' →
        (tower.next n).map (hand scene.streams i) = some (told, left) →
        ∃ left', (tower'.next (n + more)).map (hand other.streams i) = some (told, left') ∧
          left.Matches rel live left' := by
      intro tower tower' related ends
      obtain ⟨⟨drawn, between⟩, asked, same⟩ := Option.map_eq_some_iff.mp ends
      obtain ⟨between', asked', related'⟩ := simulates.next _ _ _ _ _ related asked
      obtain ⟨told', agrees'⟩ := matches_hand agrees related' i drawn
      rw [same] at told' agrees'
      refine ⟨(hand other.streams i (drawn, between')).2, ?_, agrees'⟩
      rw [asked', Option.map_some]
      exact congrArg some (Prod.ext told' rfl)
    rw [Nat.add_right_comm]
    rw [advance] at ends ⊢
    rw [← agrees.streams i there]
    split at ends
    · cases ends
      exact ⟨other, rfl, agrees⟩
    · cases ends
      exact ⟨other, rfl, agrees⟩
    · exact handed _ _ agrees.tower ends
    · obtain ⟨same, related⟩ := simulates.restart agrees.tower
      rcases restarts : scene.tower.restart with ⟨fault, between⟩
      rcases restarts' : other.tower.restart with ⟨fault', between'⟩
      rw [restarts] at ends same related
      rw [restarts'] at same related
      obtain rfl : fault' = fault := same
      cases fault' with
      | some fault =>
        have spent := (matches_hand agrees related i (.error fault)).2
        cases ends
        exact ⟨_, rfl, spent⟩
      | none => exact handed _ _ related ends

/-- An operation that asks only streams that are where they are in the other scene ends in the same way. -/
theorem matches_perform (simulates : Tower.Simulates rel more) {multi : Bool} {n : Nat} {op : Op}
    {scene other left : Scene} {answer : Except Fault (Answer Item)} (asks : op.Asks live)
    (agrees : scene.Matches rel live other) (ends : scene.perform multi n op = some (answer, left)) :
    ∃ left', other.perform multi (n + more) op = some (answer, left') ∧ left.Matches rel live left' := by
  have onTower : ∀ {α : Type} {told : α → Answer Item} {result result' : Option (Except Fault α × Tower)},
      (∀ ended tower, result = some (ended, tower) → ∃ tower', result' = some (ended, tower') ∧ rel tower tower') →
      scene.onTower told result = some (answer, left) →
      ∃ left', other.onTower told result' = some (answer, left') ∧ left.Matches rel live left' := by
    intro α told result result' simulated ends
    obtain ⟨⟨ended, tower⟩, asked, same⟩ := Option.map_eq_some_iff.mp ends
    obtain ⟨tower', asked', related⟩ := simulated ended tower asked
    cases same
    exact ⟨{ other with tower := tower' }, by rw [asked']; rfl, related, agrees.many, agrees.streams⟩
  cases op with
  | next => exact onTower (fun _ _ => simulates.next _ _ _ _ _ agrees.tower) ends
  | peek => exact onTower (fun _ _ => simulates.peek agrees.tower) ends
  | force => exact onTower (fun _ _ => simulates.force agrees.tower) ends
  | collect => exact onTower (fun _ _ => simulates.force agrees.tower) ends
  | rewind =>
    obtain ⟨same, related⟩ := simulates.rewind _ _ agrees.tower
    rw [perform] at ends ⊢
    rcases rewinds : scene.tower.rewind with ⟨fault, between⟩
    rcases rewinds' : other.tower.rewind with ⟨fault', between'⟩
    rw [rewinds] at ends same related
    rw [rewinds'] at same related
    obtain rfl : fault' = fault := same
    cases fault' <;> cases ends <;> exact ⟨_, rfl, related, agrees.many, agrees.streams⟩
  | size =>
    cases ends
    exact ⟨other, by rw [perform, simulates.size _ _ agrees.tower], agrees⟩
  | multiValue =>
    cases ends
    exact ⟨other, rfl, agrees⟩
  | stream =>
    cases ends
    refine ⟨_, rfl, agrees.tower, by simp [agrees.many], fun i there => ?_⟩
    rw [List.getElem?_append, List.getElem?_append, agrees.many, agrees.streams i there]
  | pull i =>
    have there := asks i (.inl rfl)
    rw [perform] at ends ⊢
    rw [← agrees.streams i there]
    split at ends
    · cases ends
      exact ⟨other, rfl, agrees⟩
    · obtain ⟨⟨told, between⟩, asked, same⟩ := Option.map_eq_some_iff.mp ends
      cases same
      obtain ⟨left', asked', agrees'⟩ := matches_advance simulates there agrees asked
      exact ⟨left', by rw [asked']; rfl, agrees'⟩
  | drain i =>
    have there := asks i (.inr rfl)
    rw [perform] at ends ⊢
    rw [← agrees.streams i there]
    split at ends
    · cases ends
      exact ⟨other, rfl, agrees⟩
    · obtain ⟨⟨told, between⟩, asked, same⟩ := Option.map_eq_some_iff.mp ends
      cases same
      have each : ∀ n (state other : Scene) told left, state.Matches rel live other →
          state.advance i n = some (told, left) →
          ∃ left', other.advance i (n + more) = some (told, left') ∧ left.Matches rel live left' :=
        fun _ _ _ _ _ agrees ends => matches_advance simulates there agrees ends
      obtain ⟨left', asked', agrees'⟩ := gatherBy_simulates each n agrees asked
      exact ⟨left', by rw [asked']; rfl, agrees'⟩

/-- What is seen of scenes that match is the same. -/
theorem outcome_matches (simulates : Tower.Simulates rel more) {scene other : Scene}
    (agrees : scene.Matches rel live other) (answer : Except Fault (Answer Item)) :
    outcome answer other = outcome answer scene := by
  rw [outcome, outcome, simulates.pass _ _ agrees.tower]

/-- Operations that ask only streams that are where they are in the other scene have the same outcomes. -/
theorem matches_play (simulates : Tower.Simulates rel more) {multi : Bool} {n : Nat} {ops : List Op}
    {scene other last : Scene} {outcomes : List Outcome} (asks : ∀ op ∈ ops, op.Asks live)
    (agrees : scene.Matches rel live other) (ends : scene.play multi n ops = some (outcomes, last)) :
    ∃ last', other.play multi (n + more) ops = some (outcomes, last') ∧ last.Matches rel live last' := by
  induction ops generalizing scene other outcomes last with
  | nil =>
    cases ends
    exact ⟨other, rfl, agrees⟩
  | cons op rest ih =>
    rw [play] at ends
    rcases performed : scene.perform multi n op with _ | ⟨answer, between⟩
    · simp [performed] at ends
    · obtain ⟨between', performed', agrees'⟩ := matches_perform simulates (asks op List.mem_cons_self) agrees performed
      rcases played : between.play multi n rest with _ | ⟨others, final⟩
      · simp [performed, played] at ends
      · simp only [performed, played, Option.some.injEq, Prod.mk.injEq] at ends
        obtain ⟨last', played', agrees''⟩ :=
          ih (fun op member => asks op (List.mem_cons_of_mem _ member)) agrees' played
        refine ⟨last', ?_, ends.2 ▸ agrees''⟩
        rw [play, performed']
        simp only [played', outcome_matches simulates agrees', ends.1]

section Seen

variable (simulates : Tower.Simulates rel 0) (back : Tower.Simulates (flip rel) 0)

include simulates back

/-- What is seen of an operation on scenes that simulate each other is the same, whether or not there is enough
fuel. -/
theorem matches_seen_once {multi : Bool} {n : Nat} {op : Op} {scene other : Scene} (asks : op.Asks live)
    (agrees : scene.Matches rel live other) :
    (scene.perform multi n op).map (fun asked => outcome asked.1 asked.2) =
      (other.perform multi n op).map fun asked => outcome asked.1 asked.2 := by
  have around : other.Matches (flip rel) live scene :=
    ⟨agrees.tower, agrees.many.symm, fun i there => (agrees.streams i there).symm⟩
  cases performed : scene.perform multi n op with
  | some pair =>
    obtain ⟨left, performed', agrees'⟩ := matches_perform simulates asks agrees performed
    rw [show other.perform multi n op = _ from performed']
    exact congrArg some (outcome_matches simulates agrees' _).symm
  | none =>
    cases performed' : other.perform multi n op with
    | none => rfl
    | some pair =>
      obtain ⟨left, performed'', -⟩ := matches_perform back asks around performed'
      rw [show scene.perform multi n op = _ from performed''] at performed
      cases performed

/-- What is seen of scenes that simulate each other is the same, whether or not there is enough fuel. -/
theorem matches_seen {multi : Bool} {n : Nat} {ops : List Op} {scene other : Scene}
    (asks : ∀ op ∈ ops, op.Asks live) (agrees : scene.Matches rel live other) :
    (scene.play multi n ops).map Prod.fst = (other.play multi n ops).map Prod.fst := by
  have around : other.Matches (flip rel) live scene :=
    ⟨agrees.tower, agrees.many.symm, fun i there => (agrees.streams i there).symm⟩
  cases played : scene.play multi n ops with
  | some pair =>
    obtain ⟨last', played', -⟩ := matches_play simulates asks agrees played
    rw [show other.play multi n ops = _ from played']
    rfl
  | none =>
    cases played' : other.play multi n ops with
    | none => rfl
    | some pair =>
      obtain ⟨last, played'', -⟩ := matches_play back asks around played'
      rw [show scene.play multi n ops = _ from played''] at played
      cases played

end Seen

end Scene

end FirstSeen
