import FirstSeen.Proofs.Tower.Machine

/-!
# Towers that refuse to begin again

A tower over an iterator is at its beginning until it is asked for an element, which starts each of its
sequences. From then on the sequence at its ground refuses to begin again, and as a tower is taken back
from the ground up, nothing of it changes by that.
-/

set_option autoImplicit false

namespace FirstSeen

/-- Whether an origin refuses, with this fault, to be reset once a pass was started. -/
def Origin.Refuses (origin : Origin) (refusal : Fault) : Prop :=
  origin.oneShot = true ∧ origin.refusal = refusal

/-- Drawing from an origin leaves it refusing. -/
theorem Origin.Refuses.draw {n : Nat} {origin left : Origin} {refusal : Fault} {told : Draw}
    (refuses : origin.Refuses refusal) (ends : origin.draw n = some (told, left)) : left.Refuses refusal := by
  have name : ∀ tape : Tape, tape.step.2.name = tape.name := by
    intro tape
    rw [Tape.step]
    split
    · rfl
    · split <;> rfl
  have moved : ∀ (opened : Origin) (start : Start), opened.Refuses refusal →
      (if n = 0 then none else some (opened.advance start)) = some (told, left) → left.Refuses refusal := by
    intro opened start refuses ends
    split at ends
    · cases ends
    · cases start with
      | own tape =>
        cases ends
        exact refuses
      | kept =>
        cases ends
        exact ⟨refuses.1, by rw [← refuses.2]; simp only [Origin.refusal, name]⟩
  rw [Origin.draw] at ends
  cases held : origin.held with
  | some start =>
    simp only [held] at ends
    exact moved origin start refuses ends
  | none =>
    cases opens : origin.openings 0 with
    | error fault =>
      simp only [held, opens] at ends
      cases ends
      exact refuses
    | ok start =>
      simp only [held, opens] at ends
      exact moved _ start (by exact refuses) ends

namespace Tower

/-- Whether the passes of all sequences of a tower, and its origin, are of a kind. -/
def All (onPass : Pass → Prop) (onOrigin : Origin → Prop) : Tower → Prop
  | ground pass origin => onPass pass ∧ onOrigin origin
  | passage pass below | filter pass _ _ below => onPass pass ∧ below.All onPass onOrigin

/-- Whether a tower is at its beginning, on an origin that is going to refuse. -/
def Poised (refusal : Fault) : Tower → Prop := All (· = {}) (·.Refuses refusal)

/-- Whether each sequence of a tower was started, on an origin that refuses. -/
def Begun (refusal : Fault) : Tower → Prop := All (·.started = true) (·.Refuses refusal)

/-- Whether the topmost sequence of a tower was started, and those below it either all were or none was. -/
def Underway (refusal : Fault) : Tower → Prop
  | ground pass origin => pass.started = true ∧ origin.Refuses refusal
  | passage pass below | filter pass _ _ below =>
    pass.started = true ∧ (below.Poised refusal ∨ below.Begun refusal)

variable {refusal : Fault} {tower : Tower}

theorem Poised.pass (poised : tower.Poised refusal) : tower.pass = {} := by
  cases tower <;> exact poised.1

theorem Begun.started (begun : tower.Begun refusal) : tower.pass.started = true := by
  cases tower <;> exact begun.1

theorem Begun.withPass (begun : tower.Begun refusal) {pass : Pass} (started : pass.started = true) :
    (tower.withPass pass).Begun refusal := by
  cases tower <;> exact ⟨started, begun.2⟩

/-- A tower that is asked for an element is underway. -/
theorem underway_begun (ready : tower.Poised refusal ∨ tower.Begun refusal) :
    tower.begun.Underway refusal := by
  cases tower with
  | ground pass origin => exact ⟨rfl, ready.elim (·.2) (·.2)⟩
  | passage pass below | filter pass rule seen below => exact ⟨rfl, ready.imp (·.2) (·.2)⟩

theorem Begun.settle {told : Draw} (begun : tower.Begun refusal) :
    (settle (told, tower)).2.Begun refusal := by
  cases told with
  | ok item => exact begun
  | error fault =>
    simp only [Tower.settle]
    split
    · cases tower with
      | ground pass origin =>
        refine ⟨begun.1, ?_⟩
        rw [Origin.release]
        split <;> exact begun.2
      | passage pass below | filter pass rule seen below => exact begun
    · exact begun

/-- Asking a tower for an element starts each of its sequences. -/
theorem next_begun {n : Nat} {left : Tower} {told : Draw} (ready : tower.Poised refusal ∨ tower.Begun refusal)
    (ends : next n tower = some (told, left)) : left.Begun refusal := by
  refine (run_induction
    (R := fun tower _ left => tower.Poised refusal ∨ tower.Begun refusal → left.Begun refusal)
    (S := fun tower _ left => tower.Underway refusal → left.Begun refusal)
    ?_ ?_ ?_ ?_ ?_ ?_ ?_ n).1 _ _ _ ends ready
  · rintro tower item peeked (poised | begun)
    · rw [poised.pass] at peeked
      cases peeked
    · exact begun.withPass begun.started
  · rintro tower - spent (poised | begun)
    · rw [poised.pass] at spent
      cases spent
    · exact begun
  · exact fun tower told left _ _ pulls ready => (pulls (underway_begun ready)).settle
  · exact fun pass origin n told left drawn under => ⟨under.1, under.2.draw drawn⟩
  · exact fun pass below told left asks under => ⟨under.1, asks under.2⟩
  · exact fun pass rule seen below fault left asks under => ⟨under.1, asks under.2⟩
  · exact fun pass rule seen below item left asks => ⟨fun _ _ under => ⟨under.1, asks under.2⟩,
      fun _ under => ⟨under.1, asks under.2⟩, fun told last _ pulls under =>
      pulls ⟨under.1, .inr (asks under.2)⟩⟩

/-- A tower that was started refuses to begin again, and stays as it is. -/
theorem Begun.rewind (begun : tower.Begun refusal) : tower.rewind = (some refusal, tower) := by
  induction tower with
  | ground pass origin =>
    obtain ⟨started, oneShot, rfl⟩ := begun
    simp [Tower.rewind, Origin.reset, started, oneShot]
  | passage pass below ih | filter pass rule seen below ih => simp only [Tower.rewind, ih begun.2]

theorem poised_filters {rules : List Rule} (poised : tower.Poised refusal) :
    (filters rules tower).Poised refusal := by
  induction rules generalizing tower with
  | nil => exact poised
  | cons rule rest ih =>
    have above : (Tower.filter {} rule .empty tower).Poised refusal := ⟨rfl, poised⟩
    exact ih above

end Tower

end FirstSeen
