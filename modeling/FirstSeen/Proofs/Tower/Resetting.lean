import FirstSeen.Proofs.History.Keeping
import FirstSeen.Proofs.Tower.Building

/-!
# Back to the beginning

If every opening of an origin gives the same, from a new iterator, then nothing that happens to a tower on it
is left once the tower is taken back. The tower without any pass, seen key or held iterator, its *blank*, is
the same from the first call to the last, and taking the tower back gives it. A tower whose topmost sequence
was not started is its own blank.
-/

set_option autoImplicit false

namespace FirstSeen

namespace Origin

/-- Whether every opening gives the same, from a new iterator. -/
structure Repeats (origin : Origin) : Prop where
  many : origin.oneShot = false
  same : ∀ n, origin.openings n = origin.openings 0
  new : origin.openings 0 ≠ .ok .kept
  held : origin.held ≠ some .kept

/-- The origin holding nothing. -/
def blank (origin : Origin) : Origin := { origin with held := none }

/-- What stays of an origin whose openings repeat. -/
def Stays (before after : Origin) : Prop := before.Repeats → after.Repeats ∧ after.blank = before.blank

theorem stays_hold {origin : Origin} {held : Option Start} (own : held ≠ some .kept) :
    origin.Stays { origin with held := held } := fun repeats =>
  ⟨⟨repeats.many, repeats.same, repeats.new, own⟩, rfl⟩

/-- Moving on a tape of its own keeps an origin. -/
theorem advance_stays {origin : Origin} {start : Start} (own : start ≠ .kept) :
    origin.Stays (origin.advance start).2 := by
  cases start with
  | kept => exact absurd rfl own
  | own tape => exact stays_hold (by simp)

theorem draw_stays {n : Nat} {origin left : Origin} {told : Draw}
    (ends : origin.draw n = some (told, left)) : origin.Stays left := by
  intro repeats
  have moved : ∀ (opened : Origin) (start : Start), origin.Stays opened → start ≠ .kept →
      (if n = 0 then none else some (opened.advance start)) = some (told, left) →
      left.Repeats ∧ left.blank = origin.blank := by
    intro opened start stays own ends
    split at ends
    · cases ends
    · obtain ⟨repeats', same⟩ := stays repeats
      have result := advance_stays own repeats'
      rw [Option.some.inj ends] at result
      exact ⟨result.1, result.2.trans same⟩
  have shift : (fun i => origin.openings (i + 1)) = origin.openings := by
    funext i
    rw [repeats.same (i + 1), repeats.same i]
  rw [draw] at ends
  cases held : origin.held with
  | some start =>
    rw [held] at ends
    exact moved origin start (fun repeats => ⟨repeats, rfl⟩) (fun same => repeats.held (by rw [held, same])) ends
  | none =>
    simp only [held, shift] at ends
    cases opens : origin.openings 0 with
    | error fault =>
      simp only [opens, Option.some.injEq, Prod.mk.injEq] at ends
      rw [← ends.2]
      exact ⟨⟨repeats.many, repeats.same, repeats.new, by simp⟩, rfl⟩
    | ok start =>
      rw [opens] at ends
      exact moved origin start (fun repeats => ⟨repeats, rfl⟩) (fun same => repeats.new (by rw [opens, same]))
        ends

theorem close_stays (origin : Origin) : origin.Stays origin.close.2 := by
  intro repeats
  rw [close]
  split
  · exact ⟨repeats, rfl⟩
  · exact stays_hold (by simp) repeats
  · rename_i held
    exact absurd held repeats.held

theorem release_stays (origin : Origin) : origin.Stays origin.release := by
  rw [release]
  split
  · exact stays_hold (by simp)
  · exact fun repeats => ⟨repeats, rfl⟩

/-- Resetting an origin keeps it, and leaves it holding nothing if this does not fail. -/
theorem reset_stays {origin : Origin} (started : Bool) (repeats : origin.Repeats) :
    ((origin.reset started).2.Repeats ∧ (origin.reset started).2.blank = origin.blank) ∧
      ((origin.reset started).1 = none → (origin.reset started).2 = origin.blank) := by
  have dropped : ∀ opened : Origin, opened.Repeats ∧ opened.blank = origin.blank →
      (opened.blank.Repeats ∧ opened.blank.blank = origin.blank) ∧
        ((none : Option Fault) = none → opened.blank = origin.blank) :=
    fun opened stays => ⟨⟨(stays_hold (by simp) stays.1).1, stays.2⟩, fun _ => stays.2⟩
  rw [reset, if_neg (by simp [repeats.many])]
  split
  · have closed := close_stays origin repeats
    rcases closes : origin.close with ⟨_ | fault, left⟩ <;> rw [closes] at closed
    · exact dropped left closed
    · exact ⟨closed, fun returns => by cases returns⟩
  · exact dropped origin ⟨repeats, rfl⟩

end Origin

namespace Tower

/-- Whether every opening of the origin of a tower gives the same, from a new iterator. -/
def Repeats : Tower → Prop
  | ground _ origin => origin.Repeats
  | passage _ below | filter _ _ _ below => below.Repeats

/-- The tower with each sequence at its beginning. -/
def blank : Tower → Tower
  | ground _ origin => ground {} origin.blank
  | passage _ below => passage {} below.blank
  | filter _ rule _ below => filter {} rule .empty below.blank

@[simp] theorem repeats_withPass (tower : Tower) (pass : Pass) :
    (tower.withPass pass).Repeats ↔ tower.Repeats := by
  cases tower <;> rfl

@[simp] theorem blank_withPass (tower : Tower) (pass : Pass) : (tower.withPass pass).blank = tower.blank := by
  cases tower <;> rfl

/-- A tower at its beginning is its own blank. -/
theorem Fresh.blank {tower : Tower} (fresh : tower.Fresh) : tower.blank = tower := by
  induction tower with
  | ground pass origin =>
    obtain ⟨rfl, held⟩ := fresh
    have same : origin.blank = origin := by rw [Origin.blank, ← held]
    rw [Tower.blank, same]
  | passage pass below ih =>
    obtain ⟨rfl, fresh⟩ := fresh
    rw [Tower.blank, ih fresh]
  | filter pass rule seen below ih =>
    obtain ⟨rfl, rfl, fresh⟩ := fresh
    rw [Tower.blank, ih fresh]

/-- What stays of a tower whose openings repeat. -/
def Stays (before after : Tower) : Prop := before.Repeats → after.Repeats ∧ after.blank = before.blank

theorem settle_stays (told : Draw) (tower : Tower) : tower.Stays (settle (told, tower)).2 := by
  have finished : tower.Stays tower.finish := by
    intro repeats
    cases tower with
    | ground pass origin =>
      obtain ⟨repeats', same⟩ := origin.release_stays repeats
      exact ⟨repeats', by simp only [finish, blank, same]⟩
    | passage pass below | filter pass rule seen below => exact ⟨repeats, rfl⟩
  cases told with
  | ok item => exact fun repeats => ⟨repeats, rfl⟩
  | error fault =>
    simp only [settle]
    split
    · exact finished
    · exact fun repeats => ⟨repeats, rfl⟩

/-- Asking for an element keeps the blank of a tower. -/
theorem next_stays {n : Nat} {tower left : Tower} {told : Draw} (ends : next n tower = some (told, left)) :
    tower.Stays left := by
  refine (run_induction (R := fun tower _ left => tower.Stays left) (S := fun tower _ left => tower.Stays left)
    ?_ ?_ ?_ ?_ ?_ ?_ ?_ n).1 _ _ _ ends
  · exact fun tower item _ repeats => ⟨by simpa using repeats, by simp⟩
  · exact fun _ _ _ repeats => ⟨repeats, rfl⟩
  · intro tower told left _ _ stays repeats
    obtain ⟨repeats', same⟩ := stays (by simpa [begun] using repeats)
    obtain ⟨repeats'', same'⟩ := settle_stays told left repeats'
    exact ⟨repeats'', by rw [same', same, begun, blank_withPass]⟩
  · intro pass origin n told left drawn repeats
    obtain ⟨repeats', same⟩ := Origin.draw_stays drawn repeats
    exact ⟨repeats', congrArg (ground {}) same⟩
  · intro pass below told left stays repeats
    obtain ⟨repeats', same⟩ := stays repeats
    exact ⟨repeats', congrArg (passage {}) same⟩
  · intro pass rule seen below fault left stays repeats
    obtain ⟨repeats', same⟩ := stays repeats
    exact ⟨repeats', congrArg (filter {} rule .empty) same⟩
  · intro pass rule seen below item left stays
    have kept : ∀ seen', (filter pass rule seen below).Stays (filter pass rule seen' left) := by
      intro seen' repeats
      obtain ⟨repeats', same⟩ := stays repeats
      exact ⟨repeats', congrArg (filter {} rule .empty) same⟩
    refine ⟨fun _ _ => kept _, fun _ => kept _, fun told last _ stays' repeats => ?_⟩
    obtain ⟨repeats', same⟩ := kept (rule.judge seen item).2 repeats
    obtain ⟨repeats'', same'⟩ := stays' repeats'
    exact ⟨repeats'', same'.trans same⟩

/-- Taking a tower back keeps its blank, and gives it if this does not fail. -/
theorem rewind_stays {tower : Tower} (repeats : tower.Repeats) :
    (tower.rewind.2.Repeats ∧ tower.rewind.2.blank = tower.blank) ∧
      (tower.rewind.1 = none → tower.rewind.2 = tower.blank) := by
  induction tower with
  | ground pass origin =>
    obtain ⟨⟨repeats', same⟩, returns⟩ := Origin.reset_stays pass.started repeats
    rw [rewind]
    rcases resets : origin.reset pass.started with ⟨_ | fault, left⟩ <;> rw [resets] at repeats' same returns
    · exact ⟨⟨repeats', congrArg (ground {}) same⟩, fun _ => congrArg (ground {}) (returns rfl)⟩
    · exact ⟨⟨repeats', congrArg (ground {}) same⟩, fun none => by cases none⟩
  | passage pass below ih =>
    obtain ⟨⟨repeats', same⟩, returns⟩ := ih repeats
    rw [rewind]
    rcases rewinds : below.rewind with ⟨_ | fault, left⟩ <;> rw [rewinds] at repeats' same returns
    · exact ⟨⟨repeats', congrArg (passage {}) same⟩, fun _ => congrArg (passage {}) (returns rfl)⟩
    · exact ⟨⟨repeats', congrArg (passage {}) same⟩, fun none => by cases none⟩
  | filter pass rule seen below ih =>
    obtain ⟨⟨repeats', same⟩, returns⟩ := ih repeats
    rw [rewind]
    rcases rewinds : below.rewind with ⟨_ | fault, left⟩ <;> rw [rewinds] at repeats' same returns
    · exact ⟨⟨repeats', congrArg (filter {} rule .empty) same⟩,
        fun _ => congrArg (filter {} rule .empty) (returns rfl)⟩
    · exact ⟨⟨repeats', congrArg (filter {} rule .empty) same⟩, fun none => by cases none⟩

/-! ## Being started -/

/-- Asking for an element starts a tower, unless there is one that was peeked at or the end was met. -/
theorem started_next {n : Nat} {tower left : Tower} {told : Draw} (ends : next n tower = some (told, left)) :
    left.pass.started = true ∨ left.pass.started = tower.pass.started ∧
      (tower.pass.peeked ≠ none ∨ tower.pass.exhausted = true ∧ told = .error .ended) := by
  have settled : ∀ (told : Draw) (left : Tower), left.pass.started = true →
      (settle (told, left)).2.pass.started = true := by
    intro told left started
    cases told with
    | ok item => exact started
    | error fault =>
      simp only [settle]
      split
      · cases left <;> exact started
      · exact started
  refine (run_induction
    (R := fun tower told left => left.pass.started = true ∨ left.pass.started = tower.pass.started ∧
      (tower.pass.peeked ≠ none ∨ tower.pass.exhausted = true ∧ told = .error .ended))
    (S := fun tower _ left => left.pass = tower.pass) ?_ ?_ ?_ ?_ ?_ ?_ ?_ n).1 _ _ _ ends
  · exact fun tower item peeked => .inr ⟨by simp, .inl (by simp [peeked])⟩
  · exact fun tower _ exhausted => .inr ⟨rfl, .inr ⟨exhausted, rfl⟩⟩
  · exact fun tower told left _ _ same => .inl (settled told left (by rw [same, begun, pass_withPass]))
  · exact fun _ _ _ _ _ _ => rfl
  · exact fun _ _ _ _ _ => rfl
  · exact fun _ _ _ _ _ _ _ => rfl
  · exact fun _ _ _ _ _ _ _ => ⟨fun _ _ => rfl, fun _ => rfl, fun _ _ _ same => same⟩

/-- Taking a tower back leaves its topmost sequence as it is if this fails. -/
theorem pass_rewind {tower : Tower} {fault : Fault} (fails : tower.rewind.1 = some fault) :
    tower.rewind.2.pass = tower.pass := by
  cases tower with
  | ground pass origin =>
    rw [rewind] at fails ⊢
    rcases resets : origin.reset pass.started with ⟨_ | _, left⟩ <;> rw [resets] at fails
    · cases fails
    · rfl
  | passage pass below | filter pass rule seen below =>
    rw [rewind] at fails ⊢
    rcases rewinds : below.rewind with ⟨_ | _, left⟩ <;> rw [rewinds] at fails
    · cases fails
    · rfl

/-- What a call leaves of the pass of an unpeeked tower that has not met its end. -/
theorem pass_next {n : Nat} {tower left : Tower} {told : Draw} (ends : next n tower = some (told, left))
    (unpeeked : tower.pass.peeked = none) (going : tower.pass.exhausted = false) :
    left.pass = (settle (told, tower.begun)).2.pass := by
  have settled : ∀ (told : Draw) (left tower : Tower), left.pass = tower.pass →
      (settle (told, left)).2.pass = (settle (told, tower)).2.pass := by
    intro told left tower same
    cases told with
    | ok item => exact same
    | error fault =>
      simp only [settle]
      split
      · cases left <;> cases tower <;> obtain rfl := same <;> rfl
      · exact same
  refine (run_induction
    (R := fun tower told left => tower.pass.peeked = none → tower.pass.exhausted = false →
      left.pass = (settle (told, tower.begun)).2.pass)
    (S := fun tower _ left => left.pass = tower.pass) ?_ ?_ ?_ ?_ ?_ ?_ ?_ n).1 _ _ _ ends unpeeked going
  · intro tower item found unpeeked
    rw [found] at unpeeked
    cases unpeeked
  · intro tower _ spent _ going
    rw [spent] at going
    cases going
  · intro tower told left _ _ same _ _
    have delivered : (settle (told, left)).1 = told := by cases told <;> rfl
    rw [delivered]
    exact settled told left tower.begun same
  · exact fun _ _ _ _ _ _ => rfl
  · exact fun _ _ _ _ _ => rfl
  · exact fun _ _ _ _ _ _ _ => rfl
  · exact fun _ _ _ _ _ _ _ => ⟨fun _ _ => rfl, fun _ => rfl, fun _ _ _ same => same⟩

/-- Taking a tower back takes its topmost sequence back, unless this fails. -/
theorem pass_rewound {tower : Tower} (returns : tower.rewind.1 = none) : tower.rewind.2.pass = {} := by
  cases tower <;> rw [rewind] at returns ⊢ <;> split at returns <;> first | rfl | cases returns

/-- Whether a tower has come from another one at its beginning, and still is that tower if it was not started. -/
structure CameFrom (start tower : Tower) : Prop where
  repeats : tower.Repeats
  blank : tower.blank = start
  idle : tower.pass.started = false → tower = start

/-- Wherever a tower has come to from its beginning, what it came from stays. -/
theorem steady_cameFrom {start : Tower} (fresh : start.Fresh) : Steady (CameFrom start) where
  next n tower told left came asked := by
    obtain ⟨repeats, same⟩ := next_stays asked came.repeats
    refine ⟨repeats, same.trans came.blank, fun idle => ?_⟩
    obtain started | ⟨kept, busy⟩ := started_next asked
    · rw [started] at idle
      cases idle
    · rw [came.idle (kept ▸ idle), fresh.pass] at busy
      rcases busy with peeked | ⟨exhausted, -⟩
      · exact absurd rfl peeked
      · cases exhausted
  ahead n tower item left came peeked asked := by
    obtain ⟨repeats, same⟩ := next_stays asked came.repeats
    refine ⟨by simpa using repeats, by rw [blank_withPass, same, came.blank], fun idle => ?_⟩
    rw [pass_withPass] at idle
    obtain started | ⟨-, busy | ⟨-, ended⟩⟩ := started_next asked
    · rw [started] at idle
      cases idle
    · exact absurd peeked busy
    · cases ended
  rewind tower came := by
    obtain ⟨⟨repeats, same⟩, returns⟩ := rewind_stays came.repeats
    refine ⟨repeats, same.trans came.blank, fun idle => ?_⟩
    cases rewinds : tower.rewind.1 with
    | none => rw [returns rewinds, came.blank]
    | some fault =>
      rw [pass_rewind rewinds] at idle
      rw [came.idle idle, fresh.rewind] at rewinds
      cases rewinds

/-- A tower that can be taken back is the one that it came from once it is. -/
theorem CameFrom.restart {start tower : Tower} (came : CameFrom start tower)
    (returns : tower.pass.started = true → tower.rewind.1 = none) : tower.restart = (none, start) := by
  rw [Tower.restart]
  split
  · rename_i started
    exact Prod.ext (returns started) (((rewind_stays came.repeats).2 (returns started)).trans came.blank)
  · rename_i idle
    rw [came.idle (by simpa using idle)]

end Tower

end FirstSeen
