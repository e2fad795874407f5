import FirstSeen.Proofs.History.Simulating

/-!
# Layers over related towers

Towers that have the same layers on top of related ones do the same if the related ones do. Only the topmost
sequence is seen from outside, so that what is below the layers need not even look alike.
-/

set_option autoImplicit false

namespace FirstSeen

namespace Tower

/-- Whether towers have the same layers, at least one if this is asked for, over related towers. -/
inductive Layered (base : Tower → Tower → Prop) : (covered : Bool) → Tower → Tower → Prop
  | base {tower other : Tower} (related : base tower other) : Layered base false tower other
  | passage {covered : Bool} {pass : Pass} {below below' : Tower} (layered : Layered base covered below below') :
      Layered base true (.passage pass below) (.passage pass below')
  | filter {covered : Bool} {pass : Pass} {rule : Rule} {seen : Seen} {below below' : Tower}
      (layered : Layered base covered below below') :
      Layered base true (.filter pass rule seen below) (.filter pass rule seen below')

namespace Layered

variable {base : Tower → Tower → Prop} {covered : Bool} {tower other : Tower} {more : Nat}

theorem symm (layered : Layered base covered tower other) : Layered (flip base) covered other tower := by
  induction layered with
  | base related => exact .base related
  | passage layered ih => exact .passage ih
  | filter layered ih => exact .filter ih

theorem pass (layered : Layered base true tower other) : other.pass = tower.pass := by
  cases layered <;> rfl

theorem repass (layered : Layered base true tower other) (pass : Pass) :
    Layered base true (tower.withPass pass) (other.withPass pass) := by
  cases layered with
  | passage layered => exact .passage layered
  | filter layered => exact .filter layered

theorem begun (layered : Layered base true tower other) : Layered base true tower.begun other.begun := by
  rw [Tower.begun, Tower.begun, layered.pass]
  exact layered.repass _

theorem settle (layered : Layered base true tower other) (told : Draw) :
    (Tower.settle (told, other)).1 = (Tower.settle (told, tower)).1 ∧
      Layered base true (Tower.settle (told, tower)).2 (Tower.settle (told, other)).2 := by
  have finish : Layered base true tower.finish other.finish := by
    cases layered with
    | passage layered => exact .passage layered
    | filter layered => exact .filter layered
  cases told with
  | ok item => exact ⟨rfl, layered⟩
  | error fault =>
    refine ⟨rfl, ?_⟩
    simp only [Tower.settle]
    split
    · exact finish
    · exact layered

/-- Layers that pull alike hand out alike. -/
theorem next_succ {n m : Nat} {told : Draw} {left : Tower} (layered : Layered base true tower other)
    (pulls : ∀ tower other told left, Layered base true tower other → Tower.pull n tower = some (told, left) →
      ∃ left', Tower.pull m other = some (told, left') ∧ Layered base true left left')
    (ends : Tower.next (n + 1) tower = some (told, left)) :
    ∃ left', Tower.next (m + 1) other = some (told, left') ∧ Layered base true left left' := by
  rw [Tower.next] at ends ⊢
  rw [layered.pass]
  cases found : tower.pass.peeked with
  | some item =>
    rw [found] at ends
    cases ends
    exact ⟨_, rfl, layered.repass _⟩
  | none =>
    simp only [found] at ends ⊢
    by_cases spent : tower.pass.exhausted
    · rw [if_pos spent] at ends ⊢
      cases ends
      exact ⟨_, rfl, layered⟩
    · rw [if_neg spent] at ends ⊢
      obtain ⟨⟨drawn, between⟩, pulled, same⟩ := Option.map_eq_some_iff.mp ends
      obtain ⟨between', pulled', layered'⟩ := pulls _ _ _ _ layered.begun pulled
      obtain ⟨told', settled⟩ := layered'.settle drawn
      rw [same] at told' settled
      refine ⟨(Tower.settle (drawn, between')).2, ?_, settled⟩
      rw [pulled', Option.map_some]
      exact congrArg some (Prod.ext told' rfl)

/-- Layers over towers that hand out alike pull and hand out alike. -/
theorem next_pull (asks : ∀ n tower other told left, base tower other → Tower.next n tower = some (told, left) →
      ∃ left', Tower.next (n + more) other = some (told, left') ∧ base left left') (n : Nat) :
    (∀ covered tower other told left, Layered base covered tower other → Tower.next n tower = some (told, left) →
      ∃ left', Tower.next (n + more) other = some (told, left') ∧ Layered base covered left left') ∧
    ∀ tower other told left, Layered base true tower other → Tower.pull n tower = some (told, left) →
      ∃ left', Tower.pull (n + more) other = some (told, left') ∧ Layered base true left left' := by
  induction n with
  | zero =>
    refine ⟨fun covered tower other told left layered ends => ?_, fun _ _ _ _ _ ends => by simp [Tower.pull] at ends⟩
    simp [Tower.next] at ends
  | succ n ih =>
    obtain ⟨ihNext, ihPull⟩ := ih
    refine ⟨fun covered tower other told left layered ends => ?_, fun tower other told left layered ends => ?_⟩
    · cases covered with
      | true =>
        rw [Nat.add_right_comm]
        exact layered.next_succ ihPull ends
      | false =>
        cases layered with
        | base related =>
          obtain ⟨left', ends', related'⟩ := asks _ _ _ _ _ related ends
          exact ⟨left', ends', .base related'⟩
    · rw [Nat.add_right_comm]
      cases layered with
      | passage layered =>
        rw [Tower.pull] at ends ⊢
        obtain ⟨⟨drawn, between⟩, asked, same⟩ := Option.map_eq_some_iff.mp ends
        obtain ⟨between', asked', layered'⟩ := ihNext _ _ _ _ _ layered asked
        cases same
        exact ⟨_, by rw [asked', Option.map_some], .passage layered'⟩
      | @filter covered pass rule seen below below' layered =>
        rw [Tower.pull] at ends ⊢
        rcases asked : Tower.next n below with _ | ⟨drawn, between⟩
        · simp [asked] at ends
        · obtain ⟨between', asked', layered'⟩ := ihNext _ _ _ _ _ layered asked
          rw [asked] at ends
          rw [asked']
          cases drawn with
          | error fault =>
            cases ends
            exact ⟨_, rfl, .filter layered'⟩
          | ok item =>
            simp only at ends ⊢
            generalize rule.judge seen item = outcome at ends ⊢
            rcases outcome with ⟨fault | _ | _, after⟩
            · cases ends
              exact ⟨_, rfl, .filter layered'⟩
            · exact ihPull _ _ _ _ (.filter layered') ends
            · cases ends
              exact ⟨_, rfl, .filter layered'⟩

/-- Layers over towers that can be taken back alike can be taken back alike. -/
theorem rewind (rewinds : ∀ tower other, base tower other →
      other.rewind.1 = tower.rewind.1 ∧ base tower.rewind.2 other.rewind.2)
    (layered : Layered base covered tower other) :
    other.rewind.1 = tower.rewind.1 ∧ Layered base covered tower.rewind.2 other.rewind.2 := by
  induction layered with
  | base related => exact ⟨(rewinds _ _ related).1, .base (rewinds _ _ related).2⟩
  | @passage covered pass below below' layered ih =>
    obtain ⟨same, layered'⟩ := ih
    rw [Tower.rewind, Tower.rewind]
    rcases rewound : below.rewind with ⟨fault, left⟩
    rcases rewound' : below'.rewind with ⟨fault', left'⟩
    rw [rewound, rewound'] at same layered'
    obtain rfl : fault' = fault := same
    cases fault' <;> exact ⟨rfl, .passage layered'⟩
  | @filter covered pass rule seen below below' layered ih =>
    obtain ⟨same, layered'⟩ := ih
    rw [Tower.rewind, Tower.rewind]
    rcases rewound : below.rewind with ⟨fault, left⟩
    rcases rewound' : below'.rewind with ⟨fault', left'⟩
    rw [rewound, rewound'] at same layered'
    obtain rfl : fault' = fault := same
    cases fault' <;> exact ⟨rfl, .filter layered'⟩

theorem size (sizes : ∀ tower other, base tower other → other.size = tower.size)
    (layered : Layered base covered tower other) : other.size = tower.size := by
  induction layered with
  | base related => exact sizes _ _ related
  | passage layered ih => exact ih
  | filter layered ih => rfl

/-- Layers over towers that do the same do the same. -/
theorem simulates
    (asks : ∀ n tower other told left, base tower other → Tower.next n tower = some (told, left) →
      ∃ left', Tower.next (n + more) other = some (told, left') ∧ base left left')
    (rewinds : ∀ tower other, base tower other →
      other.rewind.1 = tower.rewind.1 ∧ base tower.rewind.2 other.rewind.2)
    (sizes : ∀ tower other, base tower other → other.size = tower.size) :
    Simulates (Layered base true) more where
  next n := (next_pull asks n).1 true
  pass _ _ layered := layered.pass
  repass _ _ pass layered := layered.repass pass
  rewind _ _ layered := layered.rewind rewinds
  size _ _ layered := layered.size sizes

/-- Filters over related towers are the same layers. -/
theorem filters (rules : List Rule) (layered : Layered base covered tower other) :
    ∃ covered, Layered base covered (Tower.filters rules tower) (Tower.filters rules other) := by
  induction rules generalizing covered tower other with
  | nil => exact ⟨covered, layered⟩
  | cons rule rest ih => exact ih (.filter layered)

end Layered

end Tower

end FirstSeen
