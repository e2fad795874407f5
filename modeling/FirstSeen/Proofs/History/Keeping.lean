import FirstSeen.Proofs.History.Session

/-!
# What histories keep

Operations on a scene do to its tower nothing but ask for elements, put one back in its place, and take the
tower back to its beginning. What these three keep of a tower is therefore kept by every operation, whatever
the streams of the scene, and by any number of operations in turn.
-/

set_option autoImplicit false

namespace FirstSeen

namespace Tower

/-- Whether asking for elements, looking ahead and beginning again keep something of towers. -/
structure Steady (P : Tower → Prop) : Prop where
  next : ∀ n tower told left, P tower → Tower.next n tower = some (told, left) → P left
  ahead : ∀ n tower item left, P tower → tower.pass.peeked = none →
    Tower.next n tower = some (.ok item, left) → P (left.withPass { left.pass with peeked := some item })
  rewind : ∀ tower, P tower → P tower.rewind.2

end Tower

/-- What each draw keeps is kept by gathering. -/
theorem gatherBy_keeps {σ : Type} {draw : Nat → σ → Option (Draw × σ)} {P : σ → Prop}
    (each : ∀ n state told left, P state → draw n state = some (told, left) → P left) (n : Nat)
    {state left : σ} {items : List Item} {ended : Except Fault (List Item)} (holds : P state)
    (ends : gatherBy draw n state items = some (ended, left)) : P left := by
  induction n generalizing state items with
  | zero => simp [gatherBy] at ends
  | succ n ih =>
    rw [gatherBy] at ends
    rcases drawn : draw n state with _ | ⟨fault | item, between⟩
    · simp [drawn] at ends
    · simp only [drawn, Option.some.injEq, Prod.mk.injEq] at ends
      exact ends.2 ▸ each n state _ _ holds drawn
    · rw [drawn] at ends
      exact ih (each n state _ _ holds drawn) ends

/-- What is gathered by draws that other draws simulate, with some more calls, is gathered by those. -/
theorem gatherBy_simulates {σ τ : Type} {draw : Nat → σ → Option (Draw × σ)}
    {draw' : Nat → τ → Option (Draw × τ)} {rel : σ → τ → Prop} {more : Nat}
    (each : ∀ n state other told left, rel state other → draw n state = some (told, left) →
      ∃ left', draw' (n + more) other = some (told, left') ∧ rel left left')
    (n : Nat) {state left : σ} {other : τ} {items : List Item} {ended : Except Fault (List Item)}
    (related : rel state other) (ends : gatherBy draw n state items = some (ended, left)) :
    ∃ left', gatherBy draw' (n + more) other items = some (ended, left') ∧ rel left left' := by
  induction n generalizing state other items with
  | zero => simp [gatherBy] at ends
  | succ n ih =>
    rw [gatherBy] at ends
    rw [Nat.add_right_comm, gatherBy]
    rcases drawn : draw n state with _ | ⟨told, between⟩
    · simp [drawn] at ends
    · obtain ⟨between', drawn', related'⟩ := each n state other told between related drawn
      rw [drawn] at ends
      rw [drawn']
      cases told with
      | error fault =>
        simp only [Option.some.injEq, Prod.mk.injEq] at ends
        exact ⟨between', by simp only [ends.1], ends.2 ▸ related'⟩
      | ok item => exact ih related' ends

namespace Tower

variable {P : Tower → Prop}

theorem Steady.restart (steady : Steady P) {tower : Tower} (holds : P tower) : P tower.restart.2 := by
  rw [Tower.restart]
  split
  · exact steady.rewind tower holds
  · exact holds

theorem Steady.peek (steady : Steady P) {n : Nat} {tower left : Tower} {told : Draw} (holds : P tower)
    (ends : tower.peek n = some (told, left)) : P left := by
  rw [Tower.peek] at ends
  split at ends
  · cases ends
    exact holds
  · rename_i peeked
    obtain ⟨⟨drawn, between⟩, asked, same⟩ := Option.map_eq_some_iff.mp ends
    cases drawn with
    | error fault =>
      cases same
      exact steady.next n tower _ _ holds asked
    | ok item =>
      cases same
      exact steady.ahead n tower item between holds peeked asked

theorem Steady.force (steady : Steady P) {n : Nat} {tower left : Tower} {ended : Except Fault (List Item)}
    (holds : P tower) (ends : tower.force n = some (ended, left)) : P left := by
  have restarted := steady.restart holds
  rw [Tower.force] at ends
  rcases restarts : tower.restart with ⟨_ | fault, between⟩ <;> rw [restarts] at ends restarted
  · exact gatherBy_keeps steady.next n restarted ends
  · cases ends
    exact restarted

end Tower

namespace Scene

variable {P : Tower → Prop}

/-- What is drawn for a stream leaves the tower that was drawn from. -/
theorem tower_hand (streams : List Course) (i : Nat) (drawn : Draw × Tower) :
    (hand streams i drawn).2.tower = drawn.2 := by
  rcases drawn with ⟨fault | item, left⟩ <;> rfl

theorem advance_keeps (steady : Tower.Steady P) {n i : Nat} {scene left : Scene} {told : Draw}
    (holds : P scene.tower) (ends : scene.advance i n = some (told, left)) : P left.tower := by
  have handed : ∀ tower, P tower → (tower.next (n - 1)).map (hand scene.streams i) = some (told, left) →
      P left.tower := by
    intro tower kept ends
    obtain ⟨⟨drawn, between⟩, asked, same⟩ := Option.map_eq_some_iff.mp ends
    have tower := tower_hand scene.streams i (drawn, between)
    rw [same] at tower
    exact tower ▸ steady.next _ _ _ _ kept asked
  cases n with
  | zero => simp [advance] at ends
  | succ n =>
    rw [advance] at ends
    split at ends
    · cases ends
      exact holds
    · cases ends
      exact holds
    · exact handed _ holds ends
    · have restarted := steady.restart holds
      rcases restarts : scene.tower.restart with ⟨_ | fault, between⟩ <;> rw [restarts] at ends restarted
      · exact handed _ restarted ends
      · cases ends
        exact restarted

/-- What is kept of towers is kept by each operation. -/
theorem perform_keeps (steady : Tower.Steady P) {multi : Bool} {n : Nat} {op : Op} {scene left : Scene}
    {answer : Except Fault (Answer Item)} (holds : P scene.tower)
    (ends : scene.perform multi n op = some (answer, left)) : P left.tower := by
  have onTower : ∀ {α : Type} {told : α → Answer Item} {result : Option (Except Fault α × Tower)},
      (∀ ended between, result = some (ended, between) → P between) →
      scene.onTower told result = some (answer, left) → P left.tower := by
    intro α told result kept ends
    obtain ⟨⟨ended, between⟩, asked, same⟩ := Option.map_eq_some_iff.mp ends
    cases same
    exact kept ended between asked
  cases op with
  | next => exact onTower (fun _ _ => steady.next n _ _ _ holds) ends
  | peek => exact onTower (fun _ _ => steady.peek holds) ends
  | force => exact onTower (fun _ _ => steady.force holds) ends
  | collect => exact onTower (fun _ _ => steady.force holds) ends
  | rewind =>
    have rewound := steady.rewind _ holds
    rw [perform] at ends
    rcases rewinds : scene.tower.rewind with ⟨_ | fault, between⟩ <;> rw [rewinds] at ends rewound <;>
      cases ends <;> exact rewound
  | size | multiValue | stream =>
    cases ends
    exact holds
  | pull i =>
    rw [perform] at ends
    split at ends
    · cases ends
      exact holds
    · obtain ⟨⟨told, between⟩, asked, same⟩ := Option.map_eq_some_iff.mp ends
      cases same
      exact advance_keeps steady holds asked
  | drain i =>
    rw [perform] at ends
    split at ends
    · cases ends
      exact holds
    · obtain ⟨⟨told, between⟩, asked, same⟩ := Option.map_eq_some_iff.mp ends
      cases same
      have each : ∀ n (state : Scene) told left, P state.tower → state.advance i n = some (told, left) →
          P left.tower := fun _ _ _ _ kept ends => advance_keeps steady kept ends
      exact gatherBy_keeps (P := fun state : Scene => P state.tower) each n holds asked

/-- What is kept of towers is kept by operations in turn. -/
theorem play_keeps (steady : Tower.Steady P) {multi : Bool} {n : Nat} {ops : List Op} {scene last : Scene}
    {outcomes : List Outcome} (holds : P scene.tower)
    (ends : scene.play multi n ops = some (outcomes, last)) : P last.tower := by
  induction ops generalizing scene outcomes with
  | nil =>
    cases ends
    exact holds
  | cons op rest ih =>
    rw [play] at ends
    rcases performed : scene.perform multi n op with _ | ⟨answer, between⟩
    · simp [performed] at ends
    · rcases played : between.play multi n rest with _ | ⟨others, final⟩
      · simp [performed, played] at ends
      · simp only [performed, played, Option.some.injEq, Prod.mk.injEq] at ends
        exact ih (perform_keeps steady holds performed) (ends.2 ▸ played)

end Scene

namespace Tower

/-- How high a tower is stays. -/
theorem steady_height (height : Nat) : Steady fun tower => tower.height = height where
  next _ _ _ _ same asked := (height_next asked).trans same
  ahead _ _ _ left same _ asked := ((height_withPass left _).trans (height_next asked)).trans same
  rewind tower same := (height_rewind tower).trans same

end Tower

end FirstSeen
