import FirstSeen.Proofs.Tower.Ending
import FirstSeen.Proofs.Tower.Layering

/-!
# Filters that agree on what they are given

A filter judges only what the sequence below it hands out. So towers whose filters find the same keys for the elements of a
domain, over one origin that hands out nothing else, do the same. Their filters may differ on all other elements.
-/

set_option autoImplicit false

namespace FirstSeen

variable {D : Item → Prop}

/-- Whether rules judge the elements of a domain alike. -/
structure Rule.AgreesOn (D : Item → Prop) (rule other : Rule) : Prop where
  keyOf : ∀ item, D item → other.keyOf item = rule.keyOf item
  limit : other.limit = rule.limit
  raising : other.raising = rule.raising

theorem Rule.AgreesOn.symm {rule other : Rule} (agrees : rule.AgreesOn D other) : other.AgreesOn D rule :=
  ⟨fun item domain => (agrees.keyOf item domain).symm, agrees.limit.symm, agrees.raising.symm⟩

/-- Rules that judge alike find an element fresh together, and remember the same. -/
theorem Rule.AgreesOn.judge {rule other : Rule} (agrees : rule.AgreesOn D other) (seen : Seen) {item : Item}
    (domain : D item) : other.judge seen item = rule.judge seen item := by
  rw [Rule.judge, Rule.judge, agrees.keyOf item domain, agrees.limit, agrees.raising]

namespace Tower

variable (D) in
/-- Whether towers are at one place over one origin, which hands out elements of a domain alone, and their filters judge
these alike. -/
inductive Agree : Tower → Tower → Prop
  | ground {pass : Pass} {origin : Origin} (ahead : ∀ item, pass.peeked = some item → D item) (keeps : origin.Keeps D) :
      Agree (.ground pass origin) (.ground pass origin)
  | passage {pass : Pass} {below below' : Tower} (ahead : ∀ item, pass.peeked = some item → D item)
      (agree : Agree below below') : Agree (.passage pass below) (.passage pass below')
  | filter {pass : Pass} {rule rule' : Rule} {seen : Seen} {below below' : Tower}
      (ahead : ∀ item, pass.peeked = some item → D item) (rules : rule.AgreesOn D rule') (agree : Agree below below') :
      Agree (.filter pass rule seen below) (.filter pass rule' seen below')

namespace Agree

variable {tower other left : Tower} {told : Draw} {n : Nat}

theorem symm (agree : Agree D tower other) : Agree D other tower := by
  induction agree with
  | ground ahead keeps => exact .ground ahead keeps
  | passage ahead agree ih => exact .passage ahead ih
  | filter ahead rules agree ih => exact .filter ahead rules.symm ih

theorem pass (agree : Agree D tower other) : other.pass = tower.pass := by
  cases agree <;> rfl

/-- What was peeked at belongs to the domain. -/
theorem ahead (agree : Agree D tower other) : ∀ item, tower.pass.peeked = some item → D item := by
  cases agree <;> assumption

theorem repass (agree : Agree D tower other) {pass : Pass} (ahead : ∀ item, pass.peeked = some item → D item) :
    Agree D (tower.withPass pass) (other.withPass pass) := by
  cases agree with
  | ground _ keeps => exact .ground ahead keeps
  | passage _ agree => exact .passage ahead agree
  | filter _ rules agree => exact .filter ahead rules agree

theorem begun (agree : Agree D tower other) : Agree D tower.begun other.begun := by
  rw [Tower.begun, Tower.begun, agree.pass]
  exact agree.repass agree.ahead

theorem settle (agree : Agree D tower other) (told : Draw) :
    ∃ left', Tower.settle (told, other) = ((Tower.settle (told, tower)).1, left') ∧
      Agree D (Tower.settle (told, tower)).2 left' := by
  have finish : Agree D tower.finish other.finish := by
    cases agree with
    | ground ahead keeps => exact .ground ahead keeps.release
    | passage ahead agree => exact .passage ahead agree
    | filter ahead rules agree => exact .filter ahead rules agree
  cases told with
  | ok item => exact ⟨other, rfl, agree⟩
  | error fault =>
    simp only [Tower.settle]
    cases fault.isEnd with
    | true => exact ⟨_, rfl, finish⟩
    | false => exact ⟨_, rfl, agree⟩

variable (D) in
/-- Whether a step tells an element of the domain or a fault, and another one tells the same then and leaves a tower that
agrees. -/
def Likewise (step step' : Option (Draw × Tower)) : Prop :=
  ∀ told left, step = some (told, left) →
    ∃ left', step' = some (told, left') ∧ Agree D left left' ∧ ∀ item, told = .ok item → D item

/-- Towers that pull alike hand out alike. -/
theorem next_succ (agree : Agree D tower other)
    (pulls : Likewise D (Tower.pull n tower.begun) (Tower.pull n other.begun)) :
    Likewise D (Tower.next (n + 1) tower) (Tower.next (n + 1) other) := by
  intro told left ends
  rw [Tower.next] at ends ⊢
  rw [agree.pass]
  cases found : tower.pass.peeked with
  | some item =>
    rw [found] at ends
    cases ends
    refine ⟨_, rfl, agree.repass fun _ same => (by cases same), fun item same => ?_⟩
    cases same
    exact agree.ahead _ found
  | none =>
    simp only [found] at ends ⊢
    by_cases spent : tower.pass.exhausted
    · rw [if_pos spent] at ends ⊢
      cases ends
      exact ⟨other, rfl, agree, fun _ same => (by cases same)⟩
    · rw [if_neg spent] at ends ⊢
      obtain ⟨⟨drawn, between⟩, pulled, settled⟩ := Option.map_eq_some_iff.mp ends
      obtain ⟨between', pulled', agree', domain⟩ := pulls _ _ pulled
      obtain ⟨last, settled', agree''⟩ := agree'.settle drawn
      rw [settled] at settled' agree''
      refine ⟨last, by rw [pulled', Option.map_some, settled'], agree'', fun item same => domain item ?_⟩
      subst same
      cases drawn <;> cases settled
      rfl

/-- A filter that is handed an element of the domain judges it as one that agrees does, and goes on pulling alike. -/
theorem pull_filter {pass : Pass} {rule rule' : Rule} {seen : Seen} {below below' : Tower}
    (ahead : ∀ item, pass.peeked = some item → D item) (rules : rule.AgreesOn D rule')
    (asks : Likewise D (Tower.next n below) (Tower.next n below'))
    (pulls : ∀ tower other, Agree D tower other → Likewise D (Tower.pull n tower) (Tower.pull n other)) :
    Likewise D (Tower.pull (n + 1) (.filter pass rule seen below)) (Tower.pull (n + 1) (.filter pass rule' seen below')) := by
  intro told left ends
  rw [Tower.pull] at ends ⊢
  rcases asked : Tower.next n below with _ | ⟨drawn, between⟩
  · simp [asked] at ends
  · obtain ⟨between', asked', agree, domain⟩ := asks _ _ asked
    rw [asked] at ends
    rw [asked']
    cases drawn with
    | error fault =>
      cases ends
      exact ⟨_, rfl, .filter ahead rules agree, fun _ same => (by cases same)⟩
    | ok item =>
      simp only [rules.judge seen (domain item rfl)] at ends ⊢
      generalize rule.judge seen item = outcome at ends ⊢
      rcases outcome with ⟨fault | _ | _, after⟩
      · cases ends
        exact ⟨_, rfl, .filter ahead rules agree, fun _ same => (by cases same)⟩
      · exact pulls _ _ (.filter ahead rules agree) told left ends
      · cases ends
        exact ⟨_, rfl, .filter ahead rules agree, domain⟩

/-- Towers that agree are asked and pull alike, at every depth. -/
theorem next_pull (n : Nat) :
    (∀ tower other, Agree D tower other → Likewise D (Tower.next n tower) (Tower.next n other)) ∧
      ∀ tower other, Agree D tower other → Likewise D (Tower.pull n tower) (Tower.pull n other) := by
  induction n with
  | zero =>
    refine ⟨fun tower other _ told left ends => ?_, fun tower other _ told left ends => ?_⟩
    · simp [Tower.next] at ends
    · simp [Tower.pull] at ends
  | succ n ih =>
    obtain ⟨asks, pulls⟩ := ih
    refine ⟨fun tower other agree => agree.next_succ (pulls _ _ agree.begun), fun tower other agree => ?_⟩
    cases agree with
    | @ground pass origin ahead keeps =>
      intro told left ends
      rw [Tower.pull] at ends
      obtain ⟨⟨drawn, between⟩, draws, same⟩ := Option.map_eq_some_iff.mp ends
      obtain ⟨keeps', domain⟩ := keeps.draw draws
      cases same
      exact ⟨_, by rw [Tower.pull, draws, Option.map_some], .ground ahead keeps', domain⟩
    | passage ahead agree =>
      intro told left ends
      rw [Tower.pull] at ends ⊢
      obtain ⟨⟨drawn, between⟩, asked, same⟩ := Option.map_eq_some_iff.mp ends
      obtain ⟨between', asked', agree', domain⟩ := asks _ _ agree _ _ asked
      cases same
      exact ⟨_, by rw [asked', Option.map_some], .passage ahead agree', domain⟩
    | filter ahead rules agree => exact pull_filter ahead rules (asks _ _ agree) pulls

/-- Towers that agree are taken back alike. -/
theorem rewind (agree : Agree D tower other) :
    other.rewind.1 = tower.rewind.1 ∧ Agree D tower.rewind.2 other.rewind.2 := by
  have unpeeked : ∀ item, ({} : Pass).peeked = some item → D item := fun _ same => by cases same
  induction agree with
  | @ground pass origin ahead keeps =>
    have reset := keeps.reset pass.started
    refine ⟨rfl, ?_⟩
    rw [Tower.rewind]
    rcases resets : origin.reset pass.started with ⟨_ | fault, left⟩ <;> rw [resets] at reset
    · exact .ground unpeeked reset
    · exact .ground ahead reset
  | @passage pass below below' ahead agree ih =>
    obtain ⟨same, agree'⟩ := ih
    rw [Tower.rewind, Tower.rewind]
    rcases rewound : below.rewind with ⟨fault, left⟩
    rcases rewound' : below'.rewind with ⟨fault', left'⟩
    rw [rewound, rewound'] at same agree'
    obtain rfl : fault' = fault := same
    cases fault' with
    | none => exact ⟨rfl, .passage unpeeked agree'⟩
    | some fault => exact ⟨rfl, .passage ahead agree'⟩
  | @filter pass rule rule' seen below below' ahead rules agree ih =>
    obtain ⟨same, agree'⟩ := ih
    rw [Tower.rewind, Tower.rewind]
    rcases rewound : below.rewind with ⟨fault, left⟩
    rcases rewound' : below'.rewind with ⟨fault', left'⟩
    rw [rewound, rewound'] at same agree'
    obtain rfl : fault' = fault := same
    cases fault' with
    | none => exact ⟨rfl, .filter unpeeked rules agree'⟩
    | some fault => exact ⟨rfl, .filter ahead rules agree'⟩

theorem size (agree : Agree D tower other) : other.size = tower.size := by
  induction agree with
  | ground ahead keeps => rfl
  | passage ahead agree ih => exact ih
  | filter ahead rules agree ih => rfl

/-- New filters that agree in turn, on towers that agree. -/
theorem filters {rules rules' : List Rule} (agrees : List.Forall₂ (Rule.AgreesOn D) rules rules')
    (agree : Agree D tower other) : Agree D (Tower.filters rules tower) (Tower.filters rules' other) := by
  induction agrees generalizing tower other with
  | nil => exact agree
  | cons first _ ih => exact ih (.filter (fun _ same => by cases same) first agree)

end Agree

/-- Under the same layers, nobody can tell towers that agree from each other. -/
theorem simulates_agree : Simulates (Layered (Agree D) true) 0 :=
  Layered.simulates
    (fun n tower other told left agree ends => by
      obtain ⟨left', ends', agree', -⟩ := (Agree.next_pull n).1 _ _ agree told left ends
      exact ⟨left', ends', agree'⟩)
    (fun _ _ agree => agree.rewind)
    (fun _ _ agree => agree.size)

/-- That towers agree can be read both ways. -/
theorem simulates_agree_back : Simulates (flip (Layered (Agree D) true)) 0 := by
  have same : flip (Layered (Agree D) true) = Layered (Agree D) true := by
    have flipped : flip (Agree D) = Agree D := by
      funext tower other
      exact propext ⟨Agree.symm, Agree.symm⟩
    funext tower other
    refine propext ⟨fun layered => ?_, fun layered => ?_⟩
    · exact flipped ▸ layered.symm
    · exact flipped ▸ layered.symm
  rw [same]
  exact simulates_agree

end Tower

end FirstSeen
