import FirstSeen.Proofs.Tower.Flowing

/-!
# How elements surface

A tower that is asked for an element lifts one element after another from its ground until one gets to the
top. `Tower.lift` takes a single element as far as it gets: each filter on its way judges it once and lets it
through or drops it. `Tower.Surfaces` repeats this up to the first element that is not dropped, or to a fault,
and lists what was done on the way.

The calls of the engine are nested the other way round: each filter has a loop of its own around the tower
below it. Asking a tower ends if and only if something surfaces, and then with that.
-/

set_option autoImplicit false

namespace FirstSeen

/-- What is done while an element is asked for: the ground is drawn from, or the filter above so many sequences
judges an element. -/
inductive Deed where
  | drew
  | judged (height : Nat) (item : Item)

namespace Origin

/-- A draw from an origin that is given a call to move its tape on. -/
def taken (origin : Origin) : Draw × Origin :=
  match origin.held with
  | some start => origin.advance start
  | none =>
    let opened := { origin with openings := fun i => origin.openings (i + 1) }
    match origin.openings 0 with
    | .error fault => (.error fault, opened)
    | .ok start => opened.advance start

theorem draw_succ (n : Nat) (origin : Origin) : origin.draw (n + 1) = some origin.taken := by
  rw [draw, taken]
  cases origin.held with
  | some start => rfl
  | none => cases origin.openings 0 <;> rfl

/-- A draw that ends is the one that is given a call. -/
theorem draw_taken {n : Nat} {origin : Origin} {drawn : Draw × Origin} (ends : origin.draw n = some drawn) :
    drawn = origin.taken := by
  have more := draw_mono ends
  rw [draw_succ] at more
  exact (Option.some.inj more).symm

end Origin

namespace Tower

/-- The tower once a fault went through its topmost sequence. -/
def halted (fault : Fault) (tower : Tower) : Tower := if fault.isEnd then tower.finish else tower

theorem settle_error (fault : Fault) (tower : Tower) :
    settle (.error fault, tower) = (.error fault, tower.halted fault) := rfl

/-- One element on its way up: drawn at the ground, and handed on by each filter that finds it fresh. It comes
with whether it got to the top. -/
def lift : Tower → Except Fault (Item × Bool) × List Deed × Tower
  | ground pass origin =>
    match origin.taken with
    | (.error fault, left) => (.error fault, [.drew], halted fault (ground { pass with started := true } left))
    | (.ok item, left) => (.ok (item, true), [.drew], ground { pass with started := true } left)
  | passage pass below =>
    match below.lift with
    | (.error fault, deeds, left) => (.error fault, deeds, halted fault (passage { pass with started := true } left))
    | (.ok risen, deeds, left) => (.ok risen, deeds, passage { pass with started := true } left)
  | filter pass rule seen below =>
    match below.lift with
    | (.error fault, deeds, left) =>
      (.error fault, deeds, halted fault (filter { pass with started := true } rule seen left))
    | (.ok (item, false), deeds, left) =>
      (.ok (item, false), deeds, filter { pass with started := true } rule seen left)
    | (.ok (item, true), deeds, left) =>
      match rule.judge seen item with
      | (.error fault, seen) => (.error fault, deeds ++ [.judged below.height item],
          halted fault (filter { pass with started := true } rule seen left))
      | (.ok fresh, seen) => (.ok (item, fresh), deeds ++ [.judged below.height item],
          filter { pass with started := true } rule seen left)

section Equations

-- The equations of this definition are derived here, once for all the proofs that unfold it.
attribute [local simp] lift

end Equations

/-- What surfaces of a tower: the first element that gets to the top, or a fault. -/
inductive Surfaces : Tower → List Deed → Draw → Tower → Prop
  | failed {tower left : Tower} {deeds : List Deed} {fault : Fault}
      (lifts : tower.lift = (.error fault, deeds, left)) : Surfaces tower deeds (.error fault) left
  | fresh {tower left : Tower} {deeds : List Deed} {item : Item}
      (lifts : tower.lift = (.ok (item, true), deeds, left)) : Surfaces tower deeds (.ok item) left
  | dropped {tower between left : Tower} {deeds more : List Deed} {item : Item} {told : Draw}
      (lifts : tower.lift = (.ok (item, false), deeds, between)) (rest : Surfaces between more told left) :
      Surfaces tower (deeds ++ more) told left

/-- Whether nothing was peeked at and no sequence met its end. -/
def Calm : Tower → Prop
  | ground pass _ => pass.peeked = none ∧ pass.exhausted = false
  | passage pass below | filter pass _ _ below => (pass.peeked = none ∧ pass.exhausted = false) ∧ below.Calm

theorem Calm.pass {tower : Tower} (calm : tower.Calm) :
    tower.pass.peeked = none ∧ tower.pass.exhausted = false := by
  cases tower with
  | ground pass origin => exact calm
  | passage pass below | filter pass rule seen below => exact calm.1

/-- What surfaces is determined. -/
theorem Surfaces.unique {tower left left' : Tower} {deeds deeds' : List Deed} {told told' : Draw}
    (surfaces : Surfaces tower deeds told left) (other : Surfaces tower deeds' told' left') :
    deeds = deeds' ∧ told = told' ∧ left = left' := by
  induction surfaces generalizing deeds' with
  | failed lifts =>
    cases other with
    | failed lifts' => cases lifts.symm.trans lifts'; exact ⟨rfl, rfl, rfl⟩
    | fresh lifts' | dropped lifts' => cases lifts.symm.trans lifts'
  | fresh lifts =>
    cases other with
    | fresh lifts' => cases lifts.symm.trans lifts'; exact ⟨rfl, rfl, rfl⟩
    | failed lifts' | dropped lifts' => cases lifts.symm.trans lifts'
  | dropped lifts rest ih =>
    cases other with
    | failed lifts' | fresh lifts' => cases lifts.symm.trans lifts'
    | dropped lifts' rest' =>
      cases lifts.symm.trans lifts'
      obtain ⟨rfl, same⟩ := ih rest'
      exact ⟨rfl, same⟩

/-! ## Calm towers -/

/-- A tower that lifted an element is as calm as it was. -/
theorem lift_calm {tower left : Tower} {deeds : List Deed} {risen : Item × Bool} (calm : tower.Calm)
    (lifts : tower.lift = (.ok risen, deeds, left)) : left.Calm := by
  induction tower generalizing risen deeds left with
  | ground pass origin =>
    rw [lift] at lifts
    split at lifts
    · cases lifts
    · cases lifts
      exact calm
  | passage pass below ih =>
    rw [lift] at lifts
    split at lifts
    · cases lifts
    · rename_i below'
      cases lifts
      exact ⟨calm.1, ih calm.2 below'⟩
  | filter pass rule seen below ih =>
    rw [lift] at lifts
    split at lifts
    · cases lifts
    · rename_i below'
      cases lifts
      exact ⟨calm.1, ih calm.2 below'⟩
    · rename_i below'
      split at lifts
      · cases lifts
      · cases lifts
        exact ⟨calm.1, ih calm.2 below'⟩

theorem Surfaces.calm {tower left : Tower} {deeds : List Deed} {item : Item}
    (surfaces : Surfaces tower deeds (.ok item) left) (calm : tower.Calm) : left.Calm := by
  generalize told : Except.ok item = draw at surfaces
  induction surfaces with
  | failed lifts => cases told
  | fresh lifts => exact lift_calm calm lifts
  | dropped lifts rest ih => exact ih (lift_calm calm lifts) told

/-- Being asked for an element already makes no difference to what is lifted. -/
theorem lift_begun (tower : Tower) : tower.begun.lift = tower.lift := by
  cases tower <;> rfl

theorem surfaces_begun {tower left : Tower} {deeds : List Deed} {told : Draw} :
    Surfaces tower.begun deeds told left ↔ Surfaces tower deeds told left := by
  constructor
  · intro surfaces
    cases surfaces with
    | failed lifts => exact .failed (tower.lift_begun ▸ lifts)
    | fresh lifts => exact .fresh (tower.lift_begun ▸ lifts)
    | dropped lifts rest => exact .dropped (tower.lift_begun ▸ lifts) rest
  · intro surfaces
    cases surfaces with
    | failed lifts => exact .failed (tower.lift_begun.trans lifts)
    | fresh lifts => exact .fresh (tower.lift_begun.trans lifts)
    | dropped lifts rest => exact .dropped (tower.lift_begun.trans lifts) rest

/-! ## One layer more -/

section Layers

variable {pass : Pass} {rule : Rule} {seen : Seen} {below left : Tower} {deeds : List Deed}

theorem begun_eq (begun : pass.started = true) : { pass with started := true } = pass := by
  rw [← begun]

/-- What is drawn at the ground surfaces there. -/
theorem surfaces_ground {n : Nat} {origin left : Origin} {told : Draw} (drawn : origin.draw n = some (told, left))
    (begun : pass.started = true) :
    Surfaces (ground pass origin) [.drew] told (settle (told, ground pass left)).2 := by
  have taken := Origin.draw_taken drawn
  cases told with
  | error fault => exact .failed (by simp only [lift, ← taken, begun_eq begun]; rfl)
  | ok item => exact .fresh (by simp only [lift, ← taken, begun_eq begun]; rfl)

/-- What surfaces below a passage surfaces above it. -/
theorem surfaces_passage {told : Draw} (surfaces : Surfaces below deeds told left) (begun : pass.started = true) :
    Surfaces (passage pass below) deeds told (settle (told, passage pass left)).2 := by
  induction surfaces with
  | failed lifts => exact .failed (by simp only [lift, lifts, begun_eq begun]; rfl)
  | fresh lifts => exact .fresh (by simp only [lift, lifts, begun_eq begun]; rfl)
  | @dropped tower between left deeds more item told lifts rest ih =>
    have above : (passage pass tower).lift = (.ok (item, false), deeds, passage pass between) := by
      simp only [lift, lifts, begun_eq begun]
    exact .dropped above ih

/-- A fault that surfaces below a filter surfaces above it. -/
theorem surfaces_filter_failed {fault : Fault} (surfaces : Surfaces below deeds (.error fault) left)
    (begun : pass.started = true) :
    Surfaces (filter pass rule seen below) deeds (.error fault) (halted fault (filter pass rule seen left)) := by
  generalize told : Except.error fault = draw at surfaces
  induction surfaces with
  | failed lifts =>
    cases told
    exact .failed (by simp only [lift, lifts, begun_eq begun])
  | fresh lifts => cases told
  | @dropped tower between left deeds more item draw lifts rest ih =>
    have above : (filter pass rule seen tower).lift = (.ok (item, false), deeds, filter pass rule seen between) := by
      simp only [lift, lifts, begun_eq begun]
    have later := ih told
    subst told
    exact .dropped above later

/-- A tower that lifted an element is as high as it was. -/
theorem height_lift (tower : Tower) : tower.lift.2.2.height = tower.height := by
  have halts : ∀ (fault : Fault) (tower : Tower), (halted fault tower).height = tower.height :=
    fun fault tower => height_settle (.error fault) tower
  induction tower with
  | ground pass origin =>
    rw [lift]
    split
    · exact halts _ _
    · rfl
  | passage pass below ih =>
    rw [lift]
    split <;> rename_i lifts <;> rw [lifts] at ih
    · exact (halts _ _).trans (congrArg (· + 1) ih)
    · exact congrArg (· + 1) ih
  | filter pass rule seen below ih =>
    rw [lift]
    split <;> rename_i lifts <;> rw [lifts] at ih
    · exact (halts _ _).trans (congrArg (· + 1) ih)
    · exact congrArg (· + 1) ih
    · split
      · exact (halts _ _).trans (congrArg (· + 1) ih)
      · exact congrArg (· + 1) ih

/-- Elements that are dropped below a filter are dropped above it, so that what surfaces of the filter depends on
the element that surfaces below it. -/
theorem surfaces_past_drops {item : Item} {more : List Deed} {told : Draw} {last : Tower}
    (surfaces : Surfaces below deeds (.ok item) left) (begun : pass.started = true)
    (surfaced : ∀ between first, between.lift = (.ok (item, true), first, left) →
      between.height = below.height →
      Surfaces (filter pass rule seen between) (first ++ more) told last) :
    Surfaces (filter pass rule seen below) (deeds ++ more) told last := by
  generalize delivered : Except.ok item = draw at surfaces
  induction surfaces with
  | failed lifts => cases delivered
  | fresh lifts =>
    cases delivered
    exact surfaced _ _ lifts rfl
  | @dropped tower between left deeds rest dropped draw lifts surfaces ih =>
    have above : (filter pass rule seen tower).lift =
        (.ok (dropped, false), deeds, filter pass rule seen between) := by
      simp only [lift, lifts, begun_eq begun]
    have same : between.height = tower.height := by
      rw [← height_lift tower, lifts]
    rw [List.append_assoc]
    refine .dropped above (ih (fun other first lifts' count => ?_) delivered)
    exact surfaced other first lifts' (count.trans same)

/-- What surfaces of a filter once an element surfaced below it: the element if it is fresh, or what comes after
it if it is not. -/
theorem surfaces_filter_judged {item : Item} (surfaces : Surfaces below deeds (.ok item) left)
    (begun : pass.started = true) :
    match rule.judge seen item with
    | (.error fault, after) => Surfaces (filter pass rule seen below)
        (deeds ++ [.judged below.height item]) (.error fault) (halted fault (filter pass rule after left))
    | (.ok true, after) => Surfaces (filter pass rule seen below)
        (deeds ++ [.judged below.height item]) (.ok item) (filter pass rule after left)
    | (.ok false, after) => ∀ more told last, Surfaces (filter pass rule after left) more told last →
        Surfaces (filter pass rule seen below) (deeds ++ .judged below.height item :: more) told last := by
  rcases verdict : rule.judge seen item with ⟨fault | _ | _, after⟩
  · refine surfaces_past_drops surfaces begun fun between first lifts count => .failed ?_
    simp only [lift, lifts, verdict, count, begun_eq begun]
  · intro more told last rest
    refine surfaces_past_drops surfaces begun fun between first lifts count => ?_
    have above : (filter pass rule seen between).lift =
        (.ok (item, false), first ++ [.judged below.height item], filter pass rule after left) := by
      simp only [lift, lifts, verdict, count, begun_eq begun]
    rw [List.append_cons]
    exact .dropped above rest
  · refine surfaces_past_drops surfaces begun fun between first lifts count => .fresh ?_
    simp only [lift, lifts, verdict, count, begun_eq begun]

end Layers

/-! ## Asking a tower -/

/-- Asking a calm tower, if it ends, ends with what surfaces. -/
theorem next_surfaces {n : Nat} {tower left : Tower} {told : Draw} (calm : tower.Calm)
    (ends : next n tower = some (told, left)) : ∃ deeds, Surfaces tower deeds told left := by
  refine (run_induction (R := fun tower told left => tower.Calm → ∃ deeds, Surfaces tower deeds told left)
    -- A pull has not finished the tower yet if it met the end.
    (S := fun tower told left => tower.Calm → tower.pass.started = true →
      ∃ deeds, Surfaces tower deeds told (settle (told, left)).2) ?_ ?_ ?_ ?_ ?_ ?_ ?_ n).1 tower told left ends calm
  · intro tower item found calm
    rw [calm.pass.1] at found
    cases found
  · intro tower _ spent calm
    rw [calm.pass.2] at spent
    cases spent
  · intro tower told left _ _ pulls calm
    have calm' : tower.begun.Calm := by cases tower <;> exact calm
    obtain ⟨deeds, surfaces⟩ := pulls calm' (by rw [begun, pass_withPass])
    have same : (settle (told, left)).1 = told := by cases told <;> rfl
    rw [same]
    exact ⟨deeds, surfaces_begun.mp surfaces⟩
  · intro pass origin n told left drawn _ begun
    exact ⟨[.drew], surfaces_ground drawn begun⟩
  · intro pass below told left asks calm begun
    obtain ⟨deeds, surfaces⟩ := asks calm.2
    exact ⟨deeds, surfaces_passage surfaces begun⟩
  · intro pass rule seen below fault left asks calm begun
    obtain ⟨deeds, surfaces⟩ := asks calm.2
    exact ⟨deeds, surfaces_filter_failed surfaces begun⟩
  · intro pass rule seen below item left asks
    refine ⟨fun fault failed calm begun => ?_, fun fresh calm begun => ?_, fun told last repeated pulls calm begun => ?_⟩ <;>
      obtain ⟨deeds, surfaces⟩ := asks calm.2 <;>
      have judged := @surfaces_filter_judged _ rule seen _ _ _ _ surfaces begun <;>
      rcases verdict : rule.judge seen item with ⟨fault' | fresh', after⟩ <;>
      rw [verdict] at judged
    · rw [verdict] at failed
      cases failed
      exact ⟨_, judged⟩
    · rw [verdict] at failed
      cases failed
    · rw [verdict] at fresh
      cases fresh
    · rw [verdict] at fresh
      cases fresh
      exact ⟨_, judged⟩
    · rw [verdict] at repeated
      cases repeated
    · rw [verdict] at repeated pulls
      cases repeated
      obtain ⟨more, rest⟩ := pulls ⟨calm.1, surfaces.calm calm.2⟩ begun
      exact ⟨_, judged more _ _ rest⟩

/-- A pull from a calm tower that ends is settled by the tower. -/
theorem next_of_pull {n : Nat} {tower left : Tower} {told : Draw} (calm : tower.Calm)
    (ends : pull n tower.begun = some (told, left)) :
    next (n + 1) tower = some (told, (settle (told, left)).2) := by
  rw [next, calm.pass.1, calm.pass.2, ends]
  cases told <;> rfl

/-- What surfaces of a passage surfaces below it. -/
theorem surfaces_below_passage {pass : Pass} {below left : Tower} {deeds : List Deed} {told : Draw}
    (surfaces : Surfaces (passage pass below) deeds told left) (begun : pass.started = true) :
    ∃ left', Surfaces below deeds told left' ∧ left = (settle (told, passage pass left')).2 := by
  generalize form : passage pass below = tower at surfaces
  induction surfaces generalizing below with
  | failed lifts =>
    subst form
    rw [lift, begun_eq begun] at lifts
    split at lifts <;> cases lifts
    exact ⟨_, .failed ‹_›, rfl⟩
  | fresh lifts =>
    subst form
    rw [lift, begun_eq begun] at lifts
    split at lifts <;> cases lifts
    exact ⟨_, .fresh ‹_›, rfl⟩
  | dropped lifts rest ih =>
    subst form
    rw [lift, begun_eq begun] at lifts
    split at lifts <;> cases lifts
    obtain ⟨left', surfaces, same⟩ := ih rfl
    exact ⟨left', .dropped ‹_› surfaces, same⟩

/-- A filter pulls what surfaces of it if all calm towers as high as the one below it can be asked. That tower
may have dropped elements already since the filter asked it. -/
theorem pull_filter_of_surfaces {height : Nat} {rule : Rule} {tower left : Tower} {deeds : List Deed} {told : Draw}
    (asks : ∀ (below left : Tower) (deeds : List Deed) (told : Draw), below.height = height → below.Calm →
      Surfaces below deeds told left → ∃ n, next n below = some (told, left))
    (surfaces : Surfaces tower deeds told left) {pass : Pass} (begun : pass.started = true) {seen : Seen}
    {below between : Tower} (first : List Deed) (form : tower = filter pass rule seen between)
    (high : below.height = height) (calm : below.Calm)
    (drops : ∀ more told last, Surfaces between more told last → Surfaces below (first ++ more) told last) :
    ∃ n left', pull n (filter pass rule seen below) = some (told, left') ∧ left = (settle (told, left')).2 := by
  induction surfaces generalizing seen between below first with
  | failed lifts =>
    subst form
    rw [lift, begun_eq begun] at lifts
    split at lifts
    · cases lifts
      obtain ⟨n, ends⟩ := asks _ _ _ _ high calm (drops _ _ _ (.failed ‹_›))
      exact ⟨n + 1, _, by rw [pull, ends], rfl⟩
    · cases lifts
    · obtain ⟨n, ends⟩ := asks _ _ _ _ high calm (drops _ _ _ (.fresh ‹_›))
      split at lifts <;> cases lifts
      rename_i judged
      exact ⟨n + 1, _, by simp only [pull, ends, judged], rfl⟩
  | fresh lifts =>
    subst form
    rw [lift, begun_eq begun] at lifts
    split at lifts
    · cases lifts
    · cases lifts
    · obtain ⟨n, ends⟩ := asks _ _ _ _ high calm (drops _ _ _ (.fresh ‹_›))
      split at lifts <;> cases lifts
      rename_i judged
      exact ⟨n + 1, _, by simp only [pull, ends, judged], rfl⟩
  | @dropped tower between' left deeds more item told lifts rest ih =>
    subst form
    rw [lift, begun_eq begun] at lifts
    split at lifts
    · cases lifts
    · -- The element was dropped below the filter.
      rename_i lifts'
      cases lifts
      refine ih (first ++ deeds) rfl high calm fun more told last surfaces => ?_
      rw [List.append_assoc]
      exact drops _ _ _ (.dropped lifts' surfaces)
    · -- It got to the filter, which dropped it and begins anew.
      have surfaced := drops _ _ _ (.fresh ‹_›)
      obtain ⟨n, ends⟩ := asks _ _ _ _ high calm surfaced
      split at lifts <;> cases lifts
      rename_i judged
      obtain ⟨m, left', pulled, same⟩ := ih [] rfl ((height_next ends).trans high) (surfaced.calm calm)
        fun _ _ _ surfaces => surfaces
      refine ⟨max n m + 1, left', ?_, same⟩
      simp only [pull, next_mono (Nat.le_max_left n m) ends, judged]
      exact pull_mono (Nat.le_max_right n m) pulled

/-- What surfaces of a calm tower can be asked for. -/
theorem surfaces_next {tower left : Tower} {deeds : List Deed} {told : Draw} (calm : tower.Calm)
    (surfaces : Surfaces tower deeds told left) : ∃ n, next n tower = some (told, left) := by
  induction high : tower.height using Nat.strongRecOn generalizing tower left deeds told with
  | ind height ih =>
    have calm' : tower.begun.Calm := by cases tower <;> exact calm
    have started : tower.begun.pass.started = true := by rw [begun, pass_withPass]
    obtain ⟨n, left', pulled, rfl⟩ : ∃ n left', pull n tower.begun = some (told, left') ∧
        left = (settle (told, left')).2 := by
      have high' := (height_begun tower).trans high
      have surfaces' := surfaces_begun.mpr surfaces
      generalize tower.begun = tower at calm' started high' surfaces'
      cases tower with
      | ground pass origin =>
        have drawn : ∀ {told : Draw} {left : Origin}, origin.taken = (told, left) →
            pull 2 (ground pass origin) = some (told, ground pass left) := fun {told left} taken => by
          rw [pull, Origin.draw_succ, taken]
          rfl
        have same := begun_eq (show pass.started = true from started)
        cases surfaces' with
        | failed lifts | fresh lifts =>
          rw [lift, same] at lifts
          split at lifts <;> cases lifts
          exact ⟨2, _, drawn ‹_›, rfl⟩
        | dropped lifts rest =>
          rw [lift] at lifts
          split at lifts <;> cases lifts
      | passage pass below =>
        obtain ⟨left', risen, rfl⟩ := surfaces_below_passage surfaces' started
        obtain ⟨n, ends⟩ := ih below.height (high' ▸ Nat.lt_succ_self _) calm'.2 risen rfl
        exact ⟨n + 1, passage pass left', by rw [pull, ends]; rfl, rfl⟩
      | filter pass rule seen below =>
        exact pull_filter_of_surfaces (fun other left deeds told same calm surfaces =>
          ih below.height (high' ▸ Nat.lt_succ_self _) calm surfaces same) surfaces' started [] rfl rfl calm'.2
          fun _ _ _ surfaces => surfaces
    exact ⟨n + 1, next_of_pull calm pulled⟩

end Tower

end FirstSeen
