import FirstSeen.Proofs.History.Grove

/-!
# Stores that bear groves

A store bears a grove if the sequence at its root stands as the tower of the root, each pipeline that was woken stands on
it with layers of its own, and each other pipeline buds on it. What visits to the sequence and to the pipelines come to
in the store is then what they come to in the grove, and the store bears what is left of it.
-/

set_option autoImplicit false

namespace FirstSeen

namespace Store

variable {D : Item → Prop} {aside : Option CursorId} {multi : Bool} {plot : Plot} {rest : List SequenceId}

/-- Whether a pipeline buds on the root of a plot if it has no tower, and stands as its tower otherwise, with layers of its
own between itself and the root. -/
def Sprouts (D : Item → Prop) (aside : Option CursorId) (multi : Bool) (plot : Plot) (rest : List SequenceId)
    (p : SequenceId) (layers : List SequenceId) (store : Store) : Option Tower → Prop
  | none => layers = [] ∧ ∃ steps, store.Buds D multi plot.root steps (plot.rules p) p {}
  | some tower => layers.length = (plot.rules p).length ∧
      store.Stands D aside multi p (p :: (layers ++ plot.root :: rest)) tower

/-- Whether a store bears a grove, given the layers of each pipeline. The root can be taken back to its beginning, and is
there unless it was started. -/
structure BearsWith (D : Item → Prop) (aside : Option CursorId) (multi : Bool) (plot : Plot) (rest : List SequenceId)
    (family : SequenceId → Prop) (layers : SequenceId → List SequenceId) (store : Store) (grove : Grove) : Prop where
  base : store.Stands D aside multi plot.root (plot.root :: rest) grove.base
  returns : Tower.Returns plot.start grove.base
  came : Tower.CameFrom plot.start grove.base
  level : plot.Level grove
  branch : ∀ p, family p → store.Sprouts D aside multi plot rest p (layers p) (grove.branch p)
  inside : ∀ p, family p → ∀ layer ∈ p :: layers p, layer.index < store.sequences.size
  apart : ∀ p, family p → ∀ layer ∈ p :: layers p, layer ∉ plot.root :: rest ∧
    ∀ q, family q → q ≠ p → layer ∉ q :: layers q

/-- Whether a store bears a grove. -/
def Bears (D : Item → Prop) (aside : Option CursorId) (multi : Bool) (plot : Plot) (rest : List SequenceId)
    (family : SequenceId → Prop) (store : Store) (grove : Grove) : Prop :=
  ∃ layers, store.BearsWith D aside multi plot rest family layers grove

variable {family : SequenceId → Prop} {layers : SequenceId → List SequenceId} {store after : Store} {grove : Grove}
  {p : SequenceId}

/-- A pipeline that was left alone goes on budding, or stands on what the root has become. -/
theorem Sprouts.moved {own ids : List SequenceId} {tower? : Option Tower} {base : Tower}
    (sprouts : store.Sprouts D aside multi plot rest p own tower?)
    (below : after.Stands D aside multi plot.root (plot.root :: rest) base) (works : store.Works ids after)
    (inside : ∀ layer ∈ p :: own, layer.index < store.sequences.size) (apart : ∀ layer ∈ p :: own, layer ∉ ids) :
    after.Sprouts D aside multi plot rest p own (tower?.map fun tower => tower.graft (plot.layers p) base) := by
  have same : ∀ layer ∈ p :: own, after.sequence layer = store.sequence layer := fun layer member =>
    works.others layer (apart layer member) (inside layer member)
  cases tower? with
  | none =>
    obtain ⟨none, steps, buds⟩ := sprouts
    exact ⟨none, steps, buds.later works.grows works.size (same p List.mem_cons_self)⟩
  | some tower =>
    obtain ⟨many, stands⟩ := sprouts
    have layered : store.Stands D aside multi p ((p :: own) ++ plot.root :: rest) tower := stands
    have grafted := layered.graft below works.grows works.size same
    rw [List.length_cons, many] at grafted
    exact ⟨many, grafted⟩

/-- Asking the root moves it for all pipelines. -/
theorem BearsWith.moved {base : Tower} (bears : store.BearsWith D aside multi plot rest family layers grove)
    (below : after.Stands D aside multi plot.root (plot.root :: rest) base) (returns : Tower.Returns plot.start base)
    (came : Tower.CameFrom plot.start base) (works : store.Works (plot.root :: rest) after) :
    after.BearsWith D aside multi plot rest family layers (plot.moved grove base) where
  base := below
  returns := returns
  came := came
  level := bears.level.moved base
  branch p related := (bears.branch p related).moved below works (bears.inside p related)
    fun layer member => (bears.apart p related layer member).1
  inside p related layer member := Nat.lt_of_lt_of_le (bears.inside p related layer member) works.size
  apart := bears.apart

/-- Asking a pipeline moves it, and the root for all other ones. Layers of it that were not there are new. -/
theorem BearsWith.grown {tower : Tower} {own : List SequenceId}
    (bears : store.BearsWith D aside multi plot rest family layers grove) (related : family p)
    (many : own.length = (plot.rules p).length)
    (new : ∀ layer ∈ own, layer ∈ layers p ∨ store.sequences.size ≤ layer.index)
    (stands : after.Stands D aside multi p (p :: (own ++ plot.root :: rest)) tower)
    (works : store.Works (p :: (own ++ plot.root :: rest)) after)
    (returns : Tower.Returns plot.start (tower.beneath (plot.layers p)))
    (came : Tower.CameFrom plot.start (tower.beneath (plot.layers p))) :
    after.BearsWith D aside multi plot rest family (Function.update layers p own) (plot.grown grove p tower) := by
  have layered : after.Stands D aside multi p ((p :: own) ++ plot.root :: rest) tower := stands
  obtain ⟨below, deep⟩ := layered.beneath
  rw [List.length_cons, many] at below deep
  -- What a sequence that was there is not, it does not become.
  have apart : ∀ layer, layer.index < store.sequences.size → layer ∉ p :: layers p → layer ∉ p :: own := by
    intro layer inside apart member
    rcases List.mem_cons.mp member with rfl | member
    · exact apart List.mem_cons_self
    · rcases new layer member with old | new
      · exact apart (List.mem_cons_of_mem _ old)
      · exact absurd inside (Nat.not_lt.mpr new)
  have others : ∀ q, family q → q ≠ p → ∀ layer ∈ q :: layers q, layer ∉ p :: own := fun q related' different layer member =>
    apart layer (bears.inside q related' layer member) ((bears.apart q related' layer member).2 p related different.symm)
  have here : ∀ layer ∈ p :: own, layer ∉ plot.root :: rest := fun layer member beneath => by
    have distinct := stands.nodup
    rw [← List.cons_append, List.nodup_append] at distinct
    exact distinct.2.2 layer member layer beneath rfl
  refine ⟨below, returns, came, bears.level.grown deep, fun q related' => ?_, fun q related' layer member => ?_,
    fun q related' layer member => ?_⟩
  · by_cases same : q = p
    · subst same
      simp only [Plot.grown, if_true, Function.update_self]
      exact ⟨many, stands⟩
    · simp only [Plot.grown, if_neg same, Function.update_of_ne same, Plot.moved]
      refine (bears.branch q related').moved below works (bears.inside q related') fun layer member beneath => ?_
      rw [← List.cons_append] at beneath
      exact (List.mem_append.mp beneath).elim (others q related' same layer member)
        (bears.apart q related' layer member).1
  · by_cases same : q = p
    · subst same
      rw [Function.update_self] at member
      exact stands.inside layer (by
        rw [← List.cons_append]
        exact List.mem_append_left _ member)
    · rw [Function.update_of_ne same] at member
      exact Nat.lt_of_lt_of_le (bears.inside q related' layer member) works.size
  · by_cases same : q = p
    · subst same
      rw [Function.update_self] at member
      refine ⟨here layer member, fun r related'' different member' => ?_⟩
      rw [Function.update_of_ne different] at member'
      exact others r related'' different layer member' member
    · rw [Function.update_of_ne same] at member
      refine ⟨(bears.apart q related' layer member).1, fun r related'' different => ?_⟩
      by_cases here : r = p
      · subst here
        rw [Function.update_self]
        exact others q related' same layer member
      · rw [Function.update_of_ne here]
        exact (bears.apart q related' layer member).2 r related'' different

/-- What a pipeline that goes on budding leaves is the same grove. -/
theorem BearsWith.asleep {steps : ListId} {tower : Tower}
    (bears : store.BearsWith D aside multi plot rest family layers grove) (related : family p)
    (unwoken : grove.branch p = none)
    (budding : Budding D aside multi store plot.root p (plot.root :: rest) steps (plot.rules p) grove.base plot.start after
      tower) : after.BearsWith D aside multi plot rest family layers grove := by
  refine ⟨budding.stands, bears.returns, bears.came, bears.level, fun q related' => ?_, fun q related' layer member =>
    Nat.lt_of_lt_of_le (bears.inside q related' layer member) budding.works.size, bears.apart⟩
  by_cases same : q = p
  · subst same
    have sprouts := bears.branch q related
    rw [unwoken] at sprouts ⊢
    exact ⟨sprouts.1, steps, budding.buds⟩
  · have moved := (bears.branch q related').moved budding.stands budding.works (bears.inside q related')
      fun layer member here => (bears.apart q related' layer member).2 p related (Ne.symm same) (by
        rw [List.mem_singleton.mp here]
        exact List.mem_cons_self)
    have unmoved : (grove.branch q).map (fun tower => tower.graft (plot.layers q) grove.base) = grove.branch q :=
      congrFun (congrArg Grove.branch bears.level.moved_base) q
    rwa [unmoved] at moved

/-! ## Visits -/

/-- Whether what was asked of a store came to what it came to on a grove: nothing for lack of fuel, or what is seen and a
store that bears the grove that is left. -/
def BearsOut {α : Type} (bears : Store → Grove → Prop) (result : Option (α × Store)) : Option (α × Grove) → Prop
  | none => result = none
  | some (seen, left) => ∃ after, result = some (seen, after) ∧ bears after left

/-- A visit bears out what is played on a tower if the store after it bears the grove after that. -/
theorem bearsOut_of_comesTo {bears : Store → Grove → Prop} {follows : Session → Scene → Prop} {n : Nat} {visit : Visit}
    {told : Option (List Outcome × Scene)} {f : Scene → Grove}
    (comes : (Session.mk store []).ComesTo follows ((Session.mk store []).play n visit.id visit.ops) told)
    (left : ∀ after scene seen, told = some (seen, scene) → follows after scene → bears after.store (f scene)) :
    BearsOut bears (store.visit n visit) (told.map fun played => (played.1, f played.2)) := by
  rw [Store.visit]
  rcases told with _ | ⟨seen, scene⟩
  · rw [show (Session.mk store []).play n visit.id visit.ops = none from comes]
    rfl
  · obtain ⟨after, ends, holds, -⟩ := comes
    rw [ends]
    exact ⟨after.store, rfl, left after scene seen rfl holds⟩

/-- A visit to the root or to a pipeline comes to what it comes to in the grove. -/
theorem Bears.visit {n : Nat} {visit : Visit} (bears : store.Bears D aside multi plot rest family grove)
    (fresh : plot.start.Fresh) (among : visit.id = plot.root ∨ family visit.id) (deep : 4 * plot.start.height + 2 ≤ n)
    (deeper : ∀ p, family p → 4 * (plot.layers p + plot.start.height) + 2 ≤ n) :
    BearsOut (fun after left => after.Bears D aside multi plot rest family left) (store.visit n visit)
      (plot.visit multi n visit grove) := by
  obtain ⟨layers, bears⟩ := bears
  have steady := (Tower.steady_returns plot.start).and (Tower.steady_cameFrom fresh)
  have base : Tower.Returns plot.start grove.base ∧ Tower.CameFrom plot.start grove.base := ⟨bears.returns, bears.came⟩
  have restarts : grove.base.restart = (none, plot.start) := bears.came.restart fun _ => by rw [bears.returns.rewind]
  have begun := steady.restart base
  rw [restarts] at begun
  let stood (id : SequenceId) (ids : List SequenceId) (last : Store) (tower : Tower) : Prop :=
    last.Stands D aside multi id ids tower ∧ store.Works ids last
  let own (k : CursorId) : Prop := (store.cursor k).isStream = false
  rw [Plot.visit]
  split
  · -- The root is asked.
    rename_i root
    obtain ⟨id, ops⟩ := visit
    obtain rfl : id = plot.root := root
    have follows : (Session.mk store []).FollowsAs (stood plot.root (plot.root :: rest)) own plot.root ⟨grove.base, []⟩ :=
      follows_nil ⟨bears.base, .refl _ store⟩
    refine bearsOut_of_comesTo (f := fun scene => plot.moved grove scene.tower)
      ((tracks_stands store _ _).play ops follows (by rw [bears.returns.height]; exact deep)) ?_
    intro after scene seen played holds
    obtain ⟨returns, came⟩ := Scene.play_keeps steady base played
    exact ⟨layers, bears.moved holds.holds.1 returns came holds.holds.2⟩
  · rename_i notRoot
    have related := among.resolve_left notRoot
    have sprouts := bears.branch _ related
    cases branch : grove.branch visit.id with
    | some tower =>
      -- A pipeline is asked that was woken.
      rw [branch] at sprouts
      obtain ⟨many, stands⟩ := sprouts
      obtain ⟨layered, beneath⟩ := bears.level _ tower branch
      have height := Tower.height_beneath layered
      rw [beneath, bears.returns.height] at height
      have tower' : plot.towerOf grove visit.id = tower := by rw [Plot.towerOf, branch, Option.getD_some]
      have follows : (Session.mk store []).FollowsAs (stood visit.id _) own visit.id ⟨tower, []⟩ :=
        follows_nil ⟨stands, .refl _ store⟩
      rw [tower']
      refine bearsOut_of_comesTo (f := fun scene => plot.grown grove visit.id scene.tower)
        ((tracks_stands store _ _).play visit.ops follows (by
          have := deeper _ related
          simp only
          omega)) ?_
      intro after scene seen played holds
      obtain ⟨returns, came⟩ := Scene.play_keeps (steady.beneath (plot.layers visit.id))
        (show _ ∧ _ by rw [beneath]; exact base) played
      exact ⟨_, bears.grown related many (fun layer member => .inl member) holds.holds.1 holds.holds.2 returns came⟩
    | none =>
      -- A pipeline is asked that was not.
      rw [branch] at sprouts
      obtain ⟨none, steps, buds⟩ := sprouts
      have apart := (bears.apart _ related _ List.mem_cons_self).1
      have bud : plot.towerOf grove visit.id = plot.bud visit.id := by rw [Plot.towerOf, branch, Option.getD_none]
      have follows : (Session.mk store []).FollowsAs
          (Budding D aside multi store plot.root visit.id (plot.root :: rest) steps (plot.rules visit.id) grove.base
            plot.start) own visit.id ⟨plot.bud visit.id, []⟩ :=
        follows_nil ⟨rfl, buds, bears.base, .refl _ store⟩
      rw [bud]
      have comes := play_budding (n := n) apart restarts fresh visit.ops follows
        (fun _ member => absurd member List.not_mem_nil) (by
          have := deeper _ related
          simp only [plot.height_bud]
          omega)
      refine bearsOut_of_comesTo (f := fun scene =>
        if Op.wakesAmong 0 visit.ops then plot.grown grove visit.id scene.tower else grove) comes ?_
      intro after scene seen played holds
      have wakes : (Scene.mk (plot.bud visit.id) []).streams.length = 0 := rfl
      rw [wakes] at holds
      split
      · rename_i woken
        rw [if_pos woken] at holds
        obtain ⟨own, ⟨many, new⟩, stands, works⟩ := holds.holds
        obtain ⟨returns, came⟩ := Scene.play_keeps (steady.beneath (plot.layers visit.id))
          (show _ ∧ _ by rw [plot.beneath_bud]; exact begun) played
        exact ⟨_, bears.grown related many (fun layer member => .inr (new layer member)) stands works returns came⟩
      · rename_i unwoken
        rw [if_neg unwoken] at holds
        exact ⟨layers, bears.asleep related branch holds.holds⟩

/-- Visits come to what they come to in the grove. -/
theorem Bears.tour {n : Nat} {visits : List Visit} (bears : store.Bears D aside multi plot rest family grove)
    (fresh : plot.start.Fresh) (among : ∀ visit ∈ visits, visit.id = plot.root ∨ family visit.id)
    (deep : 4 * plot.start.height + 2 ≤ n) (deeper : ∀ p, family p → 4 * (plot.layers p + plot.start.height) + 2 ≤ n) :
    BearsOut (fun after left => after.Bears D aside multi plot rest family left) (store.tour n visits)
      (plot.tour multi n visits grove) := by
  induction visits generalizing store grove with
  | nil => exact ⟨store, rfl, bears⟩
  | cons visit others ih =>
    have visited := bears.visit fresh (among visit List.mem_cons_self) deep deeper
    rw [Store.tour, Plot.tour]
    rcases told : plot.visit multi n visit grove with _ | ⟨seen, between⟩ <;> rw [told] at visited
    · rw [show store.visit n visit = none from visited]
      rfl
    · obtain ⟨after, ends, bears'⟩ := visited
      have toured := ih bears' fun visit member => among visit (List.mem_cons_of_mem _ member)
      simp only [ends]
      rcases final : plot.tour multi n others between with _ | ⟨rest, last⟩ <;> rw [final] at toured
      · rw [show after.tour n others = none from toured]
        rfl
      · obtain ⟨last', ends', bears''⟩ := toured
        rw [ends']
        exact ⟨last', rfl, bears''⟩

end Store

end FirstSeen
