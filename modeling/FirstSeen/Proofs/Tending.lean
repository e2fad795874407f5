import FirstSeen.Proofs.Watching

/-!
# How a source is tended

A log of what a sequence did with its source is *lawful* if each dealing was due. A pull opens an iterator if none is held,
and draws from the one that is held then; going back to the beginning closes the iterator that a factory gave and lets go
of it only if closing it succeeds. So a log tells at each moment which iterator is held.

It follows that iterators are accounted for: one iterator is opened in a pass at most, and each that a factory gave and
that is held no more met its end or was closed, once, and was left alone from then on.
-/

set_option autoImplicit false

namespace FirstSeen

namespace Dealing

/-- What a sequence is at. -/
inductive Stage where
  | idle
  | pulling
  | rewinding
deriving DecidableEq

/-- What becomes of the iterator that is held. At its end, only a sequence over a factory lets go of it. -/
def holding (drops : Bool) (held : Option Feed) : Dealing → Option Feed
  | opening (.ok feed) => some feed
  | drawing _ result => if drops && Run.metEnd result then none else held
  | closing _ (.ok ()) | rewound => none
  | _ => held

/-- The iterator that is held after a log, which begins where none is. -/
def held (drops : Bool) (log : List Dealing) : Option Feed := log.foldl (holding drops) none

/-- Whether the end of the pass was met. -/
def ends (ended : Bool) : Dealing → Bool
  | opening result => ended || Run.metEnd result
  | drawing _ result => ended || Run.metEnd result
  | rewound => false
  | _ => ended

/-- What a sequence is at after a dealing. -/
def stage : Dealing → Stage
  | pulling | opening (.ok _) => .pulling
  | rewinding | closing _ (.ok ()) => .rewinding
  | _ => .idle

/-- What came of an attempt to open the source. -/
def attempt? : Dealing → Option (Except Halt Feed)
  | opening result => some result
  | _ => none

/-- What was opened. -/
def opened? : Dealing → Option Feed
  | opening (.ok feed) => some feed
  | _ => none

/-- Whether an iterator is drawn from or closed. -/
def touches (feed : Feed) : Dealing → Prop
  | drawing other _ | closing other _ => other = feed
  | _ => False

/-- Whether an iterator meets its end or is closed. A call of its closing that fails does not close it. -/
def releases (feed : Feed) : Dealing → Bool
  | drawing other result => other = feed && Run.metEnd result
  | closing other (.ok ()) => other = feed
  | _ => false

end Dealing

/-- Where a sequence is with its source: the iterator that it holds, whether it met the end of its pass, what it is at, how
many iterators there are, and how often its source was opened. -/
structure Tending where
  held : Option Feed := none
  ended : Bool := false
  stage : Dealing.Stage := .idle
  iterators : Nat := 0
  attempts : Nat := 0

namespace Tending

/-- After a dealing. -/
def after (drops : Bool) (t : Tending) (dealing : Dealing) : Tending where
  held := dealing.holding drops t.held
  ended := dealing.ends t.ended
  stage := dealing.stage
  iterators := t.iterators + dealing.opened?.toList.length
  attempts := t.attempts + dealing.attempt?.toList.length

/-- After a log. -/
def reach (drops : Bool) (t : Tending) (log : List Dealing) : Tending := log.foldl (after drops) t

/-- Whether a dealing is due. -/
def Allows (drops : Bool) (t : Tending) : Dealing → Prop
  | .pulling => t.stage = .idle ∧ t.ended = false
  | .opening result => t.stage = .pulling ∧ t.ended = false ∧ t.held = none ∧
      ∀ feed, result = .ok feed → feed = .cursor ⟨t.iterators⟩
  | .drawing feed _ => t.stage = .pulling ∧ t.held = some feed
  | .rewinding => t.stage = .idle
  | .closing feed _ => t.stage = .rewinding ∧ t.held = some feed ∧ drops = true
  | .rewound => t.stage = .rewinding ∧ (drops = true → t.held = none)

/-- Whether each dealing of a log was due. -/
def Lawful (drops : Bool) : Tending → List Dealing → Prop
  | _, [] => True
  | t, dealing :: rest => t.Allows drops dealing ∧ Lawful drops (t.after drops dealing) rest

variable {drops : Bool} {t : Tending} {log before later : List Dealing} {dealing : Dealing}

theorem reach_append : t.reach drops (before ++ later) = (t.reach drops before).reach drops later :=
  List.foldl_append

theorem lawful_append :
    t.Lawful drops (before ++ later) ↔ t.Lawful drops before ∧ (t.reach drops before).Lawful drops later := by
  induction before generalizing t with
  | nil => exact ⟨fun h => ⟨trivial, h⟩, And.right⟩
  | cons dealing rest ih =>
    rw [List.cons_append, Lawful, Lawful, ih, and_assoc]
    rfl

/-- Within a lawful log, each dealing is due where it is reached. -/
theorem Lawful.due (lawful : t.Lawful drops (before ++ dealing :: later)) :
    t.Lawful drops before ∧ (t.reach drops before).Allows drops dealing ∧
      (t.reach drops (before ++ [dealing])).Lawful drops later := by
  obtain ⟨first, allowed, rest⟩ := lawful_append.mp lawful
  rw [reach_append]
  exact ⟨first, allowed, rest⟩

theorem reach_held (log : List Dealing) : (t.reach drops log).held = log.foldl (Dealing.holding drops) t.held := by
  induction log generalizing t with
  | nil => rfl
  | cons dealing rest ih => exact ih

theorem reach_iterators (log : List Dealing) :
    (t.reach drops log).iterators = t.iterators + (log.filterMap Dealing.opened?).length := by
  induction log generalizing t with
  | nil => rfl
  | cons dealing rest ih =>
    refine (ih (t := t.after drops dealing)).trans ?_
    rw [List.filterMap_cons, after]
    cases dealing.opened? with
    | none => rfl
    | some feed => simp; omega

theorem reach_attempts (log : List Dealing) :
    (t.reach drops log).attempts = t.attempts + (log.filterMap Dealing.attempt?).length := by
  induction log generalizing t with
  | nil => rfl
  | cons dealing rest ih =>
    refine (ih (t := t.after drops dealing)).trans ?_
    rw [List.filterMap_cons, after]
    cases dealing.attempt? with
    | none => rfl
    | some result => simp; omega

/-! ## Accounts of iterators -/

variable {feed : Feed}

/-- Where no iterator is held, nothing is released, and what is opened is held then, and new. -/
theorem Allows.of_none (allowed : t.Allows drops dealing) (holds : t.held = none) :
    (∀ feed, dealing.releases feed = false) ∧ (t.after drops dealing).held = dealing.opened? ∧
      ∀ feed, dealing.opened? = some feed → feed = .cursor ⟨t.iterators⟩ := by
  cases dealing with
  | opening result =>
    obtain ⟨-, -, -, new⟩ := allowed
    cases result with
    | error halt => exact ⟨fun _ => rfl, holds, nofun⟩
    | ok feed => exact ⟨fun _ => rfl, rfl, fun _ same => (by cases same; exact new _ rfl)⟩
  | drawing feed result => rw [allowed.2] at holds; cases holds
  | closing feed result => rw [allowed.2.1] at holds; cases holds
  | rewound => exact ⟨fun _ => rfl, rfl, nofun⟩
  | pulling | rewinding => exact ⟨fun _ => rfl, holds, nofun⟩

/-- Where an iterator is held, none is opened, no other one is released, and it is held until it is. -/
theorem Allows.of_some (allowed : t.Allows drops dealing) (holds : t.held = some feed) :
    dealing.attempt? = none ∧ dealing.opened? = none ∧ (∀ other, dealing.releases other = true → other = feed) ∧
      (∀ other, (t.after drops dealing).held = some other → other = feed) ∧
      (drops = true → (t.after drops dealing).held = if dealing.releases feed then none else some feed) := by
  have kept : ∀ other, t.held = some other → other = feed := fun other same => by
    rw [holds] at same
    cases same
    rfl
  cases dealing with
  | opening result => rw [allowed.2.2.1] at holds; cases holds
  | drawing other result =>
    obtain rfl := kept other allowed.2
    refine ⟨rfl, rfl, fun another releases => ?_, fun another same => kept another ?_, fun drops => ?_⟩
    · exact (of_decide_eq_true (Bool.and_eq_true_iff.mp releases).1).symm
    · change (if drops && Run.metEnd result then none else t.held) = _ at same
      split at same
      · cases same
      · exact same
    · change (if _ && Run.metEnd result then none else t.held) =
        if decide (other = other) && Run.metEnd result then none else _
      rw [drops, holds, decide_eq_true rfl]
  | closing other result =>
    obtain rfl := kept other allowed.2.1
    cases result with
    | error halt => exact ⟨rfl, rfl, nofun, kept, fun _ => holds⟩
    | ok =>
      refine ⟨rfl, rfl, fun another releases => (of_decide_eq_true releases).symm, nofun, fun _ => ?_⟩
      exact (if_pos (decide_eq_true rfl)).symm
  | rewound =>
    refine ⟨rfl, rfl, nofun, nofun, fun drops => ?_⟩
    rw [allowed.2 drops] at holds
    cases holds
  | pulling | rewinding => exact ⟨rfl, rfl, nofun, kept, fun _ => holds⟩

/-- The accounts after a log: each iterator that was opened is new, and opened once. If it was dropped it was released
once, otherwise it is held and was not released. -/
structure Accounts (drops : Bool) (first : Nat) (log : List Dealing) (t : Tending) : Prop where
  new : ∀ feed ∈ log.filterMap Dealing.opened?, ∃ k : CursorId, feed = .cursor k ∧ first ≤ k.index ∧ k.index < t.iterators
  once : (log.filterMap Dealing.opened?).Nodup
  bound : first ≤ t.iterators
  held : ∀ feed, t.held = some feed → feed ∈ log.filterMap Dealing.opened?
  unopened : ∀ feed, feed ∉ log.filterMap Dealing.opened? → log.countP (Dealing.releases feed) = 0
  released : drops = true → ∀ feed ∈ log.filterMap Dealing.opened?,
    log.countP (Dealing.releases feed) = if t.held = some feed then 0 else 1

variable {first : Nat}

theorem opened_snoc (log : List Dealing) (dealing : Dealing) :
    (log ++ [dealing]).filterMap Dealing.opened? = log.filterMap Dealing.opened? ++ dealing.opened?.toList := by
  cases found : dealing.opened? <;> simp [List.filterMap_append, found]

theorem releases_snoc (log : List Dealing) (dealing : Dealing) (feed : Feed) :
    (log ++ [dealing]).countP (Dealing.releases feed) =
      log.countP (Dealing.releases feed) + if dealing.releases feed then 1 else 0 := by
  simp [List.countP_append, List.countP_singleton]

/-- A dealing that opens nothing keeps the accounts if only the iterator that is held may be released, and no other one is
held then. -/
theorem Accounts.step_unopened (accounts : t.Accounts drops first log) (none : dealing.opened? = none)
    (only : ∀ other, dealing.releases other = true → t.held = some other)
    (kept : ∀ other, (t.after drops dealing).held = some other → t.held = some other)
    (dropped : drops = true → ∀ other, t.held = some other →
      (t.after drops dealing).held = if dealing.releases other then .none else some other) :
    (t.after drops dealing).Accounts drops first (log ++ [dealing]) := by
  have opened : (log ++ [dealing]).filterMap Dealing.opened? = log.filterMap Dealing.opened? := by
    rw [opened_snoc, none, Option.toList_none, List.append_nil]
  have iterators : (t.after drops dealing).iterators = t.iterators := by rw [after, none]; rfl
  refine ⟨?_, ?_, ?_, ?_, ?_, ?_⟩
  · rw [opened, iterators]
    exact accounts.new
  · rw [opened]
    exact accounts.once
  · rw [iterators]
    exact accounts.bound
  · intro other same
    rw [opened]
    exact accounts.held other (kept other same)
  · intro other absent
    rw [opened] at absent
    rw [releases_snoc, accounts.unopened other absent, if_neg]
    exact fun releases => absent (accounts.held other (only other releases))
  · intro drops other member
    rw [opened] at member
    rw [releases_snoc, accounts.released drops other member]
    by_cases same : t.held = some other
    · rw [if_pos same, dropped drops other same]
      cases dealing.releases other <;> simp
    · have apart : dealing.releases other = false := Bool.eq_false_iff.mpr fun releases => same (only other releases)
      rw [if_neg same, apart, if_neg fun held => same (kept other held)]
      rfl

/-- While an iterator is held, a dealing that is due keeps the accounts: that iterator may be released. -/
theorem Accounts.step_some (accounts : t.Accounts drops first log) (allowed : t.Allows drops dealing)
    (holds : t.held = some feed) :
    (t.after drops dealing).Accounts drops first (log ++ [dealing]) := by
  obtain ⟨-, none, only, kept, dropped⟩ := allowed.of_some holds
  refine accounts.step_unopened none (fun other releases => ?_) (fun other same => ?_) fun drops other same => ?_
  · rw [only other releases, holds]
  · rw [kept other same, holds]
  · obtain rfl : feed = other := Option.some.inj (holds.symm.trans same)
    exact dropped drops

/-- While no iterator is held, a dealing that is due keeps the accounts: a new iterator may be opened. -/
theorem Accounts.step_none (accounts : t.Accounts drops first log) (allowed : t.Allows drops dealing) (holds : t.held = none) :
    (t.after drops dealing).Accounts drops first (log ++ [dealing]) := by
  obtain ⟨still, gained, fresh⟩ := allowed.of_none holds
  have counted : ∀ feed, (log ++ [dealing]).countP (Dealing.releases feed) = log.countP (Dealing.releases feed) := by
    intro feed
    rw [releases_snoc, still]
    rfl
  have before : drops = true → ∀ feed ∈ log.filterMap Dealing.opened?, log.countP (Dealing.releases feed) = 1 := by
    intro drops feed member
    rw [accounts.released drops feed member, holds]
    rfl
  cases found : dealing.opened? with
  | none =>
    rw [found] at gained
    refine accounts.step_unopened found (fun other releases => ?_) (fun other same => ?_) fun _ other same => ?_
    · rw [still] at releases
      cases releases
    · rw [gained] at same
      cases same
    · rw [holds] at same
      cases same
  | some feed =>
    obtain rfl := fresh feed found
    have opened : (log ++ [dealing]).filterMap Dealing.opened? = log.filterMap Dealing.opened? ++ [.cursor ⟨t.iterators⟩] := by
      rw [opened_snoc, found, Option.toList_some]
    have unknown : Feed.cursor ⟨t.iterators⟩ ∉ log.filterMap Dealing.opened? := by
      intro member
      obtain ⟨k, form, -, high⟩ := accounts.new _ member
      cases form
      exact Nat.lt_irrefl _ high
    have iterators : (t.after drops dealing).iterators = t.iterators + 1 := by rw [after, found]; rfl
    rw [found] at gained
    refine ⟨?_, ?_, ?_, ?_, ?_, ?_⟩
    · intro other member
      rw [opened, List.mem_append, List.mem_singleton] at member
      rw [iterators]
      rcases member with member | rfl
      · obtain ⟨k, form, low, high⟩ := accounts.new other member
        exact ⟨k, form, low, Nat.lt_succ_of_lt high⟩
      · exact ⟨_, rfl, accounts.bound, Nat.lt_succ_self _⟩
    · rw [opened]
      exact List.nodup_append.mpr ⟨accounts.once, List.nodup_singleton _, fun other member last isNew same => by
        rw [same, List.mem_singleton.mp isNew] at member
        exact unknown member⟩
    · rw [iterators]
      exact Nat.le_succ_of_le accounts.bound
    · intro other same
      rw [gained] at same
      cases same
      rw [opened]
      exact List.mem_append_right _ (List.mem_singleton_self _)
    · intro other absent
      rw [opened] at absent
      rw [counted, accounts.unopened other fun member => absent (List.mem_append_left _ member)]
    · intro drops other member
      rw [opened, List.mem_append, List.mem_singleton] at member
      rw [counted, gained]
      rcases member with member | rfl
      · have apart : some (Feed.cursor ⟨t.iterators⟩) ≠ some other := fun same => unknown (by cases same; exact member)
        rw [before drops other member, if_neg apart]
      · rw [accounts.unopened _ unknown, if_pos rfl]

theorem accounts_nil (nothing : t.held = none) : t.Accounts drops t.iterators [] :=
  ⟨nofun, List.nodup_nil, Nat.le_refl _, fun feed same => (by rw [nothing] at same; cases same), fun _ _ => rfl, nofun⟩

/-- A lawful log keeps the accounts. -/
theorem Accounts.run (accounts : t.Accounts drops first log) (lawful : t.Lawful drops later) :
    (t.reach drops later).Accounts drops first (log ++ later) := by
  induction later generalizing t log with
  | nil =>
    rw [List.append_nil]
    exact accounts
  | cons dealing rest ih =>
    obtain ⟨allowed, lawful⟩ := lawful
    rw [List.append_cons]
    refine ih ?_ lawful
    cases holds : t.held with
    | none => exact accounts.step_none allowed holds
    | some feed => exact accounts.step_some allowed holds

/-! ## Pulls, rewinds and passes -/

/-- A pull opens an iterator if none is held, and draws from the one that is held. -/
theorem Lawful.pulls (lawful : t.Lawful drops (before ++ .pulling :: later))
    (idle : (t.reach drops (before ++ .pulling :: later)).stage = .idle) :
    match (t.reach drops before).held with
    | none => ∃ result rest, later = .opening result :: rest
    | some feed => ∃ result rest, later = .drawing feed result :: rest := by
  obtain ⟨-, -, rest⟩ := lawful.due
  cases later with
  | nil =>
    rw [reach_append] at idle
    cases idle
  | cons dealing rest' =>
    obtain ⟨allowed, -⟩ := rest
    rw [reach_append] at allowed
    change Allows drops (after drops (t.reach drops before) .pulling) dealing at allowed
    cases dealing with
    | opening result =>
      have holds : (t.reach drops before).held = none := allowed.2.2.1
      rw [holds]
      exact ⟨_, _, rfl⟩
    | drawing feed result =>
      have holds : (t.reach drops before).held = some feed := allowed.2
      rw [holds]
      exact ⟨_, _, rfl⟩
    | pulling => cases allowed.1
    | rewinding => cases (show Dealing.Stage.pulling = .idle from allowed)
    | closing feed result => cases allowed.1
    | rewound => cases allowed.1

/-- Nothing is opened but by a pull while no iterator is held. -/
theorem Lawful.opens (begins : t.stage = .idle) {result : Except Halt Feed}
    (lawful : t.Lawful drops (before ++ .opening result :: later)) :
    (t.reach drops before).held = none ∧ ∃ earlier, before = earlier ++ [.pulling] := by
  obtain ⟨-, ⟨stage, -, holds, -⟩, -⟩ := lawful.due
  refine ⟨holds, ?_⟩
  rcases List.eq_nil_or_concat before with rfl | ⟨earlier, dealing, rfl⟩
  · cases begins.symm.trans stage
  · rw [List.concat_eq_append, reach_append] at stage holds
    change dealing.stage = .pulling at stage
    change dealing.holding drops _ = none at holds
    refine ⟨earlier, ?_⟩
    cases dealing with
    | pulling => exact List.concat_eq_append
    | opening result =>
      cases result with
      | error halt => cases stage
      | ok feed => cases holds
    | closing feed result => cases result <;> cases stage
    | drawing | rewinding | rewound => cases stage

/-- Going back to the beginning closes the iterator that a factory gave, if it is held, and ends there if that fails. -/
theorem Lawful.rewinds (lawful : t.Lawful drops (before ++ .rewinding :: later))
    (idle : (t.reach drops (before ++ .rewinding :: later)).stage = .idle) :
    (drops = true → (t.reach drops before).held = none) ∧ (∃ rest, later = .rewound :: rest) ∨
      drops = true ∧ ∃ feed result rest, (t.reach drops before).held = some feed ∧ later = .closing feed result :: rest ∧
        (result = .ok () → ∃ more, rest = .rewound :: more) := by
  obtain ⟨-, -, rest⟩ := lawful.due
  rw [reach_append] at idle rest
  cases later with
  | nil => cases idle
  | cons dealing rest' =>
    obtain ⟨allowed, lawful⟩ := rest
    change Allows drops (after drops (t.reach drops before) .rewinding) dealing at allowed
    cases dealing with
    | rewound => exact .inl ⟨allowed.2, _, rfl⟩
    | closing feed result =>
      obtain ⟨-, holds, drops⟩ := allowed
      refine .inr ⟨drops, feed, result, rest', holds, rfl, ?_⟩
      rintro rfl
      -- nothing is held any more, so that nothing but the beginning is left
      cases rest' with
      | nil => cases idle
      | cons next more =>
        obtain ⟨due, -⟩ := lawful
        cases next with
        | rewound => exact ⟨more, rfl⟩
        | closing other result => cases due.2.1
        | rewinding => cases (show Dealing.Stage.rewinding = .idle from due)
        | pulling | opening | drawing => cases due.1
    | rewinding => cases (show Dealing.Stage.rewinding = .idle from allowed)
    | pulling | opening | drawing => cases allowed.1

/-- A pass so far: what failed to be opened, and what was opened then, if anything was. -/
structure Passing (pass : List Dealing) (t : Tending) (halts : List Halt) (opened : Option Feed) : Prop where
  attempts : pass.filterMap Dealing.attempt? = halts.map .error ++ (opened.map .ok).toList
  holds : ∀ feed, t.held = some feed → opened = some feed
  closed : opened = none ∨ t.held = opened ∨ t.ended = true ∨ t.stage = .rewinding
  drawn : ∀ feed result, .drawing feed result ∈ pass → opened = some feed

variable {pass : List Dealing} {halts : List Halt} {opened : Option Feed}

theorem attempts_snoc (log : List Dealing) (dealing : Dealing) :
    (log ++ [dealing]).filterMap Dealing.attempt? = log.filterMap Dealing.attempt? ++ dealing.attempt?.toList := by
  cases found : dealing.attempt? <;> simp [List.filterMap_append, found]

/-- A dealing that opens nothing keeps up a pass if what is held and drawn from was opened in it. -/
theorem Passing.unattempted (passing : Passing pass t halts opened) (none : dealing.attempt? = none)
    (holds : ∀ feed, (t.after drops dealing).held = some feed → opened = some feed)
    (closed : opened = .none ∨ (t.after drops dealing).held = opened ∨ (t.after drops dealing).ended = true ∨
      (t.after drops dealing).stage = .rewinding)
    (drawn : ∀ feed result, dealing = .drawing feed result → opened = some feed) :
    Passing (pass ++ [dealing]) (t.after drops dealing) halts opened := by
  refine ⟨?_, holds, closed, fun feed result member => ?_⟩
  · rw [attempts_snoc, passing.attempts, none]
    exact List.append_nil _
  · rcases List.mem_append.mp member with member | member
    · exact passing.drawn feed result member
    · exact drawn feed result (List.mem_singleton.mp member).symm

/-- An attempt to open keeps up a pass in which nothing was opened yet. -/
theorem Passing.attempted {result : Except Halt Feed} (passing : Passing pass t halts none) :
    ∃ halts' opened', Passing (pass ++ [.opening result]) (t.after drops (.opening result)) halts' opened' := by
  have undrawn : ∀ feed result', .drawing feed result' ∉ pass ++ [.opening result] := by
    intro feed result' member
    rcases List.mem_append.mp member with member | member
    · cases passing.drawn feed result' member
    · cases List.mem_singleton.mp member
  have attempts := attempts_snoc pass (.opening result)
  rw [passing.attempts] at attempts
  cases result with
  | error halt =>
    refine ⟨halts ++ [halt], none, ?_, passing.holds, .inl rfl, fun feed result' member => (undrawn _ _ member).elim⟩
    rw [attempts]
    simp [Dealing.attempt?]
  | ok feed =>
    refine ⟨halts, some feed, ?_, fun _ same => same, .inr (.inl rfl), fun _ _ member => (undrawn _ _ member).elim⟩
    rw [attempts]
    simp [Dealing.attempt?]

/-- A dealing that is due keeps up a pass unless it begins another one. -/
theorem Passing.step (passing : Passing pass t halts opened) (allowed : t.Allows drops dealing) (same : dealing ≠ .rewound) :
    ∃ halts' opened', Passing (pass ++ [dealing]) (t.after drops dealing) halts' opened' := by
  have open? : t.ended = false → t.stage = .pulling ∨ t.stage = .idle → opened = none ∨ t.held = opened := by
    intro ended stage
    rcases passing.closed with none | held | ended' | rewinding
    · exact .inl none
    · exact .inr held
    · cases ended.symm.trans ended'
    · rw [rewinding] at stage
      rcases stage with ⟨⟨⟩⟩ | ⟨⟨⟩⟩
  cases dealing with
  | pulling =>
    obtain ⟨stage, ended⟩ := allowed
    exact ⟨halts, opened, passing.unattempted rfl passing.holds ((open? ended (.inr stage)).imp_right .inl)
      fun _ _ same => by cases same⟩
  | opening result =>
    obtain ⟨stage, ended, nothing, -⟩ := allowed
    have unopened : opened = none := by
      rcases open? ended (.inl stage) with none | held
      · exact none
      · exact held.symm.trans nothing
    rw [unopened] at passing
    exact passing.attempted
  | drawing feed result =>
    obtain ⟨stage, held⟩ := allowed
    obtain rfl := passing.holds feed held
    refine ⟨halts, some feed, passing.unattempted rfl (fun other same => ?_) ?_ fun _ _ same => (by cases same; rfl)⟩
    · change (if drops && Run.metEnd result then none else t.held) = _ at same
      split at same
      · cases same
      · rw [← held, same]
    · cases met : Run.metEnd result with
      | true => exact .inr (.inr (.inl ((congrArg (t.ended || ·) met).trans (Bool.or_true _))))
      | false =>
        refine .inr (.inl ?_)
        change (if drops && Run.metEnd result then none else t.held) = _
        rw [met, Bool.and_false, if_neg Bool.false_ne_true, held]
  | rewinding =>
    exact ⟨halts, opened, passing.unattempted rfl passing.holds (.inr (.inr (.inr rfl))) fun _ _ same => by cases same⟩
  | closing feed result =>
    obtain ⟨stage, held, -⟩ := allowed
    obtain rfl := passing.holds feed held
    cases result with
    | error halt =>
      exact ⟨halts, some feed, passing.unattempted rfl passing.holds (.inr (.inl held)) fun _ _ same => by cases same⟩
    | ok =>
      exact ⟨halts, some feed, passing.unattempted rfl (fun _ same => by cases same) (.inr (.inr (.inr rfl)))
        fun _ _ same => by cases same⟩
  | rewound => exact (same rfl).elim

/-- A lawful log keeps up a pass unless it begins another one. -/
theorem Passing.run (passing : Passing pass t halts opened) (lawful : t.Lawful drops later) (same : .rewound ∉ later) :
    ∃ halts' opened', Passing (pass ++ later) (t.reach drops later) halts' opened' := by
  induction later generalizing t pass halts opened with
  | nil => exact ⟨halts, opened, by rw [List.append_nil]; exact passing⟩
  | cons dealing rest ih =>
    obtain ⟨allowed, lawful⟩ := lawful
    rw [List.mem_cons, not_or] at same
    obtain ⟨halts', opened', passing'⟩ := passing.step allowed (Ne.symm same.1)
    rw [List.append_cons]
    exact ih passing' lawful same.2

end Tending

/-! ## A source that is tended -/

/-- How a sequence tends its source, by what it did with it since it held no iterator. If it is over a factory, it lets go
of an iterator at its end, and closes the one that it holds when it goes back to its beginning. -/
structure Dealing.Tends (drops : Bool) (log : List Dealing) : Prop where
  /-- A pull opens an iterator if none is held, and draws from the one that is held. -/
  pulls : ∀ before later, log = before ++ .pulling :: later →
    match held drops before with
    | none => ∃ result rest, later = .opening result :: rest
    | some feed => ∃ result rest, later = .drawing feed result :: rest
  /-- Nothing is opened otherwise. -/
  opens : ∀ before result later, log = before ++ .opening result :: later →
    held drops before = none ∧ ∃ earlier, before = earlier ++ [.pulling]
  /-- Going back to the beginning only closes an iterator that a factory gave, if one is held. If that fails, it is not
  gone back. -/
  rewinds : ∀ before later, log = before ++ .rewinding :: later →
    (drops = true → held drops before = none) ∧ (∃ rest, later = .rewound :: rest) ∨
      drops = true ∧ ∃ feed result rest, held drops before = some feed ∧ later = .closing feed result :: rest ∧
        (result = .ok () → ∃ more, rest = .rewound :: more)
  /-- In each pass, attempts to open fail until one succeeds, which is the last one, and there is one in a pass in which
  something is drawn. -/
  passes : ∀ before pass later, log = before ++ pass ++ later →
    before = [] ∨ (∃ earlier, before = earlier ++ [.rewound]) →
    .rewound ∉ pass → ∃ (halts : List Halt) (opened : Option Feed),
      pass.filterMap attempt? = halts.map .error ++ (opened.map .ok).toList ∧
        ∀ feed result, .drawing feed result ∈ pass → opened = some feed
  /-- No iterator is opened twice. -/
  once : (log.filterMap opened?).Nodup
  /-- Only the iterator that is held is drawn from or closed. -/
  touched : ∀ before dealing later feed, log = before ++ dealing :: later → dealing.touches feed →
    held drops before = some feed
  /-- At each moment, each iterator that a factory gave met its end or was closed, once, unless it is held. -/
  released : drops = true → ∀ before later, log = before ++ later → ∀ feed ∈ before.filterMap opened?,
    before.countP (releases feed) = if held drops before = some feed then 0 else 1
  /-- An iterator that a factory gave is left alone once it met its end or was closed. -/
  left : drops = true → ∀ before dealing later feed, log = before ++ dealing :: later → dealing.releases feed = true →
    ∀ touch ∈ later, ¬touch.touches feed
  /-- If an iterator could not be closed it is held, and none is opened before it met its end or was closed. -/
  kept : ∀ before feed halt later, log = before ++ .closing feed (.error halt) :: later →
    held drops (before ++ [.closing feed (.error halt)]) = some feed ∧
      ∀ between result rest, later = between ++ .opening result :: rest → ∃ dealing ∈ between, dealing.releases feed = true

namespace Tending

variable {drops : Bool} {t : Tending} {log : List Dealing}

theorem reach_held_of_none (nothing : t.held = none) (log : List Dealing) :
    (t.reach drops log).held = Dealing.held drops log := by
  rw [reach_held, nothing, Dealing.held]

/-- Only what is held may be touched. -/
theorem Allows.held {dealing : Dealing} {feed : Feed} (allowed : t.Allows drops dealing) (touches : dealing.touches feed) :
    t.held = some feed := by
  cases dealing with
  | drawing other result =>
    obtain rfl : other = feed := touches
    exact allowed.2
  | closing other result =>
    obtain rfl : other = feed := touches
    exact allowed.2.1
  | _ => exact touches.elim

section

variable {before later : List Dealing} {dealing : Dealing} {feed : Feed} (nothing : t.held = none)
include nothing

/-- The iterators of a lawful log are accounted for at each moment. -/
theorem Lawful.accounts (lawful : t.Lawful drops (before ++ later)) :
    (t.reach drops before).Accounts drops t.iterators before :=
  (accounts_nil nothing).run (lawful_append.mp lawful).1

/-- An iterator that a factory gave is left alone once it was released. -/
theorem Lawful.left (produced : drops = true) (lawful : t.Lawful drops (before ++ dealing :: later))
    (releases : dealing.releases feed = true) : ∀ touch ∈ later, ¬touch.touches feed := by
  intro touch member touches
  -- At the touch it is held, so that it was not released before.
  obtain ⟨between, rest, rfl⟩ := List.append_of_mem member
  have split : before ++ dealing :: (between ++ touch :: rest) = (before ++ dealing :: between) ++ touch :: rest := by
    rw [List.append_assoc, List.cons_append]
  rw [split] at lawful
  have holds := lawful.due.2.1.held touches
  have accounts := lawful.accounts nothing
  have unreleased := accounts.released produced feed (accounts.held feed holds)
  rw [if_pos holds, List.countP_eq_zero] at unreleased
  exact unreleased dealing (List.mem_append_right _ List.mem_cons_self) releases

/-- Before another iterator is opened, the one that is held is released. -/
theorem Lawful.releases (begins : t.stage = .idle) (produced : drops = true) (holds : (t.reach drops before).held = some feed)
    {result : Except Halt Feed} {between rest : List Dealing}
    (lawful : t.Lawful drops (before ++ (between ++ .opening result :: rest))) :
    ∃ dealing ∈ between, dealing.releases feed = true := by
  -- None is held where one is opened, so that it was released, and not before.
  have earlier := lawful.accounts nothing
  rw [← List.append_assoc] at lawful
  have free := (lawful.opens begins).1
  have member := earlier.held feed holds
  have unreleased := earlier.released produced feed member
  have member' : feed ∈ (before ++ between).filterMap Dealing.opened? := by
    rw [List.filterMap_append]
    exact List.mem_append_left _ member
  have released := (lawful.accounts nothing).released produced feed member'
  rw [if_pos holds] at unreleased
  rw [if_neg (by simp [free]), List.countP_append, unreleased, Nat.zero_add] at released
  exact List.countP_pos_iff.mp (by rw [released]; exact Nat.one_pos)

end

/-- A source is tended by each lawful log. -/
theorem Lawful.tends (nothing : t.held = none) (begins : t.stage = .idle) (lawful : t.Lawful drops log)
    (idle : (t.reach drops log).stage = .idle) : Dealing.Tends drops log := by
  have held : ∀ before, Dealing.held drops before = (t.reach drops before).held :=
    fun before => (reach_held_of_none nothing before).symm
  have touched : ∀ before dealing later feed, log = before ++ dealing :: later → dealing.touches feed →
      Dealing.held drops before = some feed := by
    intro before dealing later feed split touches
    rw [split] at lawful
    rw [held]
    exact lawful.due.2.1.held touches
  refine ⟨?_, ?_, ?_, ?_, ?_, touched, ?_, ?_, ?_⟩
  · intro before later split
    rw [split] at lawful idle
    rw [held]
    exact lawful.pulls idle
  · intro before result later split
    rw [split] at lawful
    rw [held]
    exact lawful.opens begins
  · intro before later split
    rw [split] at lawful idle
    rw [held]
    exact lawful.rewinds idle
  · intro before pass later split begun same
    rw [split, lawful_append, lawful_append] at lawful
    have free : (t.reach drops before).held = none := by
      rcases begun with rfl | ⟨earlier, rfl⟩
      · exact nothing
      · rw [reach_append]
        rfl
    have passing : Passing [] (t.reach drops before) [] none :=
      ⟨rfl, fun feed same => (by rw [free] at same; cases same), .inl rfl, nofun⟩
    obtain ⟨halts, opened, passing⟩ := passing.run lawful.1.2 same
    exact ⟨halts, opened, passing.attempts, passing.drawn⟩
  · rw [← List.append_nil log] at lawful
    exact (lawful.accounts nothing).once
  · intro drops before later split feed member
    rw [split] at lawful
    rw [held]
    exact (lawful.accounts nothing).released drops feed member
  · intro produced before dealing later feed split releases
    rw [split] at lawful
    exact lawful.left nothing produced releases
  · intro before feed halt later split
    have holds : Dealing.held drops (before ++ [.closing feed (.error halt)]) = some feed := by
      rw [Dealing.held, List.foldl_append]
      exact touched _ _ _ feed split rfl
    rw [split] at lawful
    have produced : drops = true := lawful.due.2.1.2.2
    refine ⟨holds, ?_⟩
    rintro between result rest rfl
    rw [held] at holds
    rw [List.append_cons] at lawful
    exact lawful.releases nothing begins produced holds

end Tending

end FirstSeen
