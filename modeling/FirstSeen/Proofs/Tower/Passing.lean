import FirstSeen.Proofs.Tower.Ending
import FirstSeen.Proofs.Tower.Sieving
import FirstSeen.Proofs.Tower.Tapping

/-!
# What a pass takes

What surfaces of a calm tower, told by the tape at its ground and its stages: the tape has handed out elements up to
the first one that is not dropped, or is at its end, and what was done on the way is to draw each of them once and to
have each judged once by the stages that it got to. If such an element or the end is ahead, then it surfaces.
-/

set_option autoImplicit false

namespace FirstSeen

variable {E : Item → Prop}

/-! ## Elements that go up in turn -/

namespace Stage

/-- What stages tell when elements go up in turn: the elements that get to the top, and the faults that others meet.
Nothing is told of those that are dropped. -/
def told : List Stage → List Item → List Draw
  | _, [] => []
  | stages, item :: rest =>
    match sieve stages item with
    | (.ok true, stages) => .ok item :: told stages rest
    | (.ok false, stages) => told stages rest
    | (.error fault, stages) => .error fault :: told stages rest

/-- What is done for elements that go up in turn: each is drawn, and judged as far up as it gets. -/
def deeds (heights : List Nat) : List Stage → List Item → List Deed
  | _, [] => []
  | stages, item :: rest =>
    .drew :: (heights.take (reached stages item)).map (.judged · item) ++ deeds heights (sieve stages item).2 rest

/-- What a key function is asked for elements that go up in turn, by the stages that they get to. -/
def asked (multi : Bool) (keys : List Value) (id : KeyId) : List Stage → List Item → List (List Value)
  | _, [] => []
  | stages, item :: rest =>
    (keys.take (reached stages item)).filterMap (item.asks multi id) ++ asked multi keys id (sieve stages item).2 rest

/-- Whether stages judge the elements of a domain by tame keys, and remember tame ones. -/
def Tame (E : Item → Prop) (stages : List Stage) : Prop := ∀ stage ∈ stages, stage.rule.Tame E ∧ stage.seen.Tame

theorem sieveAll_cons (stages : List Stage) (item : Item) (rest : List Item) :
    sieveAll stages (item :: rest) = sieveAll (sieve stages item).2 rest := rfl

theorem sieveAll_append (stages : List Stage) (items more : List Item) :
    sieveAll stages (items ++ more) = sieveAll (sieveAll stages items) more :=
  List.foldl_append ..

theorem told_append (stages : List Stage) (items more : List Item) :
    told stages (items ++ more) = told stages items ++ told (sieveAll stages items) more := by
  induction items generalizing stages with
  | nil => rfl
  | cons item rest ih =>
    have step := ih (sieve stages item).2
    rw [List.cons_append, told, told, sieveAll_cons]
    generalize sieve stages item = sieved at step
    obtain ⟨_ | _ | _, after⟩ := sieved
    · exact congrArg (List.cons _) step
    · exact step
    · exact congrArg (List.cons _) step

theorem deeds_append (heights : List Nat) (stages : List Stage) (items more : List Item) :
    deeds heights stages (items ++ more) =
      deeds heights stages items ++ deeds heights (sieveAll stages items) more := by
  induction items generalizing stages with
  | nil => rfl
  | cons item rest ih =>
    rw [List.cons_append, deeds, deeds, ih, sieveAll_cons, List.append_assoc]

/-- Each element is drawn once. -/
theorem countP_deeds (heights : List Nat) (stages : List Stage) (items : List Item) :
    (deeds heights stages items).countP Deed.isDraw = items.length := by
  induction items generalizing stages with
  | nil => rfl
  | cons item rest ih =>
    have judging : ((heights.take (reached stages item)).map (Deed.judged · item)).countP Deed.isDraw = 0 := by
      refine List.countP_eq_zero.mpr fun deed member => ?_
      obtain ⟨height, -, rfl⟩ := List.mem_map.mp member
      exact Bool.false_ne_true
    rw [deeds, List.countP_append, List.countP_cons_of_pos (by rfl), judging, ih, List.length_cons]
    omega

/-- A key function is asked once for each element that a stage with it judges. -/
theorem filterMap_deeds {heights : List Nat} {keys : List Value} {keyAt : Nat → Value} (same : heights.map keyAt = keys)
    (multi : Bool) (id : KeyId) (stages : List Stage) (items : List Item) :
    (deeds heights stages items).filterMap (Deed.asks multi keyAt id) = asked multi keys id stages items := by
  induction items generalizing stages with
  | nil => rfl
  | cons item rest ih =>
    rw [deeds, asked, List.filterMap_append, ih, List.filterMap_cons_none (by rfl), ← same, ← List.map_take,
      List.filterMap_map, List.filterMap_map]
    rfl

/-- What comes first is done for a draw. -/
theorem head_deeds (heights : List Nat) (stages : List Stage) (items : List Item) (more : List Deed)
    (first : ∀ deed, more.head? = some deed → deed.isDraw) (deed : Deed)
    (head : (deeds heights stages items ++ more).head? = some deed) : deed.isDraw := by
  cases items with
  | nil => exact first deed head
  | cons item rest =>
    cases head
    rfl

/-- Tame stages meet no end, and stay tame. -/
theorem Tame.sieve {stages : List Stage} {item : Item} (tame : Tame E stages) (domain : E item) :
    NoEnd (Stage.sieve stages item).1 ∧ Tame E (Stage.sieve stages item).2 := by
  induction stages with
  | nil => exact ⟨.ok true, tame⟩
  | cons stage rest ih =>
    obtain ⟨here, tame'⟩ := List.forall_mem_cons.mp tame
    obtain ⟨noEnd, remembers⟩ := here.1.judge here.2 domain
    obtain ⟨above, stays⟩ := ih tame'
    rw [Stage.sieve]
    rcases judged : stage.judge item with ⟨_ | _ | _, after⟩ <;> rw [judge] at judged <;>
      obtain ⟨verdict, rfl⟩ := Prod.mk.inj judged <;> rw [verdict] at noEnd
    · exact ⟨noEnd, List.forall_mem_cons.mpr ⟨⟨here.1, remembers⟩, tame'⟩⟩
    · exact ⟨noEnd, List.forall_mem_cons.mpr ⟨⟨here.1, remembers⟩, tame'⟩⟩
    · exact ⟨above, List.forall_mem_cons.mpr ⟨⟨here.1, remembers⟩, stays⟩⟩

theorem Tame.sieveAll {stages : List Stage} {items : List Item} (tame : Tame E stages)
    (domain : ∀ item ∈ items, E item) : Tame E (Stage.sieveAll stages items) := by
  induction items generalizing stages with
  | nil => exact tame
  | cons item rest ih =>
    obtain ⟨here, others⟩ := List.forall_mem_cons.mp domain
    exact ih (tame.sieve here).2 others

end Stage

/-- What a tape hands out is in the domain that it plays in. -/
theorem Tape.Within.reached {tape last : Tape} {items : List Item} (within : tape.Within E)
    (reaches : tape.Reaches items last) : last.Within E ∧ ∀ item ∈ items, E item := by
  induction items generalizing tape with
  | nil =>
    obtain rfl : tape = last := reaches
    exact ⟨within, by rintro _ ⟨⟩⟩
  | cons item rest ih =>
    obtain ⟨within', domain⟩ := within.step
    obtain ⟨last', others⟩ := ih within' reaches.2
    exact ⟨last', List.forall_mem_cons.mpr ⟨domain item reaches.1, others⟩⟩

theorem Tape.Reaches.append {tape between last : Tape} {items more : List Item} (reaches : tape.Reaches items between)
    (further : between.Reaches more last) : tape.Reaches (items ++ more) last := by
  induction items generalizing tape with
  | nil =>
    obtain rfl : tape = between := reaches
    exact further
  | cons item rest ih => exact ⟨reaches.1, ih reaches.2⟩

namespace Tower

variable {tower left : Tower} {tape : Tape}

/-- Whether a tower told something after its tape handed out elements, all but the last of which were dropped. -/
structure Told (tower : Tower) (tape : Tape) (deeds : List Deed) (told : Draw) (left : Tower) (items : List Item)
    (moved : Tape) : Prop where
  reaches : tape.Reaches items moved
  done : deeds = Stage.deeds tower.heights tower.stages items
  tells : Stage.told tower.stages items = [told]
  settled : ∃ front item, items = front ++ [item] ∧ Stage.told tower.stages front = []
  leaves : left.LeftBy tower moved (Stage.sieveAll tower.stages items)
  noEnd : NoEnd told

/-- Whether a tower is over after its tape handed out elements, all of which were dropped. -/
structure RanOut (tower : Tower) (tape : Tape) (deeds : List Deed) (told : Draw) (left : Tower) (items : List Item)
    (spent : Tape) : Prop where
  reaches : tape.Reaches items spent
  ended : spent.Ended
  done : deeds = Stage.deeds tower.heights tower.stages items ++ [.drew]
  dropped : Stage.told tower.stages items = []
  signals : told = .error .ended
  spent : left.pass.peeked = none ∧ left.pass.exhausted = true

/-- What surfaces of a calm tower comes of the elements that its tape hands out up to the first that is not dropped,
or to the end. -/
theorem Surfaces.items {deeds : List Deed} {told : Draw} (surfaces : Surfaces tower deeds told left) (calm : tower.Calm)
    (source : tower.source = some tape) (free : tape.ErrorFree) (within : tape.Within E)
    (tame : Stage.Tame E tower.stages) :
    ∃ items moved, Told tower tape deeds told left items moved ∨ RanOut tower tape deeds told left items moved := by
  -- An element that is told is the last one.
  have single : ∀ {tower left : Tower} {tape moved : Tape} {item : Item} {told : Draw}, tower.Calm →
      tower.source = some tape → tape.Within E → Stage.Tame E tower.stages → tape.step = (.ok item, moved) →
      tower.lift = ((Stage.sieve tower.stages item).1.map fun fresh => (item, fresh), tower.deedsFor item, left) →
      ((∀ fault, (Stage.sieve tower.stages item).1 = .error fault → fault.isEnd = false) →
        left.LeftBy tower moved (Stage.sieve tower.stages item).2) →
      (told = .ok item ∧ (Stage.sieve tower.stages item).1 = .ok true ∨
        ∃ fault, told = .error fault ∧ (Stage.sieve tower.stages item).1 = .error fault) →
      Told tower tape (tower.deedsFor item) told left [item] moved := by
    intro tower left tape moved item told calm source within tame hands lifts leaves verdict
    obtain ⟨noEnd, -⟩ := tame.sieve (within.step.2 item (congrArg Prod.fst hands))
    refine ⟨⟨congrArg Prod.fst hands, congrArg Prod.snd hands⟩, ?_, ?_, ⟨[], item, rfl, rfl⟩, leaves noEnd, ?_⟩
    · rw [Stage.deeds, Stage.deeds, List.append_nil]
      rfl
    · rw [Stage.told]
      rcases sieved : Stage.sieve tower.stages item with ⟨judged, after⟩
      rw [sieved] at verdict
      rcases verdict with ⟨rfl, rfl⟩ | ⟨fault, rfl, rfl⟩ <;> rfl
    · rcases verdict with ⟨rfl, -⟩ | ⟨fault, rfl, found⟩
      · exact .ok item
      · exact .error (noEnd fault found)
  induction surfaces generalizing tape with
  | @failed tower left deeds fault lifts =>
    rcases step : tape.step with ⟨fault' | item, moved⟩
    · obtain ⟨left', lifts', -, spent⟩ := lift_fault calm source step
      cases lifts.symm.trans lifts'
      obtain rfl := free.step (congrArg Prod.fst step)
      exact ⟨[], tape, .inr ⟨rfl, congrArg Prod.fst step, rfl, rfl, rfl, spent rfl⟩⟩
    · obtain ⟨left', lifts', leaves⟩ := lift_item calm source step
      have same := lifts.symm.trans lifts'
      rcases verdict : (Stage.sieve tower.stages item).1 with fault' | fresh <;> rw [verdict] at same
      · cases same
        exact ⟨[item], moved, .inl (single calm source within tame step lifts' leaves (.inr ⟨fault, rfl, verdict⟩))⟩
      · cases same
  | @fresh tower left deeds item lifts =>
    rcases step : tape.step with ⟨fault | item', moved⟩
    · obtain ⟨left', lifts', -⟩ := lift_fault calm source step
      cases lifts.symm.trans lifts'
    · obtain ⟨left', lifts', leaves⟩ := lift_item calm source step
      have same := lifts.symm.trans lifts'
      rcases verdict : (Stage.sieve tower.stages item').1 with fault | fresh <;> rw [verdict] at same
      · cases same
      · cases same
        exact ⟨[item], moved, .inl (single calm source within tame step lifts' leaves (.inl ⟨rfl, verdict⟩))⟩
  | @dropped tower between left deeds more item told lifts rest ih =>
    rcases step : tape.step with ⟨fault | item', moved⟩
    · obtain ⟨left', lifts', -⟩ := lift_fault calm source step
      cases lifts.symm.trans lifts'
    · obtain ⟨left', lifts', leaves⟩ := lift_item calm source step
      have same := lifts.symm.trans lifts'
      rcases verdict : (Stage.sieve tower.stages item').1 with fault | fresh <;> rw [verdict] at same <;> cases same
      -- What comes after an element that is dropped comes of the tower that it leaves.
      obtain ⟨within', domain⟩ := within.step
      obtain ⟨-, tame'⟩ := tame.sieve (domain item (congrArg Prod.fst step))
      obtain ⟨source', stages', heights', height', calm'⟩ := leaves fun fault fails => by rw [verdict] at fails; cases fails
      rw [step] at within'
      have free' : moved.ErrorFree := by
        have same := tape.script_step
        rw [step] at same
        rw [Tape.ErrorFree, show moved.script = tape.script from same]
        exact free
      obtain ⟨items, last, further⟩ := ih calm' source' free' within' (stages' ▸ tame')
      have nothing : ∀ items, Stage.told tower.stages (item :: items) = Stage.told between.stages items := by
        intro items
        rw [Stage.told, stages']
        rcases sieved : Stage.sieve tower.stages item with ⟨judged, after⟩
        rw [sieved] at verdict
        obtain rfl : judged = .ok false := verdict
        rfl
      have done : ∀ items, Stage.deeds tower.heights tower.stages (item :: items) =
          tower.deedsFor item ++ Stage.deeds between.heights between.stages items := by
        intro items
        rw [Stage.deeds, heights', stages']
        rfl
      have goes : ∀ {items last}, moved.Reaches items last → tape.Reaches (item :: items) last :=
        fun reaches => ⟨congrArg Prod.fst step, by rw [congrArg Prod.snd step]; exact reaches⟩
      refine ⟨item :: items, last, ?_⟩
      rcases further with ⟨reaches, rfl, told', ⟨front, final, rfl, silent⟩, leaves', noEnd⟩ |
        ⟨reaches, ended, rfl, dropped, told', spent⟩
      · refine .inl ⟨goes reaches, (done _).symm, (nothing _).trans told', ⟨item :: front, final, rfl,
          (nothing _).trans silent⟩, ?_, noEnd⟩
        refine ⟨leaves'.source, ?_, leaves'.heights.trans heights', leaves'.height.trans height', leaves'.calm⟩
        rw [leaves'.stages, stages']
        rfl
      · refine .inr ⟨goes reaches, ended, ?_, (nothing _).trans dropped, told', spent⟩
        rw [done, List.append_assoc]

/-- The first thing that stages tell of what is ahead surfaces. -/
theorem surfaces_of_told {moved : Tape} {items : List Item} {told : Draw} {others : List Draw} (calm : tower.Calm)
    (source : tower.source = some tape) (reaches : tape.Reaches items moved) (within : tape.Within E)
    (tame : Stage.Tame E tower.stages) (tells : Stage.told tower.stages items = told :: others) :
    ∃ deeds left, Surfaces tower deeds told left := by
  induction items generalizing tower tape with
  | nil => cases tells
  | cons item rest ih =>
    obtain ⟨left, lifts, leaves⟩ := lift_item calm source (Prod.ext reaches.1 rfl)
    obtain ⟨within', domain⟩ := within.step
    obtain ⟨-, tame'⟩ := tame.sieve (domain item reaches.1)
    rw [Stage.told] at tells
    rcases sieved : Stage.sieve tower.stages item with ⟨fault | _ | _, after⟩ <;>
      rw [sieved] at tells lifts leaves tame' <;> simp only at tells
    · obtain ⟨rfl, -⟩ := List.cons.inj tells
      exact ⟨_, left, .failed lifts⟩
    · obtain ⟨source', stages', -, -, calm'⟩ := leaves (by rintro _ ⟨⟩)
      obtain ⟨deeds, last, surfaces⟩ := ih calm' source' reaches.2 within' (stages' ▸ tame') (stages' ▸ tells)
      exact ⟨_, last, .dropped lifts surfaces⟩
    · obtain ⟨rfl, -⟩ := List.cons.inj tells
      exact ⟨_, left, .fresh lifts⟩

/-- If all that is ahead is dropped, the end surfaces. -/
theorem surfaces_of_end {spent : Tape} {items : List Item} (calm : tower.Calm) (source : tower.source = some tape)
    (reaches : tape.Reaches items spent) (ended : spent.Ended) (tells : Stage.told tower.stages items = []) :
    ∃ deeds left, Surfaces tower deeds (.error .ended) left := by
  induction items generalizing tower tape with
  | nil =>
    obtain rfl : tape = spent := reaches
    obtain ⟨left, lifts, -⟩ := lift_fault calm source (Prod.ext ended rfl)
    exact ⟨_, left, .failed lifts⟩
  | cons item rest ih =>
    obtain ⟨left, lifts, leaves⟩ := lift_item calm source (Prod.ext reaches.1 rfl)
    rw [Stage.told] at tells
    rcases sieved : Stage.sieve tower.stages item with ⟨fault | _ | _, after⟩ <;>
      rw [sieved] at tells lifts leaves <;> simp only at tells
    · cases tells
    · obtain ⟨source', stages', -, -, calm'⟩ := leaves (by rintro _ ⟨⟩)
      obtain ⟨deeds, last, surfaces⟩ := ih calm' source' reaches.2 (stages' ▸ tells)
      exact ⟨_, last, .dropped lifts surfaces⟩
    · cases tells

end Tower

end FirstSeen
