import FirstSeen.Proofs.Tower.Machine

/-!
# What flows through a tower

The rules of a tower *sift* what the tape at its ground hands out: each keeps the elements whose keys are
fresh to it and hands them on to the next. As long as nothing fails, a tower has handed out what its rules
keep of the elements that were drawn so far, each once and in order, and its filters remember what sifting
these elements remembers. Asking the tower for an element carries this on.
-/

set_option autoImplicit false

namespace FirstSeen

/-! ## Elements of a tape -/

namespace Tape

/-- The elements that the next so many moves of a tape hand out, up to the end or a fault. -/
def elements (tape : Tape) : Nat → List Item
  | 0 => []
  | k + 1 =>
    match tape.step with
    | (.ok item, moved) => item :: moved.elements k
    | (.error _, _) => []

/-- Whether a tape becomes another one by handing out these elements. -/
def Reaches (tape : Tape) : List Item → Tape → Prop
  | [], last => tape = last
  | item :: rest, last => tape.step.1 = .ok item ∧ tape.step.2.Reaches rest last

/-- Whether none of the events of a tape is a fault. -/
def ErrorFree (tape : Tape) : Prop := ∀ i fault, tape.script i ≠ some (.error fault)

/-- Whether a tape is at its end. -/
def Ended (tape : Tape) : Prop := tape.step.1 = .error .ended

theorem script_step (tape : Tape) : tape.step.2.script = tape.script := by
  rw [step]
  split
  · rfl
  · split <;> rfl

theorem Reaches.script {tape last : Tape} {items : List Item} (reaches : tape.Reaches items last) :
    last.script = tape.script := by
  induction items generalizing tape with
  | nil => exact congrArg Tape.script (Eq.symm reaches)
  | cons item rest ih => exact (ih reaches.2).trans tape.script_step

/-- A tape without faults hands out an element or is at its end. -/
theorem ErrorFree.step {tape : Tape} (free : tape.ErrorFree) {fault : Fault} (fails : tape.step.1 = .error fault) :
    fault = .ended := by
  rw [Tape.step] at fails
  split at fails
  · exact (Except.error.inj fails).symm
  · split at fails
    · exact (Except.error.inj fails).symm
    · cases fails
    · rename_i found
      exact absurd found (free _ _)

theorem Reaches.snoc {tape last : Tape} {items : List Item} {item : Item} (reaches : tape.Reaches items last)
    (hands : last.step.1 = .ok item) : tape.Reaches (items ++ [item]) last.step.2 := by
  induction items generalizing tape with
  | nil =>
    obtain rfl : tape = last := reaches
    exact ⟨hands, rfl⟩
  | cons first rest ih => exact ⟨reaches.1, ih reaches.2⟩

/-- What a tape hands out begins with what it handed out to become another one. -/
theorem Reaches.elements {tape last : Tape} {items : List Item} (reaches : tape.Reaches items last) (k : Nat) :
    tape.elements (items.length + k) = items ++ last.elements k := by
  induction items generalizing tape with
  | nil =>
    obtain rfl : tape = last := reaches
    rw [List.length_nil, Nat.zero_add, List.nil_append]
  | cons item rest ih =>
    rw [List.length_cons, Nat.add_right_comm, Tape.elements,
      show tape.step = (.ok item, tape.step.2) from Prod.ext reaches.1 rfl]
    exact congrArg (item :: ·) (ih reaches.2)

/-- A tape at its end hands out nothing. -/
theorem Ended.elements {tape : Tape} (ended : tape.Ended) (k : Nat) : tape.elements k = [] := by
  cases k with
  | zero => rfl
  | succ k => rw [Tape.elements, show tape.step = (.error .ended, tape.step.2) from Prod.ext ended rfl]

/-- What fewer moves hand out comes first in what more moves hand out. -/
theorem elements_prefix (tape : Tape) (k more : Nat) : tape.elements k <+: tape.elements (k + more) := by
  induction k generalizing tape with
  | zero => exact List.nil_prefix
  | succ k ih =>
    rw [Nat.add_right_comm, elements, elements]
    split
    · exact List.cons_prefix_cons.mpr ⟨rfl, ih _⟩
    · exact List.nil_prefix

end Tape

/-! ## Sifting -/

namespace Rule

/-- What a rule keeps of elements in turn, and what it remembers then. -/
def sift (rule : Rule) : Seen → List Item → Except Fault (List Item × Seen)
  | seen, [] => .ok ([], seen)
  | seen, item :: rest =>
    match rule.judge seen item with
    | (.error fault, _) => .error fault
    | (.ok fresh, seen) => (rule.sift seen rest).map fun sifted =>
      (if fresh then item :: sifted.1 else sifted.1, sifted.2)

/-- What rules keep of elements, each of what the one before it keeps. -/
def siftAll (rules : List Rule) (items : List Item) : Except Fault (List Item) :=
  rules.foldlM (fun items rule => (rule.sift .empty items).map Prod.fst) items

/-- Sifting one element more judges it by what is remembered. -/
theorem sift_snoc {rule : Rule} {seen seen' : Seen} {items kept : List Item} (item : Item)
    (sifts : rule.sift seen items = .ok (kept, seen')) :
    rule.sift seen (items ++ [item]) =
      match rule.judge seen' item with
      | (.error fault, _) => .error fault
      | (.ok fresh, after) => .ok (kept ++ if fresh then [item] else [], after) := by
  induction items generalizing seen kept with
  | nil =>
    cases sifts
    rw [List.nil_append, sift]
    rcases rule.judge seen' item with ⟨_ | _ | _, after⟩ <;> rfl
  | cons first rest ih =>
    rw [sift] at sifts
    rw [List.cons_append, sift]
    rcases judged : rule.judge seen first with ⟨fault | fresh, between⟩ <;> simp only [judged] at sifts ⊢
    · cases sifts
    · rcases sifted : rule.sift between rest with fault | ⟨others, last⟩
      · rw [sifted] at sifts
        cases sifts
      · rw [sifted] at sifts
        cases sifts
        rw [ih sifted]
        rcases rule.judge last item with ⟨_ | more, after⟩
        · rfl
        · cases fresh <;> rfl

/-- What is kept of some elements does not depend on those that come after them. -/
theorem sift_append {rule : Rule} {seen after : Seen} {items more kept : List Item}
    (sifts : rule.sift seen (items ++ more) = .ok (kept, after)) :
    ∃ first between, rule.sift seen items = .ok (first, between) ∧ first <+: kept := by
  induction items generalizing seen kept with
  | nil => exact ⟨[], seen, rfl, List.nil_prefix⟩
  | cons item rest ih =>
    rw [List.cons_append, sift] at sifts
    rw [sift]
    rcases judged : rule.judge seen item with ⟨fault | fresh, seen'⟩ <;> simp only [judged] at sifts ⊢
    · cases sifts
    · rcases sifted : rule.sift seen' (rest ++ more) with fault | ⟨others, last⟩
      · rw [sifted] at sifts
        cases sifts
      · rw [sifted] at sifts
        cases sifts
        obtain ⟨first, between, some, before⟩ := ih sifted
        refine ⟨if fresh then item :: first else first, between, by rw [some]; rfl, ?_⟩
        cases fresh with
        | false => exact before
        | true => exact List.cons_prefix_cons.mpr ⟨rfl, before⟩

@[simp] theorem siftAll_nil (items : List Item) : siftAll [] items = .ok items := rfl

/-- The last of some rules sifts what the others keep. -/
theorem siftAll_snoc (rules : List Rule) (rule : Rule) (items : List Item) :
    siftAll (rules ++ [rule]) items =
      siftAll rules items >>= fun kept => (rule.sift .empty kept).map Prod.fst := by
  rw [siftAll, List.foldlM_append]
  simp only [List.foldlM_cons, List.foldlM_nil, bind_pure]
  rfl

/-- What rules keep of some elements does not depend on those that come after them. -/
theorem siftAll_append {rules : List Rule} {items more kept : List Item}
    (sifts : siftAll rules (items ++ more) = .ok kept) :
    ∃ first, siftAll rules items = .ok first ∧ first <+: kept := by
  induction rules generalizing items more with
  | nil =>
    cases sifts
    exact ⟨items, rfl, List.prefix_append items more⟩
  | cons rule rest ih =>
    rw [siftAll, List.foldlM_cons] at sifts ⊢
    rcases sifted : rule.sift .empty (items ++ more) with fault | ⟨others, after⟩
    · rw [sifted] at sifts
      cases sifts
    · obtain ⟨some, between, sifted', ⟨further, rfl⟩⟩ := sift_append sifted
      rw [sifted']
      rw [sifted] at sifts
      exact ih sifts

end Rule

/-- Whether rules judge all that a tape hands out without a fault. -/
def Tape.SiftedBy (source : Tape) (rules : List Rule) : Prop :=
  ∀ k, ∃ kept, Rule.siftAll rules (source.elements k) = .ok kept

/-- What a tape handed out is sifted without a fault. -/
theorem Tape.SiftedBy.reached {source last : Tape} {rules : List Rule} {items : List Item}
    (sifted : source.SiftedBy rules) (reaches : source.Reaches items last) :
    ∃ kept, Rule.siftAll rules items = .ok kept := by
  have handed := reaches.elements 0
  rw [Tape.elements, List.append_nil] at handed
  exact handed ▸ sifted (items.length + 0)

/-- A tape whose elements, up to its end, are sifted without a fault is. -/
theorem Tape.sifted_of_ended {source last : Tape} {rules : List Rule} {items kept : List Item}
    (reaches : source.Reaches items last) (ended : last.Ended) (sifts : Rule.siftAll rules items = .ok kept) :
    source.SiftedBy rules := by
  intro k
  have all : source.elements (k + items.length) = items := by
    rw [Nat.add_comm, reaches.elements, ended.elements, List.append_nil]
  obtain ⟨more, same⟩ := all ▸ source.elements_prefix k items.length
  obtain ⟨first, sifts', -⟩ := Rule.siftAll_append (same ▸ sifts)
  exact ⟨first, sifts'⟩

/-- The rules before the last one judge without a fault as well. -/
theorem Tape.SiftedBy.init {source : Tape} {rules : List Rule} {rule : Rule}
    (sifted : source.SiftedBy (rules ++ [rule])) : source.SiftedBy rules := by
  intro k
  obtain ⟨kept, all⟩ := sifted k
  rw [Rule.siftAll_snoc] at all
  cases before : Rule.siftAll rules (source.elements k) with
  | ok kept => exact ⟨kept, rfl⟩
  | error fault =>
    rw [before] at all
    cases all

/-- What is gathered is what the draws hand out, if these keep count of it and fail at the end only. -/
theorem gatherBy_collects {σ : Type} {draw : Nat → σ → Option (Draw × σ)} (going spent : σ → List Item → Prop)
    (hands : ∀ n state handed item left, going state handed → draw n state = some (.ok item, left) →
      going left (handed ++ [item]))
    (stops : ∀ n state handed fault left, going state handed → draw n state = some (.error fault, left) →
      fault = .ended ∧ spent left handed)
    (n : Nat) {state left : σ} {handed earlier : List Item} {ended : Except Fault (List Item)}
    (counts : going state handed) (ends : gatherBy draw n state earlier = some (ended, left)) :
    ∃ more, ended = .ok (earlier.reverse ++ more) ∧ spent left (handed ++ more) := by
  induction n generalizing state handed earlier with
  | zero => cases ends
  | succ n ih =>
    rw [gatherBy] at ends
    rcases drawn : draw n state with _ | ⟨fault | item, between⟩
    · simp [drawn] at ends
    · obtain ⟨rfl, stopped⟩ := stops n state handed fault between counts drawn
      rw [drawn] at ends
      cases ends
      exact ⟨[], by rw [List.append_nil]; rfl, by rwa [List.append_nil]⟩
    · rw [drawn] at ends
      obtain ⟨more, same, stopped⟩ := ih (hands n state handed item between counts drawn) ends
      exact ⟨item :: more, by simpa using same, by rwa [List.append_cons]⟩

/-! ## Carrying on -/

/-- The tape that a start stands for. -/
def Origin.tapeOf (origin : Origin) : Start → Tape
  | .own tape => tape
  | .kept => origin.kept

/-- The tape that the next draw from an origin moves on, if there is one. -/
def Origin.current (origin : Origin) : Option Tape :=
  match origin.held, origin.openings 0 with
  | some start, _ | none, .ok start => some (origin.tapeOf start)
  | none, .error _ => none

/-- A draw that ends moves on the current tape. -/
theorem Origin.draw_current {n : Nat} {origin left : Origin} {told : Draw} {tape : Tape}
    (current : origin.current = some tape) (ends : origin.draw n = some (told, left)) :
    told = tape.step.1 ∧ left.current = some tape.step.2 := by
  have moved : ∀ (opened : Origin) (start : Start), opened.kept = origin.kept → origin.tapeOf start = tape →
      (if n = 0 then none else some (opened.advance start)) = some (told, left) →
      told = tape.step.1 ∧ left.current = some tape.step.2 := by
    rintro opened start same rfl ends
    split at ends
    · cases ends
    · cases start with
      | own held =>
        cases ends
        exact ⟨rfl, rfl⟩
      | kept =>
        cases ends
        rw [Origin.tapeOf, ← same]
        exact ⟨rfl, rfl⟩
  rw [Origin.current] at current
  rw [draw] at ends
  cases held : origin.held with
  | some start =>
    simp only [held] at current ends
    exact moved _ start rfl (Option.some.inj current) ends
  | none =>
    cases opens : origin.openings 0 with
    | error fault =>
      simp only [held, opens] at current
      cases current
    | ok start =>
      simp only [held, opens] at current ends
      refine moved _ start ?_ (Option.some.inj current) ends
      rfl

/-- Whether a tower with these rules has got these elements from its tape, and has pulled those that its
rules keep of them. -/
inductive Tower.Carries (source : Tape) (items : List Item) : List Rule → Tower → List Item → Prop
  | ground {pass : Pass} {origin : Origin} {last : Tape} (reaches : source.Reaches items last)
      (current : pass.exhausted = false → origin.current = some last)
      (ended : pass.exhausted = true → last.Ended) : Carries source items [] (.ground pass origin) items
  | passage {pass : Pass} {rules : List Rule} {below : Tower} {pulled : List Item}
      (unpeeked : below.pass.peeked = none) (ended : pass.exhausted = true → below.pass.exhausted = true)
      (carries : Carries source items rules below pulled) :
      Carries source items rules (.passage pass below) pulled
  | filter {pass : Pass} {rules : List Rule} {rule : Rule} {seen after : Seen} {below : Tower}
      {taken pulled : List Item} (unpeeked : below.pass.peeked = none)
      (ended : pass.exhausted = true → below.pass.exhausted = true)
      (carries : Carries source items rules below taken) (sifts : rule.sift .empty taken = .ok (pulled, after))
      (remembers : pass.exhausted = false → seen = after) :
      Carries source items (rules ++ [rule]) (.filter pass rule seen below) pulled

namespace Tower

variable {source : Tape} {items pulled : List Item} {rules : List Rule} {tower : Tower}

/-- What a tower pulled is what its rules keep of what its tape handed out. -/
theorem Carries.sifted (carries : Carries source items rules tower pulled) :
    Rule.siftAll rules items = .ok pulled := by
  induction carries with
  | ground reaches current ended => rfl
  | passage unpeeked ended carries ih => exact ih
  | filter unpeeked ended carries sifts remembers ih =>
    rw [Rule.siftAll_snoc, ih]
    change Except.map Prod.fst (Rule.sift _ _ _) = _
    rw [sifts]
    rfl

/-- A tower that met the end has got all that its tape hands out. -/
theorem Carries.reached (carries : Carries source items rules tower pulled) :
    ∃ last, source.Reaches items last ∧ (tower.pass.exhausted = true → last.Ended) := by
  induction carries with
  | ground reaches current ended => exact ⟨_, reaches, ended⟩
  | passage unpeeked ended carries ih | filter unpeeked ended carries sifts remembers ih =>
    obtain ⟨last, reaches, spent⟩ := ih
    exact ⟨last, reaches, fun exhausted => spent (ended exhausted)⟩

/-- Where else the pass of the topmost sequence is does not matter. -/
theorem Carries.withPass (carries : Carries source items rules tower pulled) (pass : Pass)
    (same : pass.exhausted = tower.pass.exhausted) : Carries source items rules (tower.withPass pass) pulled := by
  cases carries with
  | ground reaches current ended =>
    exact .ground reaches (fun h => current (same.symm.trans h)) fun h => ended (same.symm.trans h)
  | passage unpeeked ended carries => exact .passage unpeeked (fun h => ended (same.symm.trans h)) carries
  | filter unpeeked ended carries sifts remembers =>
    exact .filter unpeeked (fun h => ended (same.symm.trans h)) carries sifts fun h =>
      remembers (same.symm.trans h)

theorem peeked_finish (tower : Tower) :
    tower.finish.pass.peeked = tower.pass.peeked ∧ tower.finish.pass.exhausted = true := by
  cases tower <;> exact ⟨rfl, rfl⟩

/-- Filters that nothing went through carry on where the tower below them is. -/
theorem carries_filters {before : List Rule} (rules : List Rule) (idle : tower.pass = {})
    (carries : Carries source items before tower []) :
    Carries source items (before ++ rules) (filters rules tower) [] := by
  induction rules generalizing before tower with
  | nil => rwa [List.append_nil]
  | cons rule rest ih =>
    have above : Carries source items (before ++ [rule]) (.filter {} rule .empty tower) [] :=
      .filter (by rw [idle]) (fun spent => by cases spent) carries rfl fun _ => rfl
    have result := ih rfl above
    rwa [List.append_assoc] at result

/-- What a tower comes to when its topmost sequence tells this: it has pulled one element more, or met the
end. -/
def Carried (source : Tape) (rules : List Rule) (pulled : List Item) (told : Draw) (left : Tower) : Prop :=
  ∃ items, match told with
    | .ok item => left.pass.exhausted = false ∧ Carries source items rules left (pulled ++ [item])
    | .error fault => fault = .ended ∧ left.pass.exhausted = true ∧ Carries source items rules left pulled

/-- Asking a tower for an element carries it on. -/
theorem next_carried {n : Nat} {left : Tower} {told : Draw} (free : source.ErrorFree)
    (sifted : source.SiftedBy rules) (unpeeked : tower.pass.peeked = none)
    (carries : Carries source items rules tower pulled) (ends : next n tower = some (told, left)) :
    left.pass.peeked = none ∧ Carried source rules pulled told left := by
  have induction := (run_induction
    (R := fun tower told left => ∀ rules items pulled, source.SiftedBy rules → tower.pass.peeked = none →
      Carries source items rules tower pulled → left.pass.peeked = none ∧ Carried source rules pulled told left)
    -- A pull that meets the end has not finished the tower yet.
    (S := fun tower told left => ∀ rules items pulled, source.SiftedBy rules → tower.pass.exhausted = false →
      Carries source items rules tower pulled → left.pass = tower.pass ∧
        Carried source rules pulled told (settle (told, left)).2)
    ?peeked ?spent ?settled ?ground ?passage ?failed ?judged n).1
  case peeked =>
    intro tower item found rules items pulled _ unpeeked
    rw [unpeeked] at found
    cases found
  case spent => exact fun tower _ spent rules items pulled _ unpeeked carries => ⟨unpeeked, items, rfl, spent, carries⟩
  case settled =>
    intro tower told left _ going pulls rules items pulled sifted unpeeked carries
    obtain ⟨pass, carried⟩ := pulls rules items pulled sifted (by rw [begun, pass_withPass]; exact going)
      (carries.withPass _ rfl)
    have unpeeked' : left.pass.peeked = none := by rw [pass, begun, pass_withPass]; exact unpeeked
    refine ⟨?_, ?_⟩
    · cases told with
      | ok item => exact unpeeked'
      | error fault =>
        simp only [settle]
        split
        · rw [(peeked_finish left).1, unpeeked']
        · exact unpeeked'
    · cases told <;> exact carried
  case ground =>
    intro pass origin n told left drawn rules items pulled sifted going carries
    cases carries with
    | @ground _ _ last reaches current ended =>
      obtain ⟨rfl, current'⟩ := Origin.draw_current (current going) drawn
      refine ⟨rfl, ?_⟩
      cases moves : last.step.1 with
      | ok item =>
        exact ⟨items ++ [item], going, .ground (reaches.snoc moves) (fun _ => current') fun spent =>
          Bool.noConfusion (spent.symm.trans going)⟩
      | error fault =>
        have free' : last.ErrorFree := by rw [Tape.ErrorFree, reaches.script]; exact free
        obtain rfl := free'.step moves
        exact ⟨items, rfl, rfl, .ground reaches (fun h => by cases h) fun _ => moves⟩
  case passage =>
    intro pass below told left asks rules items pulled sifted going carries
    cases carries with
    | passage unpeeked ended carries =>
      obtain ⟨unpeeked', items', carried⟩ := asks rules items pulled sifted unpeeked carries
      refine ⟨rfl, items', ?_⟩
      cases told with
      | ok item =>
        exact ⟨going, .passage unpeeked' (fun spent => Bool.noConfusion (spent.symm.trans going)) carried.2⟩
      | error fault =>
        obtain ⟨rfl, spent, carried⟩ := carried
        exact ⟨rfl, rfl, .passage unpeeked' (fun _ => spent) carried⟩
  case failed =>
    intro pass rule seen below fault left asks rules items pulled sifted going carries
    cases carries with
    | filter unpeeked ended carries sifts remembers =>
      obtain ⟨unpeeked', items', rfl, spent, carried⟩ := asks _ items _ sifted.init unpeeked carries
      exact ⟨rfl, items', rfl, rfl, .filter unpeeked' (fun _ => spent) carried sifts fun h => by cases h⟩
  case judged =>
    intro pass rule seen below item left asks
    -- Judging the element is one step more of sifting, which does not fail.
    have judges : ∀ rules items pulled, source.SiftedBy rules → pass.exhausted = false →
        Carries source items rules (.filter pass rule seen below) pulled →
        ∃ items' fresh, (rule.judge seen item).1 = .ok fresh ∧ Carries source items' rules
          (.filter pass rule (rule.judge seen item).2 left) (pulled ++ if fresh then [item] else []) := by
      intro rules items pulled sifted going carries
      cases carries with
      | filter unpeeked ended carries sifts remembers =>
        obtain rfl := remembers going
        obtain ⟨unpeeked', items', -, carried⟩ := asks _ items _ sifted.init unpeeked carries
        obtain ⟨last, reaches, -⟩ := carried.reached
        obtain ⟨kept, all⟩ := sifted.reached reaches
        rw [Rule.siftAll_snoc, carried.sifted] at all
        have step := Rule.sift_snoc item sifts
        rcases judged : rule.judge seen item with ⟨fault | fresh, seen'⟩
        · rw [judged] at step
          change Except.map Prod.fst (Rule.sift _ _ _) = _ at all
          rw [step] at all
          cases all
        · rw [judged] at step
          exact ⟨items', fresh, rfl, .filter unpeeked' (fun spent => Bool.noConfusion (spent.symm.trans going))
            carried step fun _ => rfl⟩
    refine ⟨fun fault failed rules items pulled sifted going carries => ?_,
      fun fresh rules items pulled sifted going carries => ?_,
      fun told last repeated pulls rules items pulled sifted going carries => ?_⟩
    · obtain ⟨items', fresh, same, -⟩ := judges rules items pulled sifted going carries
      rw [failed] at same
      cases same
    · obtain ⟨items', fresh', same, carried⟩ := judges rules items pulled sifted going carries
      rw [fresh] at same
      cases same
      exact ⟨rfl, items', going, carried⟩
    · obtain ⟨items', fresh, same, carried⟩ := judges rules items pulled sifted going carries
      rw [repeated] at same
      cases same
      rw [if_neg Bool.false_ne_true, List.append_nil] at carried
      exact pulls rules items' pulled sifted going carried
  exact induction tower told left ends rules items pulled sifted unpeeked carries

end Tower

end FirstSeen
