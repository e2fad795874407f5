import FirstSeen.Proofs.Equality.Taming
import FirstSeen.Proofs.History.Keeping
import FirstSeen.Proofs.Tower.Flowing
import FirstSeen.Proofs.Tower.Raw
import FirstSeen.Proofs.Tower.Resetting

/-!
# What ends a tower

In a tower whose filters judge by tame keys, a sequence has met its end only if the one below it has. Nothing but
the ground can bring an end up, because what a filter fails by itself never signals one. This holds at the
beginning and is kept by everything that happens to a tower.
-/

set_option autoImplicit false

namespace FirstSeen

variable {D : Item → Prop}

/-! ## What is handed out -/

namespace Tape

/-- A tape moves on within what it hands out. -/
theorem Within.step {tape : Tape} (within : tape.Within D) :
    tape.step.2.Within D ∧ ∀ item, tape.step.1 = .ok item → D item := by
  rw [Tape.step]
  split
  · exact ⟨within, by rintro _ ⟨⟩⟩
  · split
    · exact ⟨within, by rintro _ ⟨⟩⟩
    · rename_i item there
      refine ⟨within, fun other told => ?_⟩
      cases told
      exact within tape.position item there
    · exact ⟨within, by rintro _ ⟨⟩⟩

theorem Within.close {tape : Tape} (within : tape.Within D) : tape.close.2.Within D := by
  rw [Tape.close]
  split <;> exact within

end Tape

namespace Origin

/-- Whether everything that an origin may hand out, from now on, is in a domain. -/
structure Keeps (origin : Origin) (D : Item → Prop) : Prop extends origin.Within D where
  held : ∀ tape, origin.held = some (.own tape) → tape.Within D

theorem Keeps.advance {origin : Origin} {start : Start} (keeps : origin.Keeps D)
    (own : ∀ tape, start = .own tape → tape.Within D) :
    (origin.advance start).2.Keeps D ∧ ∀ item, (origin.advance start).1 = .ok item → D item := by
  cases start with
  | own tape =>
    obtain ⟨moved, within⟩ := (own tape rfl).step
    refine ⟨⟨⟨keeps.openings, keeps.kept⟩, fun other found => ?_⟩, within⟩
    cases found
    exact moved
  | kept =>
    obtain ⟨moved, within⟩ := keeps.kept.step
    exact ⟨⟨⟨keeps.openings, moved⟩, by rintro _ ⟨⟩⟩, within⟩

theorem Keeps.draw {n : Nat} {origin left : Origin} {told : Draw} (keeps : origin.Keeps D)
    (ends : origin.draw n = some (told, left)) : left.Keeps D ∧ ∀ item, told = .ok item → D item := by
  rw [Origin.draw] at ends
  have opened : Origin.Keeps { origin with openings := fun i => origin.openings (i + 1) } D :=
    ⟨⟨fun n => keeps.openings (n + 1), keeps.kept⟩, keeps.held⟩
  split at ends
  · rename_i start held
    split at ends
    · cases ends
    · have moved := @Keeps.advance D origin start keeps fun tape own => keeps.held tape (held.trans (congrArg some own))
      rwa [Option.some.inj ends] at moved
  · split at ends
    · cases ends
      exact ⟨opened, by rintro _ ⟨⟩⟩
    · rename_i start opens
      split at ends
      · cases ends
      · have moved := @Keeps.advance D _ start opened fun tape own =>
          keeps.openings 0 tape (opens.trans (congrArg Except.ok own))
        rwa [Option.some.inj ends] at moved

theorem Keeps.free {origin : Origin} (keeps : origin.Keeps D) : Origin.Keeps { origin with held := none } D :=
  ⟨⟨keeps.openings, keeps.kept⟩, by rintro _ ⟨⟩⟩

theorem Keeps.close {origin : Origin} (keeps : origin.Keeps D) : origin.close.2.Keeps D := by
  rw [Origin.close]
  split
  · exact keeps
  · rename_i tape held
    refine ⟨⟨keeps.openings, keeps.kept⟩, fun other found => ?_⟩
    cases found
    exact (keeps.held tape held).close
  · exact ⟨⟨keeps.openings, keeps.kept.close⟩, keeps.held⟩

theorem Keeps.reset {origin : Origin} (keeps : origin.Keeps D) (started : Bool) :
    (origin.reset started).2.Keeps D := by
  rw [Origin.reset]
  split
  · exact keeps
  · split
    · have closed := keeps.close
      split <;> rename_i closes <;> rw [closes] at closed
      · exact closed
      · exact closed.free
    · exact keeps.free

theorem Keeps.release {origin : Origin} (keeps : origin.Keeps D) : origin.release.Keeps D := by
  rw [Origin.release]
  split
  · exact keeps.free
  · exact keeps

end Origin

/-! ## Judging -/

/-- Whether a rule finds tame keys for the elements of a domain, and fails by no end. -/
structure Rule.Tame (rule : Rule) (D : Item → Prop) : Prop where
  guarded : ∀ item, NoEnd (rule.keyOf item)
  keys : ∀ item key, D item → rule.keyOf item = .ok key → key.Tame
  limit : rule.limit.Tame

/-- A tame rule signals no end, and remembers tame keys. -/
theorem Rule.Tame.judge {rule : Rule} {seen : Seen} {item : Item} (tame : rule.Tame D) (remembers : seen.Tame)
    (domain : D item) : NoEnd (rule.judge seen item).1 ∧ (rule.judge seen item).2.Tame := by
  rw [Rule.judge]
  split
  · rename_i fault fails
    exact ⟨.error (tame.guarded item fault fails), remembers⟩
  · rename_i key found
    exact Seen.record_tame remembers (tame.keys item key domain found) tame.limit

namespace Tower

/-- Whether the sequence below the topmost one has met its end, if there is one. -/
def OverBelow : Tower → Prop
  | ground .. => True
  | passage _ below | filter _ _ _ below => below.pass.exhausted = true

/-- Whether everything in a tower is in a domain, its filters are tame, and a sequence has met its end only if
the one below it has. -/
def Honest (D : Item → Prop) : Tower → Prop
  | ground pass origin => (∀ item, pass.peeked = some item → D item) ∧ origin.Keeps D
  | passage pass below => (∀ item, pass.peeked = some item → D item) ∧
      (pass.exhausted = true → below.pass.exhausted = true) ∧ below.Honest D
  | filter pass rule seen below => (∀ item, pass.peeked = some item → D item) ∧
      (pass.exhausted = true → below.pass.exhausted = true) ∧ rule.Tame D ∧ seen.Tame ∧ below.Honest D

variable {tower left : Tower} {told : Draw}

theorem Honest.peeked (honest : tower.Honest D) : ∀ item, tower.pass.peeked = some item → D item := by
  cases tower with
  | ground pass origin => exact honest.1
  | passage pass below | filter pass rule seen below => exact honest.1

theorem Honest.overBelow (honest : tower.Honest D) (spent : tower.pass.exhausted = true) : tower.OverBelow := by
  cases tower with
  | ground pass origin => trivial
  | passage pass below | filter pass rule seen below => exact honest.2.1 spent

/-- What was looked at ahead may change, and the topmost sequence may be over if the one below it is. -/
theorem Honest.withPass (honest : tower.Honest D) {pass : Pass} (peeked : ∀ item, pass.peeked = some item → D item)
    (spent : pass.exhausted = true → tower.OverBelow) : (tower.withPass pass).Honest D := by
  cases tower with
  | ground _ origin => exact ⟨peeked, honest.2⟩
  | passage _ below => exact ⟨peeked, spent, honest.2.2⟩
  | filter _ rule seen below => exact ⟨peeked, spent, honest.2.2⟩

theorem Honest.finish (honest : tower.Honest D) (spent : tower.OverBelow) : tower.finish.Honest D := by
  cases tower with
  | ground _ origin => exact ⟨honest.1, honest.2.release⟩
  | passage _ below => exact ⟨honest.1, fun _ => spent, honest.2.2⟩
  | filter _ rule seen below => exact ⟨honest.1, fun _ => spent, honest.2.2.1, Seen.tame_empty, honest.2.2.2.2⟩

/-- Whether what a tower told is in a domain, leaves an honest tower, and signals an end only if something is
over. -/
structure Tells (D : Item → Prop) (spent : Prop) (told : Draw) (left : Tower) : Prop where
  honest : left.Honest D
  domain : ∀ item, told = .ok item → D item
  ended : ∀ fault, told = .error fault → fault.isEnd = true → spent

theorem Tells.element {spent : Prop} {item : Item} (honest : left.Honest D) (domain : D item) :
    Tells D spent (.ok item) left := by
  refine ⟨honest, ?_, by rintro _ ⟨⟩⟩
  rintro _ ⟨⟩
  exact domain

theorem Tells.fault {spent : Prop} {fault : Fault} (honest : left.Honest D) (ended : fault.isEnd = true → spent) :
    Tells D spent (.error fault) left := by
  refine ⟨honest, by rintro _ ⟨⟩, ?_⟩
  rintro _ ⟨⟩
  exact ended

/-- Asking an honest tower leaves an honest one, hands out what is in the domain, and signals an end only if the
tower has met its end. -/
theorem next_honest {n : Nat} (honest : tower.Honest D) (ends : next n tower = some (told, left)) :
    Tells D (left.pass.exhausted = true) told left := by
  refine ((run_induction
    (R := fun tower told left => tower.Honest D → Tells D (left.pass.exhausted = true) told left ∧
      (tower.pass.exhausted = true → left.pass.exhausted = true))
    -- A pull that signals an end has found it below.
    (S := fun tower told left => tower.Honest D → Tells D left.OverBelow told left)
    ?_ ?_ ?_ ?_ ?_ ?_ ?_ n).1 tower told left ends honest).1
  · intro tower item peeked honest
    refine ⟨.element (honest.withPass (by rintro _ ⟨⟩) honest.overBelow) (honest.peeked item peeked),
      fun spent => ?_⟩
    rw [pass_withPass]
    exact spent
  · exact fun tower _ spent honest => ⟨.fault honest fun _ => spent, fun spent => spent⟩
  · intro tower told left _ going pulls honest
    obtain ⟨honest', domain, spent⟩ := pulls (honest.withPass honest.peeked honest.overBelow)
    refine ⟨?_, fun spent => by rw [going] at spent; cases spent⟩
    cases told with
    | ok item => exact .element honest' (domain item rfl)
    | error fault =>
      simp only [settle]
      split
      · exact .fault (honest'.finish (spent fault rfl ‹_›)) fun _ => (peeked_finish left).2
      · exact .fault honest' fun ended => absurd ended ‹_›
  · intro pass origin n told left drawn honest
    obtain ⟨keeps, domain⟩ := honest.2.draw drawn
    exact ⟨⟨honest.1, keeps⟩, domain, fun _ _ _ => trivial⟩
  · rintro pass below told left asks ⟨peeked, spent, honest⟩
    obtain ⟨⟨honest', domain, ended⟩, stays⟩ := asks honest
    exact ⟨⟨peeked, fun exhausted => stays (spent exhausted), honest'⟩, domain, ended⟩
  · rintro pass rule seen below fault left asks ⟨peeked, spent, tame, remembers, honest⟩
    obtain ⟨⟨honest', domain, ended⟩, stays⟩ := asks honest
    exact ⟨⟨peeked, fun exhausted => stays (spent exhausted), tame, remembers, honest'⟩, domain, ended⟩
  · intro pass rule seen below item left asks
    -- What the filter itself fails by is no end.
    have judged : (filter pass rule seen below).Honest D → NoEnd (rule.judge seen item).1 ∧ D item ∧
        (filter pass rule (rule.judge seen item).2 left).Honest D := by
      rintro ⟨peeked, spent, tame, remembers, honest⟩
      obtain ⟨⟨honest', domain, -⟩, stays⟩ := asks honest
      obtain ⟨noEnd, remembers'⟩ := tame.judge remembers (domain item rfl)
      exact ⟨noEnd, domain item rfl, peeked, fun exhausted => stays (spent exhausted), tame, remembers', honest'⟩
    refine ⟨fun fault fails honest => ?_, fun _ honest => ?_, fun told last _ pulls honest => ?_⟩
    · obtain ⟨noEnd, -, honest'⟩ := judged honest
      exact .fault honest' fun ended => absurd ended (by rw [noEnd fault fails]; exact Bool.false_ne_true)
    · obtain ⟨-, domain, honest'⟩ := judged honest
      exact .element honest' domain
    · exact pulls (judged honest).2.2

/-- Taking an honest tower back leaves an honest one, whether or not this fails. -/
theorem rewind_honest (honest : tower.Honest D) : tower.rewind.2.Honest D := by
  induction tower with
  | ground pass origin =>
    have keeps := honest.2.reset pass.started
    rw [rewind]
    split <;> rename_i resets <;> rw [resets] at keeps
    · exact ⟨honest.1, keeps⟩
    · exact ⟨by rintro _ ⟨⟩, keeps⟩
  | passage pass below ih =>
    obtain ⟨peeked, spent, honest⟩ := honest
    have honest' := ih honest
    rw [rewind]
    rcases rewinds : below.rewind with ⟨fault | fault, left⟩ <;> rw [rewinds] at honest'
    · exact ⟨by rintro _ ⟨⟩, by rintro ⟨⟩, honest'⟩
    · have same := @pass_rewind below fault (by rw [rewinds])
      rw [rewinds] at same
      exact ⟨peeked, fun exhausted => by rw [same]; exact spent exhausted, honest'⟩
  | filter pass rule seen below ih =>
    obtain ⟨peeked, spent, tame, remembers, honest⟩ := honest
    have honest' := ih honest
    rw [rewind]
    rcases rewinds : below.rewind with ⟨fault | fault, left⟩ <;> rw [rewinds] at honest'
    · exact ⟨by rintro _ ⟨⟩, by rintro ⟨⟩, tame, Seen.tame_empty, honest'⟩
    · have same := @pass_rewind below fault (by rw [rewinds])
      rw [rewinds] at same
      exact ⟨peeked, fun exhausted => by rw [same]; exact spent exhausted, tame, remembers, honest'⟩

/-- Whatever happens to an honest tower leaves it honest. -/
theorem steady_honest : Steady (Honest D) where
  next _ _ _ _ honest ends := (next_honest honest ends).honest
  ahead n tower item left honest _ ends := by
    obtain ⟨honest', domain, -⟩ := next_honest honest ends
    refine honest'.withPass ?_ honest'.overBelow
    rintro _ ⟨⟩
    exact domain item rfl
  rewind _ := rewind_honest

theorem honest_filters {rules : List Rule} {below : Tower} (tame : ∀ rule ∈ rules, rule.Tame D)
    (honest : below.Honest D) : (filters rules below).Honest D := by
  induction rules generalizing below with
  | nil => exact honest
  | cons rule rest ih =>
    refine ih (fun other member => tame other (List.mem_cons_of_mem _ member)) ?_
    exact ⟨by rintro _ ⟨⟩, by rintro ⟨⟩, tame rule List.mem_cons_self, Seen.tame_empty,
      honest⟩

end Tower

end FirstSeen
