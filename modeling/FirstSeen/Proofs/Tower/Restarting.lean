import FirstSeen.Proofs.Tower.Resetting

/-!
# Towers that can be taken back

A tower is *silent* if closing never fails: neither for the iterator that its origin holds nor for any that the origin
is going to open. If its openings repeat as well, then taking the tower back does not fail, whatever was done with it.

A tower is *rested* if its topmost sequence, unless it was started, is where it began. The sequences below may be
anywhere: they can be asked by others.
-/

set_option autoImplicit false

namespace FirstSeen

/-- The fault by which closing an iterator fails, if it does. -/
def Manner.closing? : Manner → Option Fault
  | walker closing => closing
  | lister _ => none
  | generator _ closing => closing

namespace Tape

@[simp] theorem closing?_step (tape : Tape) : tape.step.2.manner.closing? = tape.manner.closing? := by
  obtain ⟨name, script, position, manner⟩ := tape
  simp only [step]
  split
  · rfl
  · cases script position with
    | none => cases manner <;> rfl
    | some draw => cases draw <;> cases manner <;> rfl

@[simp] theorem closing?_close (tape : Tape) : tape.close.2.manner.closing? = tape.manner.closing? := by
  obtain ⟨name, script, position, manner⟩ := tape
  cases manner <;> rfl

/-- Closing an iterator does not fail if nothing says that it does. -/
theorem close_silent {tape : Tape} (silent : tape.manner.closing? = none) : tape.close.1 = none := by
  obtain ⟨name, script, position, manner⟩ := tape
  cases manner with
  | walker closing => exact silent
  | lister ended => rfl
  | generator phase closing =>
    obtain rfl : closing = none := silent
    simp [close]

end Tape

namespace Origin

/-- Whether neither what an origin holds nor what it is going to open fails when it is closed. -/
structure Silent (origin : Origin) : Prop where
  opened : ∀ n tape, origin.openings n = .ok (.own tape) → tape.manner.closing? = none
  held : ∀ tape, origin.held = some (.own tape) → tape.manner.closing? = none

theorem Silent.free {origin : Origin} (silent : origin.Silent) : Silent { origin with held := none } :=
  ⟨silent.opened, fun _ found => by cases found⟩

theorem Silent.advance {origin : Origin} {start : Start} (silent : origin.Silent)
    (own : ∀ tape, start = .own tape → tape.manner.closing? = none) : (origin.advance start).2.Silent := by
  cases start with
  | own tape =>
    refine ⟨silent.opened, fun held found => ?_⟩
    obtain rfl : tape.step.2 = held := Start.own.inj (Option.some.inj found)
    rw [Tape.closing?_step]
    exact own tape rfl
  | kept => exact ⟨silent.opened, fun _ found => by cases found⟩

theorem Silent.draw {n : Nat} {origin left : Origin} {told : Draw} (silent : origin.Silent)
    (ends : origin.draw n = some (told, left)) : left.Silent := by
  have moved : ∀ (opened : Origin) (start : Start), opened.Silent →
      (∀ tape, start = .own tape → tape.manner.closing? = none) →
      (if n = 0 then none else some (opened.advance start)) = some (told, left) → left.Silent := by
    intro opened start silent own ends
    split at ends
    · cases ends
    · have kept := silent.advance own
      rwa [Option.some.inj ends] at kept
  rw [Origin.draw] at ends
  cases held : origin.held with
  | some start =>
    rw [held] at ends
    exact moved origin start silent (fun tape own => silent.held tape (by rw [held, own])) ends
  | none =>
    have later : Silent { origin with openings := fun i => origin.openings (i + 1) } :=
      ⟨fun n => silent.opened (n + 1), silent.held⟩
    simp only [held] at ends later
    cases opening : origin.openings 0 with
    | error fault =>
      simp only [opening, Option.some.injEq, Prod.mk.injEq] at ends
      rw [← ends.2]
      exact later
    | ok start =>
      simp only [opening] at ends
      exact moved _ start later (fun tape own => silent.opened 0 tape (by rw [opening, own])) ends

theorem Silent.close {origin : Origin} (silent : origin.Silent) :
    origin.close.2.Silent ∧ (origin.held ≠ some .kept → origin.close.1 = none) := by
  rw [Origin.close]
  rcases held : origin.held with _ | ⟨tape⟩ | _
  · exact ⟨silent, fun _ => rfl⟩
  · have quiet := silent.held tape held
    refine ⟨⟨silent.opened, fun last found => ?_⟩, fun _ => Tape.close_silent quiet⟩
    obtain rfl : tape.close.2 = last := Start.own.inj (Option.some.inj found)
    rwa [Tape.closing?_close]
  · exact ⟨⟨silent.opened, fun tape found => silent.held tape (by rw [held]; exact found)⟩,
      fun own => absurd rfl own⟩

/-- Resetting an origin that is silent and repeats does not fail. -/
theorem Silent.reset {origin : Origin} (silent : origin.Silent) (started : Bool) :
    (origin.reset started).2.Silent ∧ (origin.Repeats → (origin.reset started).1 = none) := by
  rw [Origin.reset]
  split
  · rename_i refused
    refine ⟨silent, fun repeats => ?_⟩
    rw [repeats.many] at refused
    cases refused
  · split
    · obtain ⟨kept, returns⟩ := silent.close
      rcases closes : origin.close with ⟨_ | fault, closed⟩ <;> rw [closes] at kept returns
      · exact ⟨kept.free, fun _ => rfl⟩
      · refine ⟨kept, fun repeats => ?_⟩
        cases returns repeats.held
    · exact ⟨silent.free, fun _ => rfl⟩

theorem Silent.release {origin : Origin} (silent : origin.Silent) : origin.release.Silent := by
  rw [Origin.release]
  split
  · exact silent.free
  · exact silent

end Origin

namespace Tower

/-- Whether closing never fails at the bottom of a tower. -/
def Silent : Tower → Prop
  | ground _ origin => origin.Silent
  | passage _ below | filter _ _ _ below => below.Silent

@[simp] theorem silent_withPass (tower : Tower) (pass : Pass) : (tower.withPass pass).Silent ↔ tower.Silent := by
  cases tower <;> rfl

theorem Silent.settle {tower : Tower} (silent : tower.Silent) (told : Draw) :
    (Tower.settle (told, tower)).2.Silent := by
  cases told with
  | ok item => exact silent
  | error fault =>
    simp only [Tower.settle]
    split
    · cases tower with
      | ground pass origin => exact Origin.Silent.release silent
      | passage pass below | filter pass rule seen below => exact silent
    · exact silent

theorem Silent.next {n : Nat} {tower left : Tower} {told : Draw} (silent : tower.Silent)
    (ends : Tower.next n tower = some (told, left)) : left.Silent := by
  refine (run_induction (R := fun tower _ left => tower.Silent → left.Silent)
    (S := fun tower _ left => tower.Silent → left.Silent) ?_ ?_ ?_ ?_ ?_ ?_ ?_ n).1 _ _ _ ends silent
  · exact fun tower item _ silent => by simpa using silent
  · exact fun _ _ _ silent => silent
  · exact fun tower told left _ _ kept silent => (kept (by simpa [begun] using silent)).settle told
  · exact fun _ _ _ _ _ drawn silent => Origin.Silent.draw silent drawn
  · exact fun _ _ _ _ kept => kept
  · exact fun _ _ _ _ _ _ kept => kept
  · exact fun _ _ _ _ _ _ kept =>
      ⟨fun _ _ => kept, fun _ => kept, fun _ _ _ kept' silent => kept' (kept silent)⟩

/-- Taking back a silent tower keeps it silent, and does not fail if its openings repeat. -/
theorem Silent.rewind {tower : Tower} (silent : tower.Silent) :
    tower.rewind.2.Silent ∧ (tower.Repeats → tower.rewind.1 = none) := by
  induction tower with
  | ground pass origin =>
    obtain ⟨kept, returns⟩ := Origin.Silent.reset silent pass.started
    rw [Tower.rewind]
    rcases resets : origin.reset pass.started with ⟨_ | fault, left⟩ <;> rw [resets] at kept returns
    · exact ⟨kept, fun _ => rfl⟩
    · exact ⟨kept, returns⟩
  | passage pass below ih | filter pass rule seen below ih =>
    obtain ⟨kept, returns⟩ := ih silent
    rw [Tower.rewind]
    rcases rewinds : below.rewind with ⟨_ | fault, left⟩ <;> rw [rewinds] at kept returns
    · exact ⟨kept, fun _ => rfl⟩
    · exact ⟨kept, returns⟩

/-- Whether a tower can be taken back at any time, and is this one then. -/
structure Returns (start tower : Tower) : Prop where
  repeats : tower.Repeats
  silent : tower.Silent
  blank : tower.blank = start

theorem height_blank (tower : Tower) : tower.blank.height = tower.height := by
  induction tower with
  | ground pass origin => rfl
  | passage pass below ih | filter pass rule seen below ih => exact congrArg (· + 1) ih

theorem Returns.height {start tower : Tower} (returns : Returns start tower) : tower.height = start.height := by
  rw [← returns.blank, height_blank]

theorem Returns.rewind {start tower : Tower} (returns : Returns start tower) : tower.rewind = (none, start) := by
  have ends := returns.silent.rewind.2 returns.repeats
  have here := (rewind_stays returns.repeats).2 ends
  rw [Prod.ext_iff]
  exact ⟨ends, here.trans returns.blank⟩

/-- Whatever is done with a tower that can be taken back, it still can be. -/
theorem steady_returns (start : Tower) : Steady (Returns start) := by
  have next : ∀ n (tower : Tower) told left, Returns start tower → tower.next n = some (told, left) →
      Returns start left := by
    intro n tower told left returns asked
    obtain ⟨repeats, same⟩ := next_stays asked returns.repeats
    exact ⟨repeats, returns.silent.next asked, same.trans returns.blank⟩
  refine ⟨next, fun n tower item left returns _ asked => ?_, fun tower returns => ?_⟩
  · obtain ⟨repeats, silent, blank⟩ := next _ _ _ _ returns asked
    exact ⟨by simpa using repeats, by simpa using silent, by rw [blank_withPass, blank]⟩
  · obtain ⟨⟨repeats, same⟩, -⟩ := rewind_stays returns.repeats
    exact ⟨repeats, returns.silent.rewind.1, same.trans returns.blank⟩

/-- What is kept together with something else. -/
theorem Steady.and {P Q : Tower → Prop} (first : Steady P) (second : Steady Q) :
    Steady fun tower => P tower ∧ Q tower where
  next _ _ _ _ both asked := ⟨first.next _ _ _ _ both.1 asked, second.next _ _ _ _ both.2 asked⟩
  ahead _ _ _ _ both peeked asked :=
    ⟨first.ahead _ _ _ _ both.1 peeked asked, second.ahead _ _ _ _ both.2 peeked asked⟩
  rewind _ both := ⟨first.rewind _ both.1, second.rewind _ both.2⟩

/-! ## The topmost sequence -/

/-- Whether the topmost sequence of a tower is where it began unless it was started. -/
def Rested : Tower → Prop
  | ground pass origin => pass.started = false → pass = {} ∧ origin.held = none
  | passage pass _ => pass.started = false → pass = {}
  | filter pass _ seen _ => pass.started = false → pass = {} ∧ seen = .empty

theorem Rested.pass {tower : Tower} (rested : tower.Rested) (unstarted : tower.pass.started = false) :
    tower.pass = {} := by
  cases tower with
  | ground pass origin => exact (rested unstarted).1
  | passage pass below => exact rested unstarted
  | filter pass rule seen below => exact (rested unstarted).1

theorem rested_of_started {tower : Tower} (started : tower.pass.started = true) : tower.Rested := by
  cases tower with
  | ground pass origin | passage pass below | filter pass rule seen below =>
    intro unstarted
    rw [show pass.started = true from started] at unstarted
    cases unstarted

/-- A sequence at its beginning is started by the first element that it is asked for. -/
theorem Rested.started_next {n : Nat} {tower left : Tower} {told : Draw} (rested : tower.Rested)
    (asked : next n tower = some (told, left)) : left.pass.started = true := by
  obtain started | ⟨kept, busy⟩ := Tower.started_next asked
  · exact started
  · cases unstarted : tower.pass.started with
    | true => rw [kept, unstarted]
    | false =>
      rw [rested.pass unstarted] at busy
      rcases busy with peeked | ⟨exhausted, -⟩
      · exact absurd rfl peeked
      · cases exhausted

theorem Rested.rewind {tower : Tower} (rested : tower.Rested) : tower.rewind.2.Rested := by
  cases tower with
  | ground pass origin =>
    rw [Tower.rewind]
    rcases resets : origin.reset pass.started with ⟨_ | fault, left⟩
    · refine fun _ => ⟨rfl, ?_⟩
      rw [Origin.reset] at resets
      split at resets
      · cases resets
      · split at resets
        · rcases closes : origin.close with ⟨_ | fault, closed⟩ <;> rw [closes] at resets <;> cases resets
          rfl
        · cases resets
          rfl
    · intro unstarted
      obtain ⟨rfl, free⟩ := rested unstarted
      refine ⟨rfl, ?_⟩
      simp [Origin.reset, Origin.close, free] at resets
  | passage pass below =>
    rw [Tower.rewind]
    rcases below.rewind with ⟨_ | fault, left⟩
    · exact fun _ => rfl
    · exact rested
  | filter pass rule seen below =>
    rw [Tower.rewind]
    rcases below.rewind with ⟨_ | fault, left⟩
    · exact fun _ => ⟨rfl, rfl⟩
    · exact rested

/-- Whatever is asked of a sequence, it is where it began unless it was started. -/
theorem steady_rested : Steady Rested where
  next _ _ _ _ rested asked := rested_of_started (rested.started_next asked)
  ahead _ _ _ _ rested _ asked := rested_of_started (by rw [pass_withPass]; exact rested.started_next asked)
  rewind _ rested := rested.rewind

/-- Gathering elements of a sequence has started it. -/
theorem Rested.started_gather {n : Nat} {tower left : Tower} {items : List Item} {ended : Except Fault (List Item)}
    (rested : tower.Rested) (ends : gatherBy next n tower items = some (ended, left)) : left.pass.started = true := by
  induction n generalizing tower items with
  | zero => cases ends
  | succ n ih =>
    rw [gatherBy] at ends
    rcases asked : next n tower with _ | ⟨fault | item, below⟩ <;> rw [asked] at ends
    · cases ends
    · cases ends
      exact rested.started_next asked
    · exact ih (rested_of_started (rested.started_next asked)) ends

end Tower

end FirstSeen
