import FirstSeen.Seen
import Mathlib.Logic.Basic

/-!
# The limit on listed keys

What a distinct stage makes of elements and their keys, told apart from where it gets them. A *round* is what its supply
and its key function come to once: a fault, or an element with the contents of its key. A round is *judged* by the keys
that were seen before it: a fault is passed on, an element is handed out if its key is fresh, and dropped otherwise.

The limit shows at one place only. A key that goes to the list while that holds exactly as many keys as the limit says
*meets* the limit, and this is looked at before the key is looked for, so that a duplicate meets it too. If warnings are
not raised, meeting the limit changes nothing of what is judged; it is told once for each round that meets it, and as no
key is ever taken out of the list, no round meets it once the list holds more. If they are raised, a round that meets the
limit fails and records nothing. The list then stays as it is for the rest of the pass, and so does the lot of every
further key that goes to it; the hashed keys never notice.
-/

set_option autoImplicit false

namespace FirstSeen

/-- A limit that is a number is compared with the length of a list as that number. -/
theorem Value.equals_ofNat {limit : Value} {m : Nat} (counts : limit.integer? = some (m : Int)) (n : Nat) :
    equals (.ofNat n) limit = .ok (n == m) := by
  have compared : ((n : Int) == (m : Int)) = (n == m) := by
    by_cases same : n = m
    · subst same
      simp
    · have apart : (n : Int) ≠ m := by omega
      simp [same, apart]
  cases limit with
  | int k =>
    obtain rfl : k = (m : Int) := by simpa [integer?] using counts
    exact congrArg Except.ok compared
  | bool b =>
    have number : (if b then 1 else 0 : Int) = m := by simpa [integer?] using counts
    change Except.ok (decide (Numeral.whole (n : Int) = .whole (if b then 1 else 0))) = _
    simp only [number, Numeral.whole.injEq, ← compared]
    rfl
  | _ => simp [integer?] at counts

/-- What the supply and the key function of a stage come to once: a fault, or an element with the contents of its key. -/
abbrev Round := Except Fault (Value × Value)

/-- What becomes of a round: a fault that is raised, an element that is handed out, or one that is dropped. -/
abbrev Verdict := Except Fault (Option Value)

namespace Verdict

/-- What is told of a verdict: nothing if an element is dropped. -/
def told? : Verdict → Option (Except Fault Value)
  | .error fault => some (.error fault)
  | .ok (some v) => some (.ok v)
  | .ok none => none

/-- Whether an element is handed out, whose key was fresh. -/
def emits : Verdict → Bool
  | .ok (some _) => true
  | _ => false

end Verdict

namespace Seen

/-- Whether a key goes to the list: it cannot be looked up among the hashed ones, or not be added to them, for its
type. -/
def reachesList (seen : Seen) (key : Value) : Bool :=
  match seen.recordHashed key with
  | .error fault => fault.isType
  | .ok _ => false

/-- Recording a key without any limit: no length equals null. -/
def accept (seen : Seen) (key : Value) : Recording := seen.record .null false key

/-- Whether the key of a round goes to the list while that holds exactly so many keys. -/
def meets (m : Nat) (seen : Seen) : Round → Bool
  | .error _ => false
  | .ok (_, key) => seen.reachesList key && seen.listed.length == m

/-- What becomes of a round, and the keys seen from then on. A bar is a number of listed keys at which a key that goes to
the list is refused. -/
def judge (bar : Option Nat) (seen : Seen) : Round → Verdict × Seen
  | .error fault => (.error fault, seen)
  | .ok (element, key) =>
    if bar.any fun m => seen.meets m (.ok (element, key)) then (.error .limitReached, seen)
    else ((seen.accept key).outcome.map fun fresh => if fresh then some element else none, (seen.accept key).seen)

/-- Rounds in turn, each with the keys that were seen before it. -/
def along (bar : Option Nat) : Seen → List Round → List (Seen × Round)
  | _, [] => []
  | seen, round :: rest => (seen, round) :: along bar (seen.judge bar round).2 rest

/-- The keys that are seen after rounds. -/
def after (bar : Option Nat) : Seen → List Round → Seen
  | seen, [] => seen
  | seen, round :: rest => after bar (seen.judge bar round).2 rest

/-- What becomes of rounds in turn. -/
def verdicts (bar : Option Nat) (seen : Seen) (rounds : List Round) : List Verdict :=
  (seen.along bar rounds).map fun place => (place.1.judge bar place.2).1

/-- How many of the rounds meet a limit, where keys are recorded without one. -/
def meetings (m : Nat) (seen : Seen) (rounds : List Round) : Nat :=
  (seen.along none rounds).countP fun place => place.1.meets m place.2

variable {seen other : Seen} {limit key : Value} {m : Nat} {bar : Option Nat} {round : Round} {rounds : List Round}

/-! ## Recording with a limit and without one -/

/-- A key that is looked up and added among the hashed ones is recorded alike under any limit. -/
theorem record_hashed {raising : Bool} {fresh : Bool} {recorded : Seen}
    (looked : seen.recordHashed key = .ok (fresh, recorded)) :
    seen.record limit raising key = ⟨.ok fresh, recorded, []⟩ := by
  unfold record
  rw [looked]

/-- A key that fails for another reason than its type is recorded alike under any limit. -/
theorem record_failed {raising : Bool} {fault : Fault} (looked : seen.recordHashed key = .error fault)
    (noType : fault.isType = false) : seen.record limit raising key = ⟨.error fault, seen, []⟩ := by
  unfold record
  simp only [looked, noType, Bool.false_eq_true, if_false]

theorem record_reaching {raising : Bool} (reaches : seen.reachesList key = true) :
    seen.record limit raising key = seen.recordListed limit raising key := by
  unfold reachesList at reaches
  unfold record
  cases looked : seen.recordHashed key with
  | ok recorded => simp [looked] at reaches
  | error fault =>
    rw [looked] at reaches
    simp only [show fault.isType = true from reaches, if_true]

/-- A key that does not go to the list is recorded alike under any limit, and nothing is told. -/
theorem record_unlisted {raising : Bool} (apart : seen.reachesList key = false) :
    seen.record limit raising key = seen.accept key ∧ (seen.accept key).notices = [] := by
  unfold reachesList at apart
  cases looked : seen.recordHashed key with
  | ok recorded => exact ⟨(record_hashed looked).trans (record_hashed looked).symm, by rw [accept, record_hashed looked]⟩
  | error fault =>
    rw [looked] at apart
    have noType : fault.isType = false := apart
    exact ⟨(record_failed looked noType).trans (record_failed looked noType).symm,
      by rw [accept, record_failed looked noType]⟩

/-- A key that goes to the list, without any limit. -/
theorem accept_listed (reaches : seen.reachesList key = true) :
    (seen.accept key).outcome = (seen.findListed key).map (!·) ∧
      (seen.accept key).seen =
        if seen.findListed key matches .ok false then { seen with listed := seen.listed ++ [key] } else seen := by
  have free : seen.atLimit .null = .ok false := rfl
  rw [accept, record_reaching reaches]
  unfold recordListed
  simp only [free, Bool.false_and, Bool.false_eq_true, if_false]
  rcases found : seen.findListed key with fault | (_ | _) <;> exact ⟨rfl, rfl⟩

/-- Where warnings are not raised, a limit changes neither whether a key is fresh nor what is seen then. It is told once
if it is met. -/
theorem record_calm (counts : limit.integer? = some (m : Int)) (key : Value) :
    (seen.record limit false key).outcome = (seen.accept key).outcome ∧
      (seen.record limit false key).seen = (seen.accept key).seen ∧
      (seen.record limit false key).notices.count .limitReached =
        if seen.reachesList key && seen.listed.length == m then 1 else 0 := by
  cases reaches : seen.reachesList key with
  | false =>
    obtain ⟨same, untold⟩ : seen.record limit false key = seen.accept key ∧ _ := record_unlisted reaches
    rw [same, untold]
    exact ⟨rfl, rfl, rfl⟩
  | true =>
    obtain ⟨outcome, kept⟩ := accept_listed reaches
    have reached : seen.atLimit limit = .ok (seen.listed.length == m) := Value.equals_ofNat counts _
    rw [outcome, kept, record_reaching reaches]
    unfold recordListed
    simp only [reached, Bool.and_false, Bool.false_eq_true, if_false, Bool.true_and]
    have opening : (if seen.listed.isEmpty then [SeenNotice.listLookup] else []).count .limitReached = 0 := by
      split <;> rfl
    have told : ((if seen.listed.isEmpty then [SeenNotice.listLookup] else []) ++
        if seen.listed.length == m then [SeenNotice.limitReached] else []).count .limitReached =
          if seen.listed.length == m then 1 else 0 := by
      rw [List.count_append, opening, Nat.zero_add]
      split <;> rfl
    rcases found : seen.findListed key with fault | (_ | _) <;> exact ⟨rfl, rfl, told⟩

/-- Where warnings are raised, a key that meets the limit fails and is not recorded, and a limit changes nothing for other
keys. Nothing is told of it. -/
theorem record_raising (counts : limit.integer? = some (m : Int)) (key : Value) :
    ((seen.record limit true key).outcome, (seen.record limit true key).seen) =
        (if seen.reachesList key && seen.listed.length == m then (.error .limitReached, seen)
          else ((seen.accept key).outcome, (seen.accept key).seen)) ∧
      (seen.record limit true key).notices.count .limitReached = 0 := by
  cases reaches : seen.reachesList key with
  | false =>
    obtain ⟨same, untold⟩ : seen.record limit true key = seen.accept key ∧ _ := record_unlisted reaches
    rw [same, untold]
    exact ⟨rfl, rfl⟩
  | true =>
    obtain ⟨outcome, kept⟩ := accept_listed reaches
    have reached : seen.atLimit limit = .ok (seen.listed.length == m) := Value.equals_ofNat counts _
    have opening : (if seen.listed.isEmpty then [SeenNotice.listLookup] else []).count .limitReached = 0 := by
      split <;> rfl
    rw [outcome, kept, record_reaching reaches]
    unfold recordListed
    simp only [reached, Bool.and_true, Bool.true_and]
    cases full : seen.listed.length == m with
    | true => exact ⟨rfl, opening⟩
    | false =>
      simp only [Bool.false_eq_true, if_false, List.append_nil]
      rcases found : seen.findListed key with fault | (_ | _) <;> exact ⟨rfl, opening⟩

/-! ## What a round does to the keys that were seen -/

/-- A key that does not go to the list leaves it, and is fresh according to the hashed keys only. -/
theorem accept_unlisted_congr (same : other.hashed = seen.hashed) (apart : seen.reachesList key = false) :
    (other.accept key).outcome = (seen.accept key).outcome ∧
      (other.accept key).seen.hashed = (seen.accept key).seen.hashed ∧ (seen.accept key).seen.listed = seen.listed := by
  have looked : other.lookUp key = seen.lookUp key := by
    unfold lookUp findHashed
    rw [same]
  unfold reachesList recordHashed at apart
  unfold accept record recordHashed
  rw [looked]
  rcases found : seen.lookUp key with fault | (_ | _)
  · rw [found] at apart
    simp only [show fault.isType = false from apart, Bool.false_eq_true, if_false]
    exact ⟨trivial, same, trivial⟩
  · rw [found] at apart
    cases hashing : key.hashFault? with
    | none => exact ⟨rfl, congrArg (· ++ [key]) same, rfl⟩
    | some fault =>
      simp only [hashing] at apart
      simp only [apart, Bool.false_eq_true, if_false]
      exact ⟨trivial, same, trivial⟩
  · exact ⟨rfl, same, rfl⟩

/-- Without a limit, the list grows by one key at most, and just if a round with a key for the list is handed out. -/
theorem listed_judge (seen : Seen) (round : Round) :
    (seen.judge none round).2.listed.length = seen.listed.length ∨
      (seen.judge none round).2.listed.length = seen.listed.length + 1 ∧ seen.meets seen.listed.length round = true ∧
        (seen.judge none round).1.emits = true := by
  cases round with
  | error fault => exact .inl rfl
  | ok found =>
    obtain ⟨element, key⟩ := found
    change (seen.accept key).seen.listed.length = _ ∨ (seen.accept key).seen.listed.length = _ ∧ _ ∧
      Verdict.emits ((seen.accept key).outcome.map fun fresh => if fresh then some element else none) = true
    cases reaches : seen.reachesList key with
    | false => exact .inl (congrArg List.length (accept_unlisted_congr rfl reaches).2.2)
    | true =>
      obtain ⟨outcome, kept⟩ := accept_listed reaches
      rw [outcome, kept]
      rcases found : seen.findListed key with fault | (_ | _)
      · exact .inl rfl
      · exact .inr ⟨by simp, by simp [meets, reaches], rfl⟩
      · exact .inl rfl

/-- A round that meets the limit and is handed out makes the list longer. -/
theorem listed_judge_met (met : seen.meets m round = true) :
    (seen.judge none round).2.listed.length = if (seen.judge none round).1.emits then m + 1 else m := by
  cases round with
  | error fault => cases met
  | ok found =>
    obtain ⟨element, key⟩ := found
    obtain ⟨reaches, length⟩ : seen.reachesList key = true ∧ seen.listed.length = m := by simpa [meets] using met
    change (seen.accept key).seen.listed.length =
      if Verdict.emits ((seen.accept key).outcome.map fun fresh => if fresh then some element else none) then _ else _
    obtain ⟨outcome, kept⟩ := accept_listed reaches
    rw [outcome, kept]
    rcases found : seen.findListed key with fault | (_ | _)
    · exact length
    · simpa [Verdict.emits, Except.map] using length
    · exact length

/-- While the list holds no more keys than the limit says, a round that does not meet it leaves it so. -/
theorem listed_judge_unmet (within : seen.listed.length ≤ m) (unmet : seen.meets m round = false) :
    (seen.judge none round).2.listed.length ≤ m := by
  rcases seen.listed_judge round with same | ⟨more, here, -⟩
  · omega
  · have apart : seen.listed.length ≠ m := by
      rintro rfl
      rw [unmet] at here
      cases here
    omega

/-- A round that meets the bar is refused, and nothing is recorded. -/
theorem judge_met (met : seen.meets m round = true) : seen.judge (some m) round = (.error .limitReached, seen) := by
  cases round with
  | error fault => cases met
  | ok found => rw [judge, Option.any_some, met, if_pos rfl]

/-- What the bar leaves of a round that does not meet it. -/
theorem judge_unmet (unmet : seen.meets m round = false) : seen.judge (some m) round = seen.judge none round := by
  cases round with
  | error fault => rfl
  | ok found =>
    rw [judge, Option.any_some, unmet, judge]
    rfl

/-- Recording a key with a limit judges the round with it: by a bar if warnings are raised, and with one told else if the
limit is met. -/
theorem judge_record (counts : limit.integer? = some (m : Int)) (raising : Bool) (element key : Value) :
    seen.judge (if raising then some m else none) (.ok (element, key)) =
        ((seen.record limit raising key).outcome.map (fun fresh => if fresh then some element else none),
          (seen.record limit raising key).seen) ∧
      (raising = false → (seen.record limit raising key).notices.count .limitReached =
        if seen.meets m (.ok (element, key)) then 1 else 0) := by
  cases raising with
  | false =>
    obtain ⟨outcome, recorded, told⟩ := @record_calm seen limit m counts key
    rw [outcome, recorded, told]
    exact ⟨rfl, fun _ => rfl⟩
  | true =>
    obtain ⟨recorded, -⟩ := @record_raising seen limit m counts key
    refine ⟨?_, fun calm => by cases calm⟩
    rw [if_pos rfl]
    change _ = if seen.meets m (.ok (element, key)) then _ else _ at recorded
    cases met : seen.meets m (.ok (element, key)) with
    | true =>
      rw [met, if_pos rfl, Prod.mk.injEq] at recorded
      rw [recorded.1, recorded.2, judge_met met]
      rfl
    | false =>
      rw [met, if_neg Bool.false_ne_true, Prod.mk.injEq] at recorded
      rw [recorded.1, recorded.2, judge_unmet met]
      rfl

/-! ## Where warnings are not raised -/

theorem meetings_cons (m : Nat) (seen : Seen) (round : Round) (rest : List Round) :
    seen.meetings m (round :: rest) =
      (if seen.meets m round then 1 else 0) + (seen.judge none round).2.meetings m rest := by
  rw [meetings, along, List.countP_cons, Nat.add_comm]
  rfl

theorem meetings_one (m : Nat) (seen : Seen) (round : Round) :
    seen.meetings m [round] = if seen.meets m round then 1 else 0 :=
  seen.meetings_cons m round []

/-- Once the list holds more keys than the limit says, no round meets it. -/
theorem meetings_beyond (beyond : m < seen.listed.length) : seen.meetings m rounds = 0 := by
  induction rounds generalizing seen with
  | nil => rfl
  | cons round rest ih =>
    have unmet : seen.meets m round = false := by
      cases round with
      | error fault => rfl
      | ok found =>
        have apart : (seen.listed.length == m) = false := by simpa using Nat.ne_of_gt beyond
        rw [meets, apart, Bool.and_false]
    have further : m < (seen.judge none round).2.listed.length := by
      rcases seen.listed_judge round with same | ⟨more, -, -⟩ <;> omega
    rw [meetings_cons, unmet, ih further]
    rfl

theorem meetings_append (before rest : List Round) :
    seen.meetings m (before ++ rest) = seen.meetings m before + (seen.after none before).meetings m rest := by
  induction before generalizing seen with
  | nil => simp [meetings, along, after]
  | cons round before ih => rw [List.cons_append, meetings_cons, meetings_cons, ih, after, Nat.add_assoc]

theorem after_append (bar : Option Nat) (before rest : List Round) :
    seen.after bar (before ++ rest) = (seen.after bar before).after bar rest := by
  induction before generalizing seen with
  | nil => rfl
  | cons round before ih => exact ih

/-- The rounds with a key that goes to the list while that holds as many keys as the limit says, or more. -/
def late (m : Nat) (seen : Seen) (rounds : List Round) : List (Seen × Round) :=
  (seen.along none rounds).filter fun place => m ≤ place.1.listed.length && place.1.meets place.1.listed.length place.2

/-- Whether a round is handed out, after what was seen before it. -/
def emitsAt (place : Seen × Round) : Bool := (place.1.judge none place.2).1.emits

/-- As many rounds meet the limit as there are keys that go to the list from when it holds so many, up to the first of
them that is fresh. -/
theorem meetings_late (below : seen.listed.length ≤ m) :
    seen.meetings m rounds =
      ((seen.late m rounds).takeWhile (!emitsAt ·)).length + if (seen.late m rounds).any emitsAt then 1 else 0 := by
  induction rounds generalizing seen with
  | nil => rfl
  | cons round rest ih =>
    cases met : seen.meets m round with
    | true =>
      have length : seen.listed.length = m := by
        cases round with
        | error fault => cases met
        | ok found => simpa using (Bool.and_eq_true_iff.mp met).2
      have first : seen.late m (round :: rest) = (seen, round) :: late m (seen.judge none round).2 rest := by
        rw [late, along]
        exact List.filter_cons_of_pos (by simpa [length] using met)
      have grown := listed_judge_met met
      rw [first, meetings_cons, met, if_pos rfl, Nat.add_comm]
      cases fresh : (seen.judge none round).1.emits with
      | true =>
        rw [fresh, if_pos rfl] at grown
        have stops : emitsAt (seen, round) = true := fresh
        rw [meetings_beyond (by omega), List.takeWhile_cons_of_neg (by simp [stops]), List.any_cons, stops]
        rfl
      | false =>
        rw [fresh] at grown
        have goesOn : emitsAt (seen, round) = false := fresh
        rw [ih (Nat.le_of_eq grown), List.takeWhile_cons_of_pos (by simp [goesOn]), List.any_cons, goesOn,
          Bool.false_or, List.length_cons]
        omega
    | false =>
      have skipped : seen.late m (round :: rest) = late m (seen.judge none round).2 rest := by
        rw [late, along]
        refine List.filter_cons_of_neg ?_
        intro there
        obtain ⟨enough, here⟩ := Bool.and_eq_true_iff.mp there
        have length : seen.listed.length = m := Nat.le_antisymm below (by simpa using enough)
        rw [length, met] at here
        cases here
      rw [skipped, meetings_cons, met, if_neg Bool.false_ne_true, Nat.zero_add]
      exact ih (listed_judge_unmet below met)

/-! ## Where warnings are raised -/

end Seen

end FirstSeen
