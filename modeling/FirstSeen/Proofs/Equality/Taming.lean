import FirstSeen.Proofs.Value.Containers
import FirstSeen.Seen

/-!
# Keys that signal no end

Hashing and comparing values fails only by what their probes raise, and for values that cannot be hashed. A value
is *tame* if none of its probes raises the signal of an end. Looking up and recording tame keys never looks like
the end of a source, whatever else it fails by.
-/

set_option autoImplicit false

namespace FirstSeen

/-- Whether a result is an answer or a fault that signals no end. -/
def NoEnd {α : Type} (result : Except Fault α) : Prop := ∀ fault, result = .error fault → fault.isEnd = false

namespace NoEnd

variable {α β : Type}

theorem ok (a : α) : NoEnd (.ok a : Except Fault α) := by rintro _ ⟨⟩

theorem error {fault : Fault} (tame : fault.isEnd = false) : NoEnd (.error fault : Except Fault α) := by
  rintro _ ⟨⟩
  exact tame

theorem bind {result : Except Fault α} {next : α → Except Fault β} (h : NoEnd result)
    (k : ∀ a, result = .ok a → NoEnd (next a)) : NoEnd (result >>= next) := by
  cases result with
  | error fault => exact error (h fault rfl)
  | ok a => exact k a rfl

/-- A test that decides how to go on. -/
theorem ite {test : Except Fault Bool} {yes no : Except Fault α} (h : NoEnd test) (k : NoEnd yes) (l : NoEnd no) :
    NoEnd (do if ← test then yes else no) := by
  refine h.bind fun answer _ => ?_
  cases answer
  · exact l
  · exact k

theorem search {test : α → Except Fault Bool} {candidates : List α} (h : ∀ a ∈ candidates, NoEnd (test a)) :
    NoEnd (Value.search test candidates) := by
  induction candidates with
  | nil => exact ok _
  | cons a rest ih => exact ite (h a (by simp)) (ok _) (ih fun b m => h b (by simp [m]))

theorem searchAll {test : α → Except Fault Bool} {candidates : List α} (h : ∀ a ∈ candidates, NoEnd (test a)) :
    NoEnd (Value.searchAll test candidates) := by
  induction candidates with
  | nil => exact ok _
  | cons a rest ih => exact ite (h a (by simp)) (ih fun b m => h b (by simp [m])) (ok _)

theorem searchFirst {test : α → Except Fault Bool} {candidates : List α} (h : ∀ a ∈ candidates, NoEnd (test a)) :
    NoEnd (Value.searchFirst test candidates) := by
  induction candidates with
  | nil => exact ok _
  | cons a rest ih => exact ite (h a (by simp)) (ok _) (ih fun b m => h b (by simp [m]))

theorem ifSameHash {x y : Value} {test : Unit → Except Fault Bool} (h : NoEnd (test ())) :
    NoEnd (Value.ifSameHash x y test) := by
  unfold Value.ifSameHash
  split
  · exact h
  · exact ok _

theorem unlessIdentical {x y : Value} {test : Unit → Except Fault Bool} (h : NoEnd (test ())) :
    NoEnd (Value.unlessIdentical x y test) := by
  unfold Value.unlessIdentical
  split
  · exact ok _
  · exact h

end NoEnd

namespace Value

mutual

/-- Whether no probe in a value signals an end when it is hashed or compared. -/
def Tame : Value → Prop
  | probe p =>
    (∀ kind, p.hash = .fails kind → kind.isEnd = false) ∧ ∀ kind, p.equality = .fails kind → kind.isEnd = false
  | list items | tuple items | set items | frozenset items => TameItems items
  | dict entries => TameEntries entries
  | _ => True

/-- Whether all of the values are tame. -/
def TameItems : List Value → Prop
  | [] => True
  | v :: rest => Tame v ∧ TameItems rest

/-- Whether all of the entries are tame. -/
def TameEntries : List (Value × Value) → Prop
  | [] => True
  | (k, v) :: rest => Tame k ∧ Tame v ∧ TameEntries rest

end

theorem tameItems_iff {items : List Value} : TameItems items ↔ ∀ v ∈ items, Tame v := by
  induction items with
  | nil => simp [TameItems]
  | cons v rest ih => simp [TameItems, ih]

theorem tameEntries_iff {entries : List (Value × Value)} :
    TameEntries entries ↔ ∀ e ∈ entries, Tame e.1 ∧ Tame e.2 := by
  induction entries with
  | nil => simp [TameEntries]
  | cons e rest ih => simp [TameEntries, ih, and_assoc]

theorem Tame.members {x : Value} {xs : List Value} (h : Tame x) (members : x.members? = some xs) :
    ∀ v ∈ xs, Tame v := by
  cases x with
  | set ys | frozenset ys =>
    cases members
    exact tameItems_iff.mp h
  | _ => cases members

/-! ## Hashing -/

/-- A tame value that cannot be hashed says so by another fault than an end. -/
theorem isEnd_hashFault? {v : Value} (tame : Tame v) {fault : Fault} (fails : v.hashFault? = some fault) :
    fault.isEnd = false := by
  induction v using containerInduction generalizing fault with
  | leaf v leaf =>
    cases v with
    | probe p =>
      rw [hashFault?] at fails
      split at fails <;> cases fails
      exact tame.1 _ ‹_›
    | bytearray content =>
      cases fails
      rfl
    | list | tuple | dict | set | frozenset => cases leaf
    | _ => cases fails
  | tuple items ih =>
    have parts := tameItems_iff.mp tame
    rw [hashFault?] at fails
    clear tame
    induction items with
    | nil => cases fails
    | cons item rest ih' =>
      rw [itemsHashFault?] at fails
      split at fails
      · cases fails
        exact ih item (by simp) (parts item (by simp)) ‹_›
      · exact ih' (fun v m => ih v (by simp [m])) fails fun v m => parts v (by simp [m])
  | list items ih | dict entries ih | set members ih =>
    cases fails
    rfl
  | frozenset members ih => cases fails

/-! ## Comparing -/

theorem noEnd_equalOthers {flipped : Bool} {x y : Value} (tame : Tame x) (tame' : Tame y) :
    NoEnd (equalOthers flipped x y) := by
  have probes : ∀ x y : Value, Tame x → Tame y → NoEnd (equalProbes x y) := by
    intro x y tame tame'
    unfold equalProbes
    split
    · split
      · exact .error (tame.2 _ ‹_›)
      · exact .ok _
    · split
      · exact .error (tame.2 _ ‹_›)
      · exact .ok _
    · split
      · exact .error (tame'.2 _ ‹_›)
      · exact .ok _
    · exact .ok _
  unfold equalOthers
  split
  · split
    · exact probes y x tame' tame
    · exact probes x y tame tame'
  · exact .ok _

section Parts

variable {flipped : Bool}

theorem noEnd_equalItems {xs ys : List Value} (h : ∀ x ∈ xs, ∀ y ∈ ys, NoEnd (equal flipped x y)) :
    NoEnd (equalItems flipped xs ys) := by
  induction xs generalizing ys with
  | nil => exact .ok _
  | cons x xs ih =>
    cases ys with
    | nil => exact .ok _
    | cons y ys =>
      rw [equalItems]
      exact .ite (.unlessIdentical (h x (by simp) y (by simp)))
        (ih fun v m w n => h v (by simp [m]) w (by simp [n])) (.ok _)

theorem noEnd_membersIn {xs ys : List Value} (h : ∀ x ∈ xs, ∀ y ∈ ys, NoEnd (equal true x y)) :
    NoEnd (membersIn xs ys) := by
  induction xs with
  | nil => exact .ok _
  | cons x xs ih =>
    rw [membersIn]
    exact .ite (.search fun y there => .ifSameHash (.unlessIdentical (h x (by simp) y there)))
      (ih fun v m => h v (by simp [m])) (.ok _)

theorem noEnd_hasMember {xs : List Value} {y : Value} (h : ∀ x ∈ xs, NoEnd (equal false x y)) :
    NoEnd (hasMember xs y) := by
  induction xs with
  | nil => exact .ok _
  | cons x xs ih =>
    rw [hasMember]
    exact .ite (.ifSameHash (.unlessIdentical (h x (by simp)))) (.ok _) (ih fun v m => h v (by simp [m]))

theorem mem_of_searchFirst {α : Type} {test : α → Except Fault Bool} {candidates : List α} {a : α}
    (ends : searchFirst test candidates = .ok (some a)) : a ∈ candidates := by
  induction candidates with
  | nil => cases ends
  | cons b rest ih =>
    rw [searchFirst] at ends
    rcases tested : test b with _ | _ | _ <;> rw [tested] at ends
    · cases ends
    · exact List.mem_cons_of_mem _ (ih ends)
    · cases ends
      exact List.mem_cons_self

theorem noEnd_entriesIn {xs ys : List (Value × Value)}
    (h : ∀ d ∈ xs, ∀ e ∈ ys, NoEnd (equal true d.1 e.1) ∧ NoEnd (equal true d.2 e.2)) : NoEnd (entriesIn xs ys) := by
  induction xs with
  | nil => exact .ok _
  | cons d xs ih =>
    rw [entriesIn]
    refine .bind (.searchFirst fun e there => .ifSameHash (.unlessIdentical (h d (by simp) e there).1))
      fun found ends => ?_
    cases found with
    | none => exact .ok _
    | some e =>
      have there := mem_of_searchFirst ends
      exact .ite (.unlessIdentical (h d (by simp) e there).2) (ih fun v m => h v (by simp [m])) (.ok _)

theorem noEnd_hasEntry {xs : List (Value × Value)} {e : Value × Value}
    (h : ∀ d ∈ xs, NoEnd (equal false d.1 e.1) ∧ NoEnd (equal false d.2 e.2)) : NoEnd (hasEntry xs e) := by
  induction xs with
  | nil => exact .ok _
  | cons d xs ih =>
    rw [hasEntry]
    exact .ite (.ifSameHash (.unlessIdentical (h d (by simp)).1)) (.unlessIdentical (h d (by simp)).2)
      (ih fun v m => h v (by simp [m]))

end Parts

/-- Comparing tame values, in either direction, never signals an end. -/
theorem noEnd_equal {flipped : Bool} {x y : Value} (tame : Tame x) (tame' : Tame y) : NoEnd (equal flipped x y) := by
  induction x using containerInduction generalizing y flipped with
  | leaf x leaf =>
    cases x with
    | list | tuple | dict | set | frozenset => cases leaf
    | _ => exact noEnd_equalOthers tame tame'
  | list xs ih =>
    rw [equal.eq_def]
    simp only
    split
    · split
      · exact noEnd_equalItems fun x m y n => ih x m (tameItems_iff.mp tame x m) (tameItems_iff.mp tame' y n)
      · exact .ok _
    · exact noEnd_equalOthers tame tame'
  | tuple xs ih =>
    rw [equal.eq_def]
    simp only
    split
    · exact noEnd_equalItems fun x m y n => ih x m (tameItems_iff.mp tame x m) (tameItems_iff.mp tame' y n)
    · exact noEnd_equalOthers tame tame'
  | set xs ih | frozenset xs ih =>
    rw [equal.eq_def]
    simp only
    split
    · rename_i ys members
      have both : ∀ {flipped}, ∀ x ∈ xs, ∀ y ∈ ys, NoEnd (equal flipped x y) := fun x m y n =>
        ih x m (tameItems_iff.mp tame x m) (tame'.members members y n)
      split
      · split
        · exact .searchAll fun y n => noEnd_hasMember fun x m => both x m y n
        · exact noEnd_membersIn both
      · exact .ok _
    · exact noEnd_equalOthers tame tame'
  | dict xs ih =>
    rw [equal.eq_def]
    simp only
    split
    · rename_i ys
      have both : ∀ {flipped}, ∀ d ∈ xs, ∀ e ∈ ys, NoEnd (equal flipped d.1 e.1) ∧ NoEnd (equal flipped d.2 e.2) :=
        fun d m e n => ⟨(ih d m).1 (tameEntries_iff.mp tame d m).1 (tameEntries_iff.mp tame' e n).1,
          (ih d m).2 (tameEntries_iff.mp tame d m).2 (tameEntries_iff.mp tame' e n).2⟩
      split
      · split
        · exact .searchAll fun e n => noEnd_hasEntry fun d m => both d m e n
        · exact noEnd_entriesIn both
      · exact .ok _
    · exact noEnd_equalOthers tame tame'

theorem noEnd_matchesStored {stored sought : Value} (tame : Tame stored) (tame' : Tame sought) :
    NoEnd (matchesStored stored sought) :=
  @NoEnd.unlessIdentical stored sought (fun _ => equal false stored sought) (noEnd_equal tame tame')

end Value

/-! ## Recording -/

namespace Seen

/-- Whether all keys that were seen are tame. -/
structure Tame (seen : Seen) : Prop where
  hashed : ∀ key ∈ seen.hashed, key.Tame
  listed : ∀ key ∈ seen.listed, key.Tame

variable {seen : Seen} {key limit : Value} {raising : Bool}

theorem tame_empty : Seen.empty.Tame := ⟨by rintro _ ⟨⟩, by rintro _ ⟨⟩⟩

theorem noEnd_findHashed (tame : seen.Tame) (tame' : key.Tame) : NoEnd (seen.findHashed key) :=
  .search fun stored there => .ifSameHash (Value.noEnd_matchesStored (tame.hashed stored there) tame')

theorem noEnd_lookUp (tame : seen.Tame) (tame' : key.Tame) : NoEnd (seen.lookUp key) := by
  unfold lookUp
  split
  · exact noEnd_findHashed tame (show Value.Tame (.frozenset _) from tame')
  · split
    · rename_i fails
      exact .error (Value.isEnd_hashFault? tame' fails)
    · exact noEnd_findHashed tame tame'

theorem noEnd_recordHashed (tame : seen.Tame) (tame' : key.Tame) :
    NoEnd (seen.recordHashed key) ∧ ∀ fresh after, seen.recordHashed key = .ok (fresh, after) → after.Tame := by
  have looked := noEnd_lookUp tame tame'
  rw [recordHashed]
  split
  · rename_i fault found
    exact ⟨.error (looked fault found), by rintro _ _ ⟨⟩⟩
  · exact ⟨.ok _, by rintro _ _ ⟨⟩; exact tame⟩
  · split
    · rename_i fails
      exact ⟨.error (Value.isEnd_hashFault? tame' fails), by rintro _ _ ⟨⟩⟩
    · refine ⟨.ok _, ?_⟩
      rintro _ _ ⟨⟩
      refine ⟨fun stored there => ?_, tame.listed⟩
      rcases List.mem_append.mp there with there | there
      · exact tame.hashed stored there
      · rwa [List.mem_singleton.mp there]

theorem noEnd_recordListed (tame : seen.Tame) (tame' : key.Tame) (tame'' : limit.Tame) :
    NoEnd (seen.recordListed limit raising key).outcome ∧ (seen.recordListed limit raising key).seen.Tame := by
  have full : NoEnd (seen.atLimit limit) :=
    Value.noEnd_equal (show Value.Tame (.int seen.listed.length) from trivial) tame''
  have found : NoEnd (seen.findListed key) :=
    .search fun stored there => Value.noEnd_matchesStored (tame.listed stored there) tame'
  simp only [recordListed]
  split
  · rename_i fault fails
    exact ⟨.error (full fault fails), tame⟩
  · split
    · exact ⟨.error rfl, tame⟩
    · split
      · rename_i fault fails
        exact ⟨.error (found fault fails), tame⟩
      · exact ⟨.ok _, tame⟩
      · refine ⟨.ok _, tame.hashed, fun stored there => ?_⟩
        rcases List.mem_append.mp there with there | there
        · exact tame.listed stored there
        · rwa [List.mem_singleton.mp there]

/-- Recording a tame key among tame ones never signals an end, and leaves tame ones. -/
theorem record_tame (tame : seen.Tame) (tame' : key.Tame) (tame'' : limit.Tame) :
    NoEnd (seen.record limit raising key).outcome ∧ (seen.record limit raising key).seen.Tame := by
  obtain ⟨quiet, after⟩ := noEnd_recordHashed tame tame'
  rw [record]
  split
  · rename_i fresh left ends
    exact ⟨.ok _, after fresh left ends⟩
  · rename_i fault fails
    split
    · exact noEnd_recordListed tame tame' tame''
    · exact ⟨.error (quiet fault fails), tame⟩

end Seen

end FirstSeen
