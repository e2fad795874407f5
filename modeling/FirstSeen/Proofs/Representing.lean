import FirstSeen.Proofs.Distinctness

/-!
# The keys that two collections stand for

A distinct stage keeps the keys of the elements that it hands out in two collections. Whatever the keys are, each fresh one
is kept once: among the hashed keys if hashing it succeeds, and in the list if hashing it, or looking it up, fails with a
type. So the members of both collections together are the keys that were recorded.

Of keys without probes more can be said. The collections are the keys on either side, in the order in which they came, no
two members of one collection are the same or equal, and no set was recorded after a frozen set equal to it.
-/

set_option autoImplicit false

namespace FirstSeen

namespace Value

variable {x y : Value}

/-- Whether two values are neither the same object nor equal. -/
structure Differ (x y : Value) : Prop where
  apart : identical x y = false
  unequal : equals x y = .ok false
  unequal' : equals y x = .ok false

/-- Regular values that are not alike differ. -/
theorem differ_of_not_alike (regular : Regular x) (regular' : Regular y) (unlike : ¬ Alike x y) : Differ x y := by
  refine ⟨?_, equals_of_not_alike regular regular' unlike, equals_of_not_alike regular' regular fun alike => unlike alike.symm⟩
  have decides : Decides (same false x y) (Alike x y) := decides_same regular regular'
  obtain ⟨answer, found, iff⟩ := decides
  refine Bool.eq_false_iff.mpr fun one => unlike (iff.mp ?_)
  rw [same, unlessIdentical, if_pos one] at found
  cases found
  rfl

end Value

namespace Seen

variable {seen after : Seen} {key : Value} {keys : List Value}

/-! ## One key -/

/-- Whether a key was fresh and is recorded, whatever the limit. -/
def Adds (seen : Seen) (key : Value) (after : Seen) : Prop :=
  ∃ limit raising, (seen.record limit raising key).outcome = .ok true ∧ (seen.record limit raising key).seen = after

/-- A fresh key is kept among the hashed ones, or else in the list. -/
theorem Adds.cases (adds : seen.Adds key after) :
    (seen.lookUp key = .ok false ∧ key.hashFault? = none ∧ after = { seen with hashed := seen.hashed ++ [key] }) ∨
      ∃ fault, seen.recordHashed key = .error fault ∧ fault.isType = true ∧ seen.findListed key = .ok false ∧
        after = { seen with listed := seen.listed ++ [key] } := by
  obtain ⟨limit, raising, fresh, rfl⟩ := adds
  unfold record at fresh ⊢
  cases looked : seen.recordHashed key with
  | ok recorded =>
    obtain ⟨_, kept⟩ := recorded
    simp only [looked, Except.ok.injEq] at fresh ⊢
    subst fresh
    -- Only a key that was not found, and can be hashed, is fresh among the hashed ones.
    unfold recordHashed at looked
    split at looked <;> try cases looked
    rename_i missed
    cases hashed : key.hashFault? with
    | some fault =>
      rw [hashed] at looked
      cases looked
    | none =>
      rw [hashed] at looked
      cases looked
      exact .inl ⟨missed, rfl, rfl⟩
  | error fault =>
    simp only [looked] at fresh ⊢
    cases type : fault.isType with
    | false =>
      rw [type] at fresh
      cases fresh
    | true =>
      simp only [type, if_true] at fresh ⊢
      refine .inr ⟨fault, rfl, type, ?_⟩
      unfold recordListed at fresh ⊢
      cases full : seen.atLimit limit with
      | error failed =>
        rw [full] at fresh
        cases fresh
      | ok reached =>
        simp only [full] at fresh ⊢
        split at fresh
        · cases fresh
        · rename_i unraised
          rw [if_neg unraised]
          rcases found : seen.findListed key with failed | _ | _ <;> rw [found] at fresh <;> cases fresh
          exact ⟨rfl, rfl⟩

/-! ## Keys in turn -/

/-- What was seen once these keys were recorded in turn, each of them fresh. -/
inductive Recorded : Seen → List Value → Prop
  | nil : Recorded .empty []
  | snoc {seen after : Seen} {keys : List Value} {key : Value} (earlier : Recorded seen keys) (adds : seen.Adds key after) :
      Recorded after (keys ++ [key])

/-- Whether two collections stand for keys that came in this order: they are those that can be hashed and those that cannot,
no two members of one collection are the same or equal, and no frozen set came before a set that is equal to it. -/
structure Represents (seen : Seen) (keys : List Value) : Prop where
  hashed : seen.hashed = keys.filter Value.isHashable
  listed : seen.listed = keys.filter fun key => !key.isHashable
  hashedDiffer : seen.hashed.Pairwise Value.Differ
  listedDiffer : seen.listed.Pairwise Value.Differ
  setsDiffer : keys.Pairwise fun earlier later => earlier.isFrozenset → later.isSet → earlier.Differ later

/-- A key that differs from the members on its side, and from earlier frozen sets if it is a set, is one more that two
collections stand for. -/
theorem Represents.more (represents : seen.Represents keys)
    (sides : after = if key.isHashable then { seen with hashed := seen.hashed ++ [key] }
      else { seen with listed := seen.listed ++ [key] })
    (hashed : key.isHashable = true → ∀ v ∈ seen.hashed, v.Differ key)
    (listed : key.isHashable = false → ∀ v ∈ seen.listed, v.Differ key)
    (sets : key.isSet → ∀ v ∈ seen.hashed, v.Differ key) : after.Represents (keys ++ [key]) := by
  have frozen : ∀ v ∈ keys, v.isFrozenset → key.isSet → v.Differ key := by
    intro v member frozen set
    refine sets set v ?_
    rw [represents.hashed, List.mem_filter]
    exact ⟨member, by cases v <;> simp_all [Value.isFrozenset, Value.isHashable, Value.hashFault?]⟩
  have pairwise : (keys ++ [key]).Pairwise fun earlier later => earlier.isFrozenset → later.isSet → earlier.Differ later :=
    List.pairwise_append.mpr ⟨represents.setsDiffer, List.pairwise_singleton .., by simpa using frozen⟩
  cases side : key.isHashable with
  | true =>
    simp only [side, if_true] at sides
    subst sides
    refine ⟨?_, ?_, ?_, represents.listedDiffer, pairwise⟩
    · rw [List.filter_append, ← represents.hashed, List.filter_cons_of_pos side, List.filter_nil]
    · rw [List.filter_append, ← represents.listed, List.filter_cons_of_neg (by simp [side]), List.filter_nil, List.append_nil]
    · exact List.pairwise_append.mpr ⟨represents.hashedDiffer, List.pairwise_singleton .., by simpa using hashed side⟩
  | false =>
    simp only [side, Bool.false_eq_true, if_false] at sides
    subst sides
    refine ⟨?_, ?_, represents.hashedDiffer, ?_, pairwise⟩
    · rw [List.filter_append, ← represents.hashed, List.filter_cons_of_neg (by simp [side]), List.filter_nil, List.append_nil]
    · rw [List.filter_append, ← represents.listed, List.filter_cons_of_pos (by simp [side]), List.filter_nil]
    · exact List.pairwise_append.mpr ⟨represents.listedDiffer, List.pairwise_singleton .., by simpa using listed side⟩

/-- A look-up that finds nothing tells that the key differs from what was looked through. -/
theorem differ_of_decides {result : Except Fault Bool} {members : List Value} (regular : ∀ v ∈ members, v.Regular)
    (regular' : key.Regular) (decides : Value.Decides result (∃ w ∈ members, Value.Alike w key)) (missed : result = .ok false) :
    ∀ v ∈ members, v.Differ key := by
  obtain ⟨answer, found, iff⟩ := decides
  rw [missed] at found
  cases found
  exact fun v member => Value.differ_of_not_alike (regular v member) regular' fun alike =>
    Bool.false_ne_true (iff.mpr ⟨v, member, alike⟩)

/-- Of regular keys that were recorded in turn the collections are those on either side, without repetition. -/
theorem Recorded.represents (recorded : Recorded seen keys) (regular : ∀ key ∈ keys, key.Regular) : seen.Represents keys := by
  induction recorded with
  | nil => exact ⟨rfl, rfl, .nil, .nil, .nil⟩
  | @snoc seen after keys key earlier adds ih =>
    have regular' : key.Regular := regular key (by simp)
    have before : ∀ v ∈ keys, v.Regular := fun v member => regular v (List.mem_append_left _ member)
    have represents := ih before
    have inHashed : ∀ v ∈ seen.hashed, v.Regular ∧ v.isHashable := by
      intro v member
      rw [represents.hashed, List.mem_filter] at member
      exact ⟨before v member.1, member.2⟩
    have inListed : ∀ v ∈ seen.listed, v.Regular := by
      intro v member
      rw [represents.listed, List.mem_filter] at member
      exact before v member.1
    have regularHashed : ∀ v ∈ seen.hashed, v.Regular := fun v member => (inHashed v member).1
    have hashable : ∀ v ∈ seen.hashed, v.isHashable := fun v member => (inHashed v member).2
    rcases adds.cases with ⟨missed, noFault, rfl⟩ | ⟨fault, failed, -, missed, rfl⟩
    · have side : key.isHashable := by simp [Value.isHashable, noFault]
      rw [lookUp_of_isHashable side] at missed
      have decides := decides_findHashed key regularHashed hashable regular' side
      exact represents.more (by rw [if_pos side]) (fun _ => differ_of_decides regularHashed regular' decides missed)
        (fun other => by rw [side] at other; cases other) fun set => absurd side (not_isHashable_of_isSet set)
    · -- The look-up among the hashed keys does not fail for a key that can be hashed.
      have side : key.isHashable = false := by
        refine Bool.eq_false_iff.mpr fun side => ?_
        obtain ⟨answer, found, -⟩ := decides_findHashed key regularHashed hashable regular' side
        have noFault : key.hashFault? = none := by simpa [Value.isHashable] using side
        rw [recordHashed, lookUp_of_isHashable side, found, noFault] at failed
        cases answer <;> cases failed
      have decides := decides_findListed key inListed regular'
      refine represents.more (by rw [side]; rfl) (fun other => by rw [side] at other; cases other)
        (fun _ => differ_of_decides inListed regular' decides missed) fun set => ?_
      have unfound : seen.lookUp key = .ok false := by
        obtain ⟨answer, found, -⟩ := decides_lookUp_set regularHashed hashable regular' set
        cases answer with
        | true =>
          rw [recordHashed, found] at failed
          cases failed
        | false => exact found
      exact differ_of_decides regularHashed regular' (decides_lookUp_set regularHashed hashable regular' set) unfound

end Seen

end FirstSeen
