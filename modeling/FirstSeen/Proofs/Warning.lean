import FirstSeen.Proofs.Requesting

/-!
# Warnings of the limit

What the limit on listed keys comes to in a pass of a distinct stage. A pass begins when the stage is made, and whenever
it was taken back to its beginning. What the stage then asks of its supply and its key function does not depend on it, and
neither do the elements and keys that come of that, round after round.

If warnings are not raised, the limit changes nothing of what the stage replies. It is told once for each key that goes to
the list while that holds exactly as many keys as the limit says, so never again once there are more. If they are raised,
the list never outgrows the limit; from when it is full, each further key for the list fails with the warning and is
not recorded, and what becomes of the other keys is the same.

So there is no warning where the list is filled and no key for it comes then, and more than one where duplicates come
before the next fresh key.
-/

set_option autoImplicit false

namespace FirstSeen

namespace Store

/-- Whether a pass of a stage begins: nothing was seen, no element waits, and the end was not met. The limit is a number,
and what the stage draws on does not lead back to it. -/
structure BeginsPass (store : Store) (stage supply : SequenceId) (key limit : Value) (m : Nat) : Prop where
  body : (store.sequence stage).body = .distinct supply key limit .empty
  unawaited : (store.sequence stage).Unawaited
  unended : (store.sequence stage).exhausted = false
  apart : store.Apart stage supply key
  counts : (store.plain limit).integer? = some (m : Int)

/-- Whether no object refers to a sequence. -/
structure Unreferred (store : Store) (target : SequenceId) : Prop where
  sequence : ∀ id, (store.sequence id).Avoids (· = .sequence target)
  cursor : ∀ id, (store.cursor id).Avoids (· = .sequence target)
  datum : ∀ id, (store.datum id).Avoids (· = .sequence target)
  list : ∀ id, ∀ v ∈ store.list id, v.Avoids (· = .sequence target)
  source : ∀ id, (store.source id).Avoids (· = .sequence target)
  key : ∀ id, (store.key id).Avoids (· = .sequence target)
  step : ∀ id, (store.step id).Avoids (· = .sequence target)

end Store

namespace Calls

open Run Store

variable {store : Store} {stage supply : SequenceId} {key limit : Value} {m : Nat}

/-- A stage that is not asked in its own store stands beside that. -/
theorem minds_self {hidden : Ref → Prop} {seen : Seen} (hides : store.Hides hidden)
    (body : (store.sequence stage).body = .distinct supply key limit seen)
    (counts : (store.plain limit).integer? = some (m : Int)) :
    Minds hidden stage supply key limit (store.sequence stage).multiValue m (if store.raising then some m else none) store
      store seen :=
  ⟨hides, hides, beside_refl store, body, rfl, counts, rfl⟩

/-- A stage that is added to a store in which nothing refers to it yet begins its first pass. -/
theorem beginsPass_push {multi : Bool} (unreferred : store.Unreferred ⟨store.sequences.size⟩)
    (there : supply.index < store.sequences.size) (avoids : key.Avoids (· = .sequence ⟨store.sequences.size⟩))
    (counts : (store.plain limit).integer? = some (m : Int)) :
    ((newSequence { body := .distinct supply key limit .empty, multiValue := multi }).from? store).2.BeginsPass
      ⟨store.sequences.size⟩ supply key limit m := by
  rw [from?_newSequence]
  let added : SequenceState := { body := .distinct supply key limit .empty, multiValue := multi }
  have state : ∀ id : SequenceId, ({ store with sequences := store.sequences.push added } : Store).sequence id =
      if id.index = store.sequences.size then added else store.sequence id :=
    fun id => getD_push store.sequences added default id.index
  have here : ({ store with sequences := store.sequences.push added } : Store).sequence ⟨store.sequences.size⟩ = added := by
    rw [state, if_pos rfl]
  have plain : ({ store with sequences := store.sequences.push added } : Store).plain limit = store.plain limit := by
    cases limit with
    | object ref => cases ref <;> rfl
    | _ => rfl
  refine ⟨by rw [here], by rw [here]; rfl, by rw [here],
    ⟨(· = .sequence ⟨store.sequences.size⟩), ?_, rfl, ?_, avoids⟩, by rw [plain, counts]⟩
  · refine ⟨fun id free => ?_, fun id _ => unreferred.cursor id, fun id _ => unreferred.datum id,
      fun id _ => unreferred.list id, fun id _ => unreferred.source id, fun id _ => unreferred.key id,
      fun id _ => unreferred.step id, ?_, nofun, nofun, nofun⟩
    · have apart : id.index ≠ store.sequences.size := by
        rintro same
        exact free (by cases id; simp_all)
      rw [state, if_neg apart]
      exact unreferred.sequence id
    · rintro id same
      cases same
      simp
  · intro same
    cases same
    exact Nat.lt_irrefl _ there

/-- A stage that was taken back to its beginning begins another pass. -/
theorem beginsPass_rewind {seen : Seen} {n : Nat} {after : Store}
    (body : (store.sequence stage).body = .distinct supply key limit seen) (apart : store.Apart stage supply key)
    (counts : (store.plain limit).integer? = some (m : Int))
    (rewound : ((calls n).rewind stage).from? store = (.ok (), after)) :
    after.BeginsPass stage supply key limit m := by
  obtain ⟨hidden, hides, inside, outside, avoids⟩ := apart
  cases n with
  | zero => cases rewound
  | succ n =>
    obtain ⟨left, ends, -, begun⟩ := (minds_self hides body counts).rewind inside outside n
    rw [ends] at rewound
    obtain ⟨outcome, rfl⟩ := Prod.mk.inj rewound
    obtain ⟨minds, state⟩ := begun outcome
    refine ⟨minds.body, ?_, ?_, ⟨hidden, minds.hides, inside, outside, avoids⟩, minds.counts⟩
    · rw [SequenceState.Unawaited, state]
    · rw [state]

/-! ## A pass -/

/-- In a pass, come to its end or not, if warnings are not raised, as many are issued as there are keys that go to the list
from when it holds as many keys as the limit says, up to the first of them that is fresh: none if no such key comes, one if
the first of them is fresh, and otherwise one more for each that comes before a fresh one. -/
theorem warnings_until_fresh (begins : store.BeginsPass stage supply key limit m) (calm : store.raising = false) {n many : Nat}
    (onePass : OnePass ((calls (n + 1)).nexts stage many store).1) :
    ∃ found left, (calls n).GoesThrough supply key (store.sequence stage).multiValue store found left ∧
      ComesTo none .empty found ((calls (n + 1)).nexts stage many store).1 ∧
      ((calls (n + 1)).nexts stage many store).2.warnings stage = store.warnings stage +
        (((Seen.empty.late m found).takeWhile (!Seen.emitsAt ·)).length +
          if (Seen.empty.late m found).any Seen.emitsAt then 1 else 0) := by
  obtain ⟨hidden, hides, inside, outside, avoids⟩ := begins.apart
  have minds := minds_self hides begins.body begins.counts
  rw [calm] at minds
  obtain ⟨found, left, goes, replies, warned, kept⟩ :=
    minds.nexts inside outside avoids begins.unawaited begins.unended onePass
  have below : Seen.empty.listed.length ≤ m := Nat.zero_le m
  refine ⟨found, left, goes, replies, ?_⟩
  rw [warned rfl, Seen.meetings_late below]

/-- A stage over three equal lists, with a limit of one. -/
def repeated : Store where
  sequences := #[{ body := .iterable (.object (.list ⟨0⟩)) none },
    { body := .distinct ⟨0⟩ .null (.int 1) .empty }]
  lists := #[[.object (.list ⟨1⟩), .object (.list ⟨2⟩), .object (.list ⟨3⟩)], [.int 1], [.int 1], [.int 1]]

/-- Nothing in this store refers to the stage. -/
theorem beginsPass_repeated : repeated.BeginsPass ⟨1⟩ ⟨0⟩ .null (.int 1) 1 := by
  refine ⟨rfl, rfl, rfl, ⟨(· = .sequence ⟨1⟩), hides_of_each ?_ ?_ ?_ ?_ ?_ ?_ ?_ ?_ ?_ ?_ ?_, rfl, by simp,
    Value.avoids_of_refs_nil rfl⟩, rfl⟩
  · rintro (_ | _ | i) there free
    · exact ⟨⟨Value.avoids_object.mpr (by simp), nofun⟩, nofun⟩
    · exact absurd rfl free
    · exact absurd there (by simp [repeated])
  · rintro i there
    exact absurd there (Nat.not_lt_zero i)
  · rintro i there
    exact absurd there (Nat.not_lt_zero i)
  · rintro (_ | _ | _ | _ | i) there - v member
    · simp only [repeated, List.getElem_toArray, List.getElem_cons_zero, List.mem_cons, List.not_mem_nil, or_false] at member
      rcases member with rfl | rfl | rfl <;> exact Value.avoids_object.mpr (by simp)
    · obtain rfl : v = .int 1 := List.mem_singleton.mp member
      exact Value.avoids_of_refs_nil rfl
    · obtain rfl : v = .int 1 := List.mem_singleton.mp member
      exact Value.avoids_of_refs_nil rfl
    · obtain rfl : v = .int 1 := List.mem_singleton.mp member
      exact Value.avoids_of_refs_nil rfl
    · exact absurd there (by simp [repeated])
  · rintro i there
    exact absurd there (Nat.not_lt_zero i)
  · rintro i there
    exact absurd there (Nat.not_lt_zero i)
  · rintro i there
    exact absurd there (Nat.not_lt_zero i)
  · rintro id known
    cases known
    exact Nat.one_lt_two
  all_goals
    rintro id known
    cases known

/-- The pass comes to its end, after rounds that issue warnings as told. -/
theorem warnings_until_fresh_repeated :
    ((calls 12).nexts ⟨1⟩ 2 repeated).1.any metEnd = true ∧ ∃ found left,
      (calls 11).GoesThrough ⟨0⟩ .null (repeated.sequence ⟨1⟩).multiValue repeated found left ∧
      ComesTo none .empty found ((calls 12).nexts ⟨1⟩ 2 repeated).1 ∧
      ((calls 12).nexts ⟨1⟩ 2 repeated).2.warnings ⟨1⟩ = repeated.warnings ⟨1⟩ +
        (((Seen.empty.late 1 found).takeWhile (!Seen.emitsAt ·)).length +
          if (Seen.empty.late 1 found).any Seen.emitsAt then 1 else 0) :=
  ⟨by decide +kernel, warnings_until_fresh beginsPass_repeated rfl (by decide +kernel)⟩

/-- The list of keys reaches the limit with the first of them. The two duplicates issue a warning each. -/
theorem duplicates_warn_again :
    repeated.raising = false ∧ OnePass ((calls 12).nexts ⟨1⟩ 2 repeated).1 ∧
      ((calls 12).nexts ⟨1⟩ 2 repeated).1.any metEnd = true ∧
      (((calls 12).nexts ⟨1⟩ 1 repeated).2.seenBy ⟨1⟩).listed.length = 1 ∧
      ((calls 12).nexts ⟨1⟩ 1 repeated).2.warnings ⟨1⟩ = 0 ∧
      ((calls 12).nexts ⟨1⟩ 2 repeated).2.warnings ⟨1⟩ = 2 := by
  decide +kernel

end Calls

end FirstSeen
