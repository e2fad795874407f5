import FirstSeen.Proofs.History.Keeping
import FirstSeen.Proofs.Tower.Holding

/-!
# Chains with a common lower part

Several sequences may be built upon one, which can also be asked by itself. Each of them stands as a tower of its own;
below some layers these are the same tower, that of the common sequence. What is done with one of the sequences leaves
the layers of the others as they are, and puts what is left of the common tower below them.
-/

set_option autoImplicit false

namespace FirstSeen

namespace Tower

/-- What is below the topmost sequence of a tower. -/
def lower : Tower → Tower
  | ground pass origin => ground pass origin
  | passage _ below | filter _ _ _ below => below

/-- What is below so many layers of a tower. -/
def beneath : Nat → Tower → Tower
  | 0, tower => tower
  | k + 1, tower => beneath k tower.lower

/-- A tower with another one below so many layers of it. -/
def graft (tower : Tower) : Nat → Tower → Tower
  | 0, other => other
  | k + 1, other =>
    match tower with
    | ground pass origin => ground pass origin
    | passage pass below => passage pass (below.graft k other)
    | filter pass rule seen below => filter pass rule seen (below.graft k other)
termination_by structural k => k

theorem height_lower {tower : Tower} (layered : tower.height ≠ 1) : tower.lower.height + 1 = tower.height := by
  cases tower with
  | ground pass origin => exact absurd rfl layered
  | passage pass below | filter pass rule seen below => rfl

/-- A tower without layers is a ground. -/
theorem lower_of_height {tower : Tower} (bare : tower.height = 1) : tower.lower = tower := by
  cases tower with
  | ground pass origin => rfl
  | passage pass below | filter pass rule seen below =>
    have := below.height_pos
    simp only [height] at bare
    omega

theorem lower_withPass {tower : Tower} {pass : Pass} (layered : tower.height ≠ 1) :
    (tower.withPass pass).lower = tower.lower := by
  cases tower with
  | ground pass origin => exact absurd rfl layered
  | passage pass below | filter pass rule seen below => rfl

theorem lower_settle {tower : Tower} {told : Draw} (layered : tower.height ≠ 1) :
    (settle (told, tower)).2.lower = tower.lower := by
  cases told with
  | ok item => rfl
  | error fault =>
    simp only [settle]
    split
    · cases tower with
      | ground pass origin => exact absurd rfl layered
      | passage pass below | filter pass rule seen below => rfl
    · rfl

theorem height_beneath {k : Nat} {tower : Tower} (deep : k < tower.height) :
    (tower.beneath k).height + k = tower.height := by
  induction k generalizing tower with
  | zero => rfl
  | succ k ih =>
    have lowered : tower.lower.height + 1 = tower.height := height_lower (by omega)
    have beneath' : (tower.lower.beneath k).height + k = tower.lower.height := ih (by omega)
    rw [beneath]
    omega

theorem beneath_graft {other : Tower} {k : Nat} {tower : Tower} (deep : k < tower.height) :
    (tower.graft k other).beneath k = other := by
  induction k generalizing tower with
  | zero => rfl
  | succ k ih =>
    cases tower with
    | ground pass origin =>
      simp only [height] at deep
      omega
    | passage pass below | filter pass rule seen below =>
      simp only [height] at deep
      exact ih (by omega)

theorem graft_beneath (k : Nat) (tower : Tower) : tower.graft k (tower.beneath k) = tower := by
  induction k generalizing tower with
  | zero => rfl
  | succ k ih =>
    cases tower with
    | ground pass origin => rfl
    | passage pass below => exact congrArg (passage pass) (ih below)
    | filter pass rule seen below => exact congrArg (filter pass rule seen) (ih below)

theorem height_graft {other : Tower} {k : Nat} {tower : Tower} (deep : k < tower.height) :
    (tower.graft k other).height = other.height + k := by
  induction k generalizing tower with
  | zero => rfl
  | succ k ih =>
    cases tower with
    | ground pass origin =>
      simp only [height] at deep
      omega
    | passage pass below | filter pass rule seen below =>
      simp only [height] at deep
      have grafted : (below.graft k other).height = other.height + k := ih (by omega)
      simp only [graft, height, grafted]
      omega

/-! ## What is kept below -/

variable {P : Tower → Prop}

/-- Pulling through a layer only asks what is below it. -/
theorem pull_lower (steady : Steady P) {n : Nat} {tower left : Tower} {told : Draw} (layered : tower.height ≠ 1)
    (holds : P tower.lower) (ends : pull n tower = some (told, left)) :
    P left.lower ∧ left.height = tower.height := by
  induction n generalizing tower with
  | zero => cases ends
  | succ n ih =>
    cases tower with
    | ground pass origin => exact absurd rfl layered
    | passage pass below =>
      obtain ⟨⟨told', below'⟩, asked, same⟩ := Option.map_eq_some_iff.mp ends
      cases same
      exact ⟨steady.next _ _ _ _ holds asked, congrArg (· + 1) (height_next asked)⟩
    | filter pass rule seen below =>
      rw [pull] at ends
      rcases asked : next n below with _ | ⟨fault | item, below'⟩ <;> rw [asked] at ends
      · cases ends
      · cases ends
        exact ⟨steady.next _ _ _ _ holds asked, congrArg (· + 1) (height_next asked)⟩
      · have holds' : P below' := steady.next _ _ _ _ holds asked
        have height : below'.height = below.height := height_next asked
        have layered' : ∀ seen', (filter pass rule seen' below').height ≠ 1 := fun _ =>
          fun bare => layered (by simp only [Tower.height] at bare ⊢; omega)
        rcases judged : rule.judge seen item with ⟨_ | _ | _, seen'⟩ <;> simp only [judged] at ends
        · cases ends
          exact ⟨holds', congrArg (· + 1) height⟩
        · obtain ⟨kept, same⟩ := ih (layered' seen') holds' ends
          exact ⟨kept, same.trans (congrArg (· + 1) height)⟩
        · cases ends
          exact ⟨holds', congrArg (· + 1) height⟩

/-- Asking a sequence with a layer on top asks it for elements or takes it back, and nothing else. -/
theorem Steady.lower (steady : Steady P) : Steady fun tower => P tower.lower := by
  have next : ∀ n (tower : Tower) told left, P tower.lower → tower.next n = some (told, left) → P left.lower := by
    intro n tower told left holds asked
    by_cases bare : tower.height = 1
    · rw [lower_of_height bare] at holds
      rw [lower_of_height ((height_next asked).trans bare)]
      exact steady.next _ _ _ _ holds asked
    · cases n with
      | zero => cases asked
      | succ n =>
        rw [Tower.next] at asked
        split at asked
        · cases asked
          rwa [lower_withPass bare]
        · split at asked
          · cases asked
            exact holds
          · obtain ⟨⟨told', left'⟩, pulled, same⟩ := Option.map_eq_some_iff.mp asked
            have begun : tower.begun.height ≠ 1 := by rwa [height_begun]
            obtain ⟨kept, height⟩ := pull_lower steady begun (by rwa [Tower.begun, lower_withPass bare]) pulled
            have layered : left'.height ≠ 1 := by rwa [height]
            obtain rfl : (settle (told', left')).2 = left := congrArg Prod.snd same
            rwa [lower_settle layered]
  refine ⟨next, fun n tower item left holds peeked asked => ?_, fun tower holds => ?_⟩
  · by_cases bare : tower.height = 1
    · rw [lower_of_height bare] at holds
      rw [lower_of_height (by rw [height_withPass, height_next asked, bare])]
      exact steady.ahead _ _ _ _ holds peeked asked
    · have layered : left.height ≠ 1 := by rwa [height_next asked]
      rw [lower_withPass layered]
      exact next _ _ _ _ holds asked
  · cases tower with
    | ground pass origin =>
      rw [lower_of_height (height_rewind _)]
      exact steady.rewind _ holds
    | passage pass below | filter pass rule seen below =>
      have kept : P below.rewind.2 := steady.rewind _ holds
      rw [Tower.rewind]
      rcases rewinds : below.rewind with ⟨_ | fault, left⟩ <;> rw [rewinds] at kept <;> exact kept

/-- What is kept of towers is kept of what is below so many layers of them. -/
theorem Steady.beneath (steady : Steady P) (k : Nat) : Steady fun tower => P (tower.beneath k) := by
  induction k with
  | zero => exact steady
  | succ k ih => exact ih.lower

end Tower

namespace Store

variable {D : Item → Prop} {aside : Option CursorId} {multi : Bool}

/-- A chain begins with the sequence that stands. -/
theorem Stands.head {store : Store} {id first : SequenceId} {rest : List SequenceId} {tower : Tower}
    (stands : store.Stands D aside multi id (first :: rest) tower) : id = first := by
  cases stands <;> rfl

/-- No sequence of a chain is below itself. -/
theorem Stands.nodup {store : Store} {id : SequenceId} {ids : List SequenceId} {tower : Tower}
    (stands : store.Stands D aside multi id ids tower) : ids.Nodup := by
  induction stands with
  | ground passes flag backs => simp
  | passage passes body bound apart rest ih | filter passes flag body sound data rule_eq apart rest ih =>
    exact List.nodup_cons.mpr ⟨apart, ih⟩

/-- The sequence below some layers of a chain stands as what is below them. -/
theorem Stands.beneath {store : Store} {id base : SequenceId} {ids rest : List SequenceId} {tower : Tower}
    (stands : store.Stands D aside multi id (ids ++ base :: rest) tower) :
    store.Stands D aside multi base (base :: rest) (tower.beneath ids.length) ∧ ids.length < tower.height := by
  induction ids generalizing id tower with
  | nil =>
    obtain rfl := stands.head
    exact ⟨stands, tower.height_pos⟩
  | cons first ids ih =>
    generalize chain : first :: ids ++ base :: rest = all at stands
    cases stands with
    | ground passes flag backs => simp at chain
    | passage passes body bound apart below | filter passes flag body sound data rule_eq apart below =>
      obtain ⟨-, rfl⟩ := List.cons.inj chain
      obtain ⟨stands', deep⟩ := ih below
      exact ⟨stands', by simp only [List.length_cons, Tower.height]; omega⟩

/-- The layers of a chain that were left alone stand on what the chain below them has become. -/
theorem Stands.graft {store after : Store} {id base : SequenceId} {ids rest : List SequenceId} {tower other : Tower}
    (stands : store.Stands D aside multi id (ids ++ base :: rest) tower)
    (below : after.Stands D aside multi base (base :: rest) other) (grows : store.Grows after)
    (size : store.sequences.size ≤ after.sequences.size)
    (same : ∀ layer ∈ ids, after.sequence layer = store.sequence layer) :
    after.Stands D aside multi id (ids ++ base :: rest) (tower.graft ids.length other) := by
  induction ids generalizing id tower with
  | nil =>
    obtain rfl := stands.head
    exact below
  | cons first ids ih =>
    have upper := fun layer member => same layer (List.mem_cons_of_mem first member)
    have here := same first List.mem_cons_self
    generalize chain : first :: ids ++ base :: rest = all at stands
    cases stands with
    | ground passes flag backs => simp at chain
    | passage passes body bound apart rest' =>
      obtain ⟨rfl, rfl⟩ := List.cons.inj chain
      exact .passage (passes.later grows size here) (by rw [here, body]) bound apart (ih rest' upper)
    | filter passes flag body sound data rule_eq apart rest' =>
      obtain ⟨rfl, rfl⟩ := List.cons.inj chain
      exact .filter (passes.later grows size here) (by rw [here, flag]) (by rw [here, body]) (grows.soundKey sound)
        (grows.isData data) (rule_eq.trans (grows.ruleOf data).symm) apart (ih rest' upper)

/-- Moving iterators other than streams that were there changes no more sequences than may have changed. -/
theorem Works.spared {first store after : Store} {ids : List SequenceId} (works : first.Works ids store)
    (spares : ∀ ids, store.Spares ids after)
    (still : ∀ k, ¬ (first.cursor k).isStream = false → after.cursor k = store.cursor k) : first.Works ids after := by
  refine ⟨works.grows.trans (spares ids).grows, Nat.le_trans works.size (spares ids).size, fun other foreign inside => ?_,
    fun k stream => ?_⟩
  · rw [(spares [other]).same other List.mem_cons_self, works.others other foreign inside]
  · rw [still k (by simp [stream]), works.streams k stream]

/-- An iterator that is yet to come was no stream before. -/
theorem Works.notStream_new {first store : Store} {ids : List SequenceId} (works : first.Works ids store) :
    (first.cursor ⟨store.cursors.size⟩).isStream = false := by
  by_contra stream
  have kept := works.streams ⟨store.cursors.size⟩ (by simpa using stream)
  have streams : (store.cursor ⟨store.cursors.size⟩).isStream = true := by rw [kept]; simpa using stream
  exact Nat.lt_irrefl _ (inside_of_isStream streams)

/-- A chain stands with the same sequences whatever is asked of it, and nothing else has changed since. -/
theorem tracks_stands (first : Store) (id : SequenceId) (ids : List SequenceId) :
    Tracks D multi (fun k => (first.cursor k).isStream = false) id
      (fun store tower => store.Stands D aside multi id ids tower ∧ first.Works ids store)
      (fun store tower => store.Stands D aside multi id ids tower ∧ first.Works ids store) := by
  have spared : ∀ {store after : Store} {tower : Tower},
      store.Stands D aside multi id ids tower ∧ first.Works ids store → (∀ ids, store.Spares ids after) →
      (∀ k, ¬ (first.cursor k).isStream = false → after.cursor k = store.cursor k) →
      after.Stands D aside multi id ids tower ∧ first.Works ids after :=
    fun related spares still => ⟨related.1.spared (spares ids), related.2.spared spares still⟩
  have draws : ∀ (n : Nat) {store : Store} {tower : Tower},
      store.Stands D aside multi id ids tower ∧ first.Works ids store →
      EndsLike (fun after v item => after.Shows D item v)
        (fun after left => (after.Stands D aside multi id ids left ∧ first.Works ids after) ∧ store.Keeps after)
        (((calls n).next id).from? store) (tower.next n) := by
    rintro n store tower ⟨stands, works⟩
    exact (next_stands n stands).like.further fun left ⟨stands', works'⟩ =>
      ⟨⟨stands', works.trans works'⟩, works'.keeps⟩
  refine ⟨fun related => related, fun related => related.1.passes, fun related => related.2.notStream_new, spared, spared,
    fun related _ => draws _ related, draws, fun ⟨stands, works⟩ shows' => ?_, fun ⟨stands, works⟩ deep => ?_,
    fun ⟨stands, works⟩ deep => ?_, fun ⟨stands, works⟩ deep => ?_⟩
  · exact ⟨stands.ahead shows', works.trans (works_updated stands.mem)⟩
  · obtain ⟨after, ends, stands', works'⟩ := rewind_stands stands deep
    exact ⟨after, ends, ⟨stands', works.trans works'⟩, works'.keeps⟩
  · exact ⟨_, isMulti_stands stands (by omega), ⟨stands, works⟩, .refl _⟩
  · exact ⟨_, size_stands stands (by omega), ⟨stands, works⟩, .refl _⟩

end Store

end FirstSeen
