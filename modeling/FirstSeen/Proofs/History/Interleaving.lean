import FirstSeen.Proofs.History.Following
import FirstSeen.Proofs.Tower.Sharing

/-!
# Interleaved histories

What is asked of several sequences in turn is a *tour*: a list of visits, each of which plays operations on one of the
sequences, with streams that are begun in the visit and dropped after it.

A visit to a sequence that stands as a tower leaves it standing as what is left of the tower. If it shares its lower
part with another one, a visit to either moves the common part for both.
-/

set_option autoImplicit false

namespace FirstSeen

/-- What is asked of one of several sequences before another one is asked. -/
structure Visit where
  id : SequenceId
  ops : List Op

namespace Store

/-- What is seen at a visit, and the store after it, unless this is out of fuel. -/
def visit (n : Nat) (visit : Visit) (store : Store) : Option (List Outcome × Store) :=
  ((Session.mk store []).play n visit.id visit.ops).map fun played => (played.1, played.2.store)

/-- What is seen at visits in turn, and the store after them. -/
def tour (n : Nat) : List Visit → Store → Option (List (List Outcome) × Store)
  | [], store => some ([], store)
  | visit :: rest, store =>
    match store.visit n visit with
    | none => none
    | some (seen, store) => (tour n rest store).map fun toured => (seen :: toured.1, toured.2)

/-- What holds of a store and is kept by each visit of a tour holds after the tour. -/
theorem tour_keeps {P : Store → Prop} {n : Nat} {visits : List Visit} {store last : Store}
    {seen : List (List Outcome)}
    (each : ∀ visit ∈ visits, ∀ store after seen, P store → store.visit n visit = some (seen, after) → P after)
    (holds : P store) (toured : store.tour n visits = some (seen, last)) : P last := by
  induction visits generalizing store seen with
  | nil =>
    cases toured
    exact holds
  | cons visit rest ih =>
    rw [tour] at toured
    rcases visited : store.visit n visit with _ | ⟨here, after⟩ <;> simp only [visited] at toured
    · cases toured
    · obtain ⟨⟨others, last'⟩, toured', same⟩ := Option.map_eq_some_iff.mp toured
      cases same
      exact ih (fun visit member => each visit (List.mem_cons_of_mem _ member))
        (each visit List.mem_cons_self _ _ _ holds visited) toured'

variable {D : Item → Prop} {aside : Option CursorId} {multi : Bool} {n : Nat}

/-- A visit to a sequence that stands as a tower plays the same on the tower. -/
theorem Stands.visited {store after : Store} {id : SequenceId} {ids : List SequenceId} {tower : Tower} {ops : List Op}
    {seen : List Outcome} (stands : store.Stands D aside multi id ids tower) (deep : 4 * tower.height + 2 ≤ n)
    (visits : store.visit n ⟨id, ops⟩ = some (seen, after)) :
    ∃ left : Scene, (Scene.mk tower []).play multi n ops = some (seen, left) ∧
      after.Stands D aside multi id ids left.tower ∧ store.Works ids after := by
  obtain ⟨⟨seen', session⟩, played, same⟩ := Option.map_eq_some_iff.mp visits
  cases same
  have start : (Session.mk store []).FollowsAs
      (fun last tower => last.Stands D aside multi id ids tower ∧ store.Works ids last)
      (fun k => (store.cursor k).isStream = false) id ⟨tower, []⟩ := follows_nil ⟨stands, .refl ids store⟩
  obtain ⟨left, told, follows⟩ := ((tracks_stands store id ids).play ops start deep).some played
  exact ⟨left, told, follows.holds⟩

/-- Whatever is asked of a sequence that stands keeps what is steadily kept of its tower. -/
theorem Stands.visited_keeps {P : Tower → Prop} (steady : Tower.Steady P) {store after : Store} {id : SequenceId}
    {ids : List SequenceId} {tower : Tower} {ops : List Op} {seen : List Outcome}
    (stands : store.Stands D aside multi id ids tower) (deep : 4 * tower.height + 2 ≤ n) (holds : P tower)
    (visits : store.visit n ⟨id, ops⟩ = some (seen, after)) :
    ∃ left, after.Stands D aside multi id ids left ∧ left.height = tower.height ∧ P left ∧ store.Works ids after := by
  obtain ⟨left, told, stands', works⟩ := stands.visited deep visits
  exact ⟨left.tower, stands', Scene.play_keeps (Tower.steady_height tower.height) rfl told,
    Scene.play_keeps steady holds told, works⟩

/-- A visit to the lower part of a chain moves what is below the upper layers, and leaves these. -/
theorem Stands.visited_below {P : Tower → Prop} (steady : Tower.Steady P) {store after : Store} {id base : SequenceId}
    {ids rest : List SequenceId} {tower : Tower} {ops : List Op} {seen : List Outcome}
    (stands : store.Stands D aside multi id (ids ++ base :: rest) tower) (deep : 4 * tower.height + 2 ≤ n)
    (apart : ∀ layer ∈ ids, layer ∉ base :: rest) (holds : P (tower.beneath ids.length))
    (visits : store.visit n ⟨base, ops⟩ = some (seen, after)) :
    ∃ other, after.Stands D aside multi id (ids ++ base :: rest) (tower.graft ids.length other) ∧
      other.height = (tower.beneath ids.length).height ∧ P other := by
  obtain ⟨below, layered⟩ := stands.beneath
  have height := Tower.height_beneath layered
  obtain ⟨other, stands', high, kept, works⟩ := below.visited_keeps steady (by omega) holds visits
  refine ⟨other, stands.graft stands' works.grows works.size fun layer member => ?_, high, kept⟩
  exact works.others layer (apart layer member) (stands.inside layer (List.mem_append_left _ member))

end Store

end FirstSeen
