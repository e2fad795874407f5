import FirstSeen.Proofs.Atomicity
import FirstSeen.Proofs.History.Following
import FirstSeen.Proofs.Tower.Spelling

/-!
# Pipelines before their chain is built

A pipeline is *dormant* before a tower if it is at its beginning, has no chain yet, and can be asked as the tower in every
store that leaves the sequences alone, given enough calls. How many are enough depends on how deep the steps of the pipeline
are nested, which its tower does not tell. Whatever is asked of a dormant pipeline ends as it does for the tower, and wakes
the pipeline unless it is merely taken back.
-/

set_option autoImplicit false

namespace FirstSeen

namespace Store

variable {D : Item → Prop} {aside : Option CursorId} {multi : Bool}

variable (D aside multi) in
/-- Whether a pipeline without a chain is at its beginning and can be asked as a tower, given so many calls. -/
structure Dormant (calls : Nat) (store : Store) (p : SequenceId) (tower : Tower) : Prop where
  passes : store.Passes D p {}
  form : ∃ steps input, (store.sequence p).body = .pipeline steps input .null
  fresh : tower.Fresh
  acts : ∀ later, (∀ ids, store.Spares ids later) → ∀ n, calls ≤ n → ∃ ids, later.Acts D aside multi n p ids tower

section

variable {store after : Store} {p : SequenceId} {tower : Tower} {many n : Nat}

theorem Dormant.spared (dormant : store.Dormant D aside multi many p tower) (spares : ∀ ids, store.Spares ids after) :
    after.Dormant D aside multi many p tower := by
  have same := (spares [p]).same p List.mem_cons_self
  obtain ⟨steps, input, form⟩ := dormant.form
  exact ⟨dormant.passes.later (spares []).grows (spares []).size same, ⟨steps, input, by rw [same, form]⟩, dormant.fresh,
    fun later more => dormant.acts later fun ids => (spares ids).trans (more ids)⟩

/-- A dormant pipeline can be asked here. -/
theorem Dormant.here (dormant : store.Dormant D aside multi many p tower) (deep : many ≤ n) :
    ∃ ids, store.Acts D aside multi n p ids tower :=
  dormant.acts store (fun ids => .refl ids store) n deep

/-- Whatever is asked of a pipeline leaves it awake, or dormant as it was. -/
theorem tracks_dormant (many : Nat) (p : SequenceId) :
    Tracks D multi (fun _ => True) p
      (fun store tower => store.Awake D aside multi p tower ∨ store.Dormant D aside multi many p tower)
      (fun store tower => store.Awake D aside multi p tower) many where
  holds := .inl
  passes := by
    rintro store tower (awake | dormant)
    · exact awake.holds.passes
    · rw [dormant.fresh.pass]
      exact dormant.passes
  new _ := trivial
  spared := by
    rintro store after tower (awake | dormant) spares -
    · exact .inl (awake.spared spares)
    · exact .inr (dormant.spared spares)
  stays awake spares _ := awake.spared spares
  next := by
    rintro n store tower (awake | dormant) deep
    · exact next_awake n awake
    · obtain ⟨ids, acts⟩ := dormant.here (Nat.le_trans (Nat.le_add_left ..) deep)
      exact acts.wakes_next
  draws n _ _ := next_awake n
  ahead := tracks_holds.ahead
  rewind := by
    rintro n store tower (⟨ids, stands⟩ | dormant) deep
    · obtain ⟨after, ends, stands', works⟩ := rewind_stands stands deep
      exact ⟨after, ends, .inl ⟨ids, stands'⟩, works.keeps⟩
    · obtain ⟨n, rfl⟩ : ∃ k, n = k + 1 := ⟨n - 1, by have := tower.height_pos; omega⟩
      obtain ⟨steps, input, form⟩ := dormant.form
      obtain ⟨after, ends, spares, cursors⟩ := rewind_unbuilt dormant.passes form n
      rw [dormant.fresh.rewind]
      exact ⟨after, ends, .inr (dormant.spared spares), (spares []).grows, fun k _ => by simp only [Store.cursor, cursors]⟩
  flag := by
    rintro n store tower (awake | dormant) deep
    · exact tracks_holds.flag awake.holds (Nat.le_trans (Nat.le_add_right ..) deep)
    · obtain ⟨ids, acts⟩ := dormant.here (Nat.le_trans (Nat.le_add_left ..) deep)
      exact acts.wakes_isMulti
  size := by
    rintro n store tower (awake | dormant) deep
    · exact tracks_holds.size awake.holds (Nat.le_trans (Nat.le_add_right ..) deep)
    · obtain ⟨ids, acts⟩ := dormant.here (Nat.le_trans (Nat.le_add_left ..) deep)
      exact acts.wakes_size

/-- A new pipeline whose chain can be built in every store that leaves the sequences alone is dormant. -/
theorem dormant_of_builds {steps : ListId} {d : Value} (passes : store.Passes D p {})
    (form : (store.sequence p).body = .pipeline steps d .null) (flag : (store.sequence p).multiValue = multi)
    (bound : d.isNull = false) (fresh : tower.Fresh) (high : tower.height ≤ many)
    (builds : ∀ later n, (∀ ids, store.Spares ids later) → many ≤ n → later.Builds D aside multi n steps d tower)
    (begun : ∀ later n, (∀ ids, store.Spares ids later) → many ≤ n →
      (later.updated p fun state => { state with started := true }).Builds D aside multi n steps d tower) :
    store.Dormant D aside multi (many + 2) p (.passage {} tower) := by
  refine ⟨passes, ⟨steps, d, form⟩, ⟨rfl, fresh⟩, fun later spares n deep => ⟨[p], ?_⟩⟩
  obtain ⟨n, rfl⟩ : ∃ k, n = k + 2 := ⟨n - 2, by omega⟩
  have same := (spares [p]).same p List.mem_cons_self
  exact acts_of_builds (passes.later (spares []).grows (spares []).size same) (by rw [same, form]) (by rw [same, flag]) bound
    (by omega) (builds later (n + 1) spares (by omega)) (begun later n spares (by omega))

/-- What is seen of operations on a dormant pipeline is seen of them on its tower, and the pipeline then still is dormant or
awake. -/
theorem Dormant.plays (dormant : store.Dormant D aside multi many p tower) (deep : 4 * tower.height + many + 2 ≤ n)
    (ops : List Op) :
    (Session.mk store []).ComesTo
      (Session.FollowsAs
        (fun store tower => store.Awake D aside multi p tower ∨ store.Dormant D aside multi many p tower) (fun _ => True) p)
      ((Session.mk store []).play n p ops) ((Scene.mk tower []).play multi n ops) :=
  (tracks_dormant many p).play ops (follows_nil (.inr dormant)) deep

/-! ## Flags -/

/-- Where a chain that stands leads to, a chain stands that is no higher. -/
theorem Stands.leads {id stage : SequenceId} {ids : List SequenceId} (stands : store.Stands D aside multi id ids tower)
    (leads : store.LeadsTo id stage) :
    ∃ ids' tower', store.Stands D aside multi stage ids' tower' ∧ tower'.height ≤ tower.height := by
  induction leads generalizing ids tower with
  | here id => exact ⟨ids, tower, stands, Nat.le_refl _⟩
  | supply body below ih =>
    cases stands with
    | ground passes flag backs =>
      have ground := backs.ground
      rw [body] at ground
      cases ground
    | passage passes body' bound apart rest =>
      rw [body] at body'
      cases body'
    | filter passes flag body' sound data rule_eq apart rest =>
      rw [body] at body'
      cases body'
      obtain ⟨ids', tower', stands', low⟩ := ih rest
      exact ⟨ids', tower', stands', Nat.le_succ_of_le low⟩
  | output body below ih =>
    cases stands with
    | ground passes flag backs =>
      have ground := backs.ground
      rw [body] at ground
      cases ground
    | passage passes body' bound apart rest =>
      rw [body] at body'
      cases body'
      obtain ⟨ids', tower', stands', low⟩ := ih rest
      exact ⟨ids', tower', stands', Nat.le_succ_of_le low⟩
    | filter passes flag body' sound data rule_eq apart rest =>
      rw [body] at body'
      cases body'

/-- A pipeline that has no chain leads nowhere else. -/
theorem LeadsTo.unbuilt {stage : SequenceId} {steps : ListId} {input : Value} (leads : store.LeadsTo p stage)
    (form : (store.sequence p).body = .pipeline steps input .null) : stage = p := by
  cases leads with
  | here => rfl
  | supply body below =>
    rw [form] at body
    cases body
  | output body below =>
    rw [form] at body
    cases body

end

end Store

end FirstSeen
