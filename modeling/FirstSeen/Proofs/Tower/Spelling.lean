import FirstSeen.Proofs.Tower.Building
import FirstSeen.Proofs.Tower.Raw

/-!
# Lists of steps with pipelines among them

A list of steps *spells* its leaves: a step that removes duplicates is a leaf, and a pipeline without an input stands
for what its own list spells, however deep. Applying such a list to a chain that stands puts a filter for each leaf on
the tower of the chain, just as applying the leaves one after another does. A nested pipeline takes some calls more,
but leaves nothing of its own in the chain.

Neither putting steps together nor applying them changes anything that was there: a store is only enlarged by lists and
sequences.
-/

set_option autoImplicit false

namespace FirstSeen

namespace Store

variable {D : Item → Prop} {aside : Option CursorId} {multi : Bool}

/-! ## More lists and sequences -/

/-- Whether lists and sequences were added to a store, and nothing else happened to it. -/
def Enlarges (before after : Store) : Prop :=
  ∃ lists sequences, after =
    { before with lists := before.lists ++ lists, sequences := before.sequences ++ sequences }

theorem Enlarges.refl (store : Store) : store.Enlarges store := ⟨#[], #[], by simp⟩

theorem Enlarges.trans {first second third : Store} (h : first.Enlarges second) (k : second.Enlarges third) :
    first.Enlarges third := by
  obtain ⟨lists, sequences, rfl⟩ := h
  obtain ⟨lists', sequences', rfl⟩ := k
  exact ⟨lists ++ lists', sequences ++ sequences', by simp [Array.append_assoc]⟩

/-- Whether a store has grown, with all its sequences where they were. -/
structure Retains (before after : Store) : Prop where
  grows : before.Grows after
  size : before.sequences.size ≤ after.sequences.size
  sequence : ∀ {id : SequenceId}, id.index < before.sequences.size → after.sequence id = before.sequence id

theorem Retains.trans {first second third : Store} (h : first.Retains second) (k : second.Retains third) :
    first.Retains third :=
  ⟨h.grows.trans k.grows, Nat.le_trans h.size k.size, fun inside =>
    (k.sequence (Nat.lt_of_lt_of_le inside h.size)).trans (h.sequence inside)⟩

theorem enlarges_joined (store : Store) (state : SequenceState) : store.Enlarges (store.joined state) :=
  ⟨#[], #[state], by simp [joined]⟩

namespace Enlarges

variable {before after : Store} (enlarges : before.Enlarges after)
include enlarges

theorem grows : before.Grows after := by
  obtain ⟨lists, sequences, rfl⟩ := enlarges
  exact ⟨⟨#[], by simp⟩, ⟨lists, rfl⟩, rfl, rfl, fun _ => rfl, rfl, Nat.le_refl _⟩

theorem size : before.sequences.size ≤ after.sequences.size := by
  obtain ⟨lists, sequences, rfl⟩ := enlarges
  simp

theorem sequence {id : SequenceId} (inside : id.index < before.sequences.size) :
    after.sequence id = before.sequence id := by
  obtain ⟨lists, sequences, rfl⟩ := enlarges
  simp only [Store.sequence, Array.getD_eq_getD_getElem?, Array.getElem?_append_left inside]

theorem cursors : after.cursors = before.cursors := by
  obtain ⟨lists, sequences, rfl⟩ := enlarges
  rfl

theorem retains : before.Retains after := ⟨enlarges.grows, enlarges.size, enlarges.sequence⟩

/-- What was there is spared. -/
theorem spares {ids : List SequenceId} (inside : ∀ id ∈ ids, id.index < before.sequences.size) :
    before.Spares ids after := by
  have same := enlarges.cursors
  refine ⟨enlarges.grows, enlarges.size, fun id member => enlarges.sequence (inside id member), same ▸ Nat.le_refl _,
    fun id _ _ => by rw [cursor, cursor, same], fun id => enlarges.grows.callsOf (fun _ => ?_) id⟩
  obtain ⟨lists, sequences, rfl⟩ := enlarges
  rfl

theorem works (ids : List SequenceId) : before.Works ids after :=
  ⟨enlarges.grows, enlarges.size, fun _ _ inside => enlarges.sequence inside,
    fun id _ => by rw [cursor, cursor, enlarges.cursors]⟩

end Enlarges

/-! ## Spelling -/

variable (D multi) in
/-- Whether a list of steps without inputs stands for these leaves, which remove duplicates by sound keys. -/
inductive Spells (store : Store) : List Value → List Value → Prop
  | nil : Spells store [] []
  | step {step : Value} {rest leaves : List Value} (sound : store.SoundStep D multi step)
      (others : Spells store rest leaves) : Spells store (step :: rest) (step :: leaves)
  | pipeline {p : SequenceId} {steps : ListId} {kept : Value} {rest first leaves : List Value}
      (inside : p.index < store.sequences.size) (form : (store.sequence p).body = .pipeline steps .null kept)
      (flag : (store.sequence p).multiValue = multi) (listed : steps.index < store.lists.size)
      (inner : Spells store (store.list steps) first) (others : Spells store rest leaves) :
      Spells store (.ofSequence p :: rest) (first ++ leaves)

variable (D multi) in
/-- Whether applying a list of steps comes to applying these leaves: a pipeline in the list is applied as its own list,
whatever else there is to it. -/
inductive Covers (store : Store) : List Value → List Value → Prop
  | nil : Covers store [] []
  | step {step : Value} {rest leaves : List Value} (sound : store.SoundStep D multi step)
      (others : Covers store rest leaves) : Covers store (step :: rest) (step :: leaves)
  | pipeline {p : SequenceId} {steps : ListId} {input kept : Value} {rest first leaves : List Value}
      (inside : p.index < store.sequences.size) (form : (store.sequence p).body = .pipeline steps input kept)
      (listed : steps.index < store.lists.size) (inner : Covers store (store.list steps) first)
      (others : Covers store rest leaves) : Covers store (.ofSequence p :: rest) (first ++ leaves)

namespace Covers

variable {store : Store} {values leaves : List Value}

theorem sound (covers : store.Covers D multi values leaves) : ∀ leaf ∈ leaves, store.SoundStep D multi leaf := by
  induction covers with
  | nil => simp
  | step sound _ ih => exact List.forall_mem_cons.mpr ⟨sound, ih⟩
  | pipeline inside form listed _ _ inner others =>
    exact fun leaf member => (List.mem_append.mp member).elim (inner leaf) (others leaf)

theorem append (covers : store.Covers D multi values leaves) {values' leaves' : List Value}
    (covers' : store.Covers D multi values' leaves') : store.Covers D multi (values ++ values') (leaves ++ leaves') := by
  induction covers with
  | nil => exact covers'
  | step sound _ ih => exact .step sound ih
  | pipeline inside form listed inner _ _ ih =>
    rw [List.append_assoc]
    exact .pipeline inside form listed inner ih

/-- What covers leaves goes on doing so while no pipeline changes. -/
theorem later (covers : store.Covers D multi values leaves) {after : Store} (grows : store.Grows after)
    (size : store.sequences.size ≤ after.sequences.size)
    (same : ∀ p : SequenceId, p.index < store.sequences.size → (store.sequence p).body.kind = .pipeline →
      after.sequence p = store.sequence p) : after.Covers D multi values leaves := by
  induction covers with
  | nil => exact .nil
  | step sound _ ih => exact .step (grows.soundStep sound).1 ih
  | @pipeline p steps input kept rest first leaves inside form listed _ _ inner others =>
    obtain ⟨more, lists⟩ := grows.lists
    have there := same p inside (by rw [form]; rfl)
    exact .pipeline (Nat.lt_of_lt_of_le inside size) (there ▸ form) (by rw [lists, Array.size_append]; omega)
      (grows.list listed ▸ inner) others

end Covers

namespace Spells

variable {store : Store} {values leaves : List Value}

theorem covers (spells : store.Spells D multi values leaves) : store.Covers D multi values leaves := by
  induction spells with
  | nil => exact .nil
  | step sound _ ih => exact .step sound ih
  | pipeline inside form flag listed _ _ inner others => exact .pipeline inside form listed inner others

theorem later (spells : store.Spells D multi values leaves) {after : Store} (retains : store.Retains after) :
    after.Spells D multi values leaves := by
  induction spells with
  | nil => exact .nil
  | step sound _ ih => exact .step (retains.grows.soundStep sound).1 ih
  | @pipeline p steps kept rest first leaves inside form flag listed _ _ inner others =>
    obtain ⟨more, lists⟩ := retains.grows.lists
    have same := retains.sequence inside
    exact .pipeline (Nat.lt_of_lt_of_le inside retains.size) (same ▸ form) (same ▸ flag)
      (by rw [lists, Array.size_append]; omega) (retains.grows.list listed ▸ inner) others

theorem append (spells : store.Spells D multi values leaves) {values' leaves' : List Value}
    (spells' : store.Spells D multi values' leaves') :
    store.Spells D multi (values ++ values') (leaves ++ leaves') := by
  induction spells with
  | nil => exact spells'
  | step sound _ ih => exact .step sound ih
  | pipeline inside form flag listed inner _ _ ih =>
    rw [List.append_assoc]
    exact .pipeline inside form flag listed inner ih

/-- Leaves spell themselves. -/
theorem leaves_self (sound : ∀ leaf ∈ leaves, store.SoundStep D multi leaf) : store.Spells D multi leaves leaves := by
  induction leaves with
  | nil => exact .nil
  | cons leaf rest ih =>
    exact .step (sound leaf List.mem_cons_self) (ih fun other member => sound other (List.mem_cons_of_mem _ member))

end Spells

/-! ## Applying -/

/-- Applying a step to a chain that stands adds one stage to it, and a filter to its tower. -/
theorem Stands.from?_apply {store : Store} {id : SequenceId} {ids : List SequenceId} {tower : Tower} {step : Value}
    {n : Nat} (stands : store.Stands D aside multi id ids tower) (sound : store.SoundStep D multi step)
    (deep : tower.height ≤ n) :
    ∃ state, ((calls (n + 1)).apply step (.ofSequence id)).from? store =
        (.ok (.ofSequence ⟨store.sequences.size⟩), store.joined state) ∧
      (store.joined state).Stands D aside multi ⟨store.sequences.size⟩ (⟨store.sequences.size⟩ :: ids)
        (.filter {} (store.ruleOfStep multi step) .empty tower) := by
  obtain ⟨s, key, limit, rfl, found, soundKey, data⟩ := sound.form
  refine ⟨{ body := .distinct id key limit .empty, multiValue := multi }, ?_, ?_⟩
  · change ((calls n).applyWith (.object (.step s)) (.ofSequence id)).from? store = _
    rw [Calls.applyWith, Run.from?_bind_ok (Run.from?_view ..), found]
    exact Run.from?_bind_ok (stands.from?_newDistinct deep)
  · simp only [ruleOfStep, found]
    exact stands_filter_joined stands soundKey data

variable (aside) in
/-- Applying what covers leaves to a chain that stands puts a layer for each leaf on it, and a filter on its tower, given
enough calls for the pipelines in it. -/
theorem Covers.applied {base : Store} {values leaves : List Value} (covers : base.Covers D multi values leaves) :
    ∃ depth, ∀ (store : Store) id ids tower n, base.Retains store →
      store.Stands D aside multi id ids tower → depth + tower.height ≤ n →
      ∃ top layers after, ((calls n).applyAll values (.ofSequence id)).from? store = (.ok (.ofSequence top), after) ∧
        store.Enlarges after ∧ (∀ layer ∈ layers, store.sequences.size ≤ layer.index) ∧
        after.Stands D aside multi top (layers ++ ids) (.filters (leaves.map (base.ruleOfStep multi)) tower) := by
  induction covers with
  | nil => exact ⟨0, fun store id ids tower n _ stands _ => ⟨id, [], store, rfl, .refl store, by simp, stands⟩⟩
  | @step step rest leaves sound _ ih =>
    obtain ⟨depth, applied⟩ := ih
    refine ⟨depth + 1, fun store id ids tower n retains stands deep => ?_⟩
    obtain ⟨n, rfl⟩ : ∃ k, n = k + 1 := ⟨n - 1, by omega⟩
    obtain ⟨sound', rule⟩ := retains.grows.soundStep sound
    obtain ⟨state, ends, stands'⟩ := stands.from?_apply sound' (n := n) (by omega)
    have enlarges' := enlarges_joined store state
    obtain ⟨top, layers, after, ends', further, new, stands''⟩ :=
      applied _ _ _ _ (n + 1) (retains.trans enlarges'.retains) stands' (by simp only [Tower.height]; omega)
    rw [rule] at stands''
    refine ⟨top, layers ++ [⟨store.sequences.size⟩], after, ?_, enlarges'.trans further, fun layer member => ?_, ?_⟩
    · rw [Calls.applyAll, Run.from?_bind_ok ends]
      exact ends'
    · rcases List.mem_append.mp member with upper | lower
      · exact Nat.le_trans enlarges'.size (new layer upper)
      · exact List.mem_singleton.mp lower ▸ Nat.le_refl _
    · rw [List.append_assoc]
      exact stands''
  | @pipeline p steps input kept rest first leaves inside form listed _ _ inner others =>
    obtain ⟨depth, applied⟩ := inner
    obtain ⟨depth', applied'⟩ := others
    refine ⟨depth + depth' + first.length + 1, fun store id ids tower n retains stands deep => ?_⟩
    obtain ⟨n, rfl⟩ : ∃ k, n = k + 1 := ⟨n - 1, by omega⟩
    obtain ⟨mid, lower, between, ends, nested, new, stands'⟩ :=
      applied store id ids tower n retains stands (by omega)
    obtain ⟨top, upper, after, ends', further, new', stands''⟩ :=
      applied' between mid _ _ (n + 1) (retains.trans nested.retains) stands' (by simp; omega)
    refine ⟨top, upper ++ lower, after, ?_, nested.trans further, fun layer member => ?_, ?_⟩
    · have opened : ((calls (n + 1)).apply (.ofSequence p) (.ofSequence id)).from? store =
          (.ok (.ofSequence mid), between) := by
        change ((calls n).applyWith (.object (.sequence p)) (.ofSequence id)).from? store = _
        rw [Calls.applyWith, Run.from?_bind_ok (Run.from?_sequence ..), retains.sequence inside, form]
        simp only
        rw [Run.from?_bind_ok (Run.from?_list ..), retains.grows.list listed]
        exact ends
      rw [Calls.applyAll, Run.from?_bind_ok opened]
      exact ends'
    · exact (List.mem_append.mp member).elim (fun member => Nat.le_trans nested.size (new' layer member)) (new layer)
    · rw [List.append_assoc, List.map_append, Tower.filters, List.foldl_append]
      exact stands''

/-! ## Building -/

variable (D aside multi) in
/-- Whether building a chain from a list of steps on data, at some depth of calls, only adds sequences, of which the
last one stands as a tower. -/
def Builds (store : Store) (n : Nat) (steps : ListId) (d : Value) (tower : Tower) : Prop :=
  ∃ out ids built, ((calls n).build steps d multi).from? store = (.ok (.ofSequence out), built) ∧
    store.Enlarges built ∧ store.Widens [] ids ∧ built.Stands D aside multi out ids tower

/-- The tower of a chain with a filter for each leaf on raw data. -/
def stagesOn (store : Store) (multi : Bool) (leaves : List Value) (d : Value) : Tower :=
  .filters (leaves.map (store.ruleOfStep multi)) (.ground {} (store.originOf d))

theorem fresh_stagesOn (store : Store) (multi : Bool) (leaves : List Value) (d : Value) :
    (store.stagesOn multi leaves d).Fresh :=
  Tower.fresh_filters ⟨rfl, rfl⟩

/-- What covers leaves becomes a filter for each of them when a chain is built from it, in every store in which the
sequences are where they were. -/
theorem Covers.builds {first base : Store} {d : Value} {values leaves : List Value} (raw : first.Raw d)
    (sound : ∀ leaf ∈ leaves, first.SoundStep Item.Plain multi leaf) (grows : first.Grows base)
    (covers : base.Covers Item.Plain multi values leaves) :
    ∃ depth, (first.stagesOn multi leaves d).height ≤ depth ∧ ∀ (store : Store) steps n, first.Spares [] store →
      base.Retains store → store.list steps = values → depth ≤ n →
      store.Builds Item.Plain (first.aside d) multi n steps d (first.stagesOn multi leaves d) := by
  obtain ⟨depth, applied⟩ := covers.applied (first.aside d)
  refine ⟨max (first.stagesOn multi leaves d).height (depth + 1), Nat.le_max_left .., ?_⟩
  intro store steps n spares retains listed deep
  let state : SequenceState := { body := first.groundBody d, multiValue := multi }
  have there := sequence_joined_new store state
  have backs := (backs_of_raw raw raw.within).later spares.grows (fun id _ => spares.calls id) spares.cursors
    spares.still
  have stands : (store.joined state).Stands Item.Plain (first.aside d) multi ⟨store.sequences.size⟩
    [⟨store.sequences.size⟩] (.ground {} (first.originOf d)) := stands_ground_joined backs
  have enlarges := enlarges_joined store state
  obtain ⟨top, layers, built, ends, further, new, stands'⟩ := applied (store.joined state) _ _ _ n
    (retains.trans enlarges.retains) stands (by simp only [Tower.height]; omega)
  have rules : leaves.map (base.ruleOfStep multi) = leaves.map (first.ruleOfStep multi) :=
    List.map_congr_left fun leaf member => (grows.soundStep (sound leaf member)).2
  refine ⟨top, layers ++ [⟨store.sequences.size⟩], built, ?_, enlarges.trans further, ⟨by simp, fun id member => ?_⟩,
    by rwa [rules] at stands'⟩
  · rw [Calls.build, Run.from?_bind_ok (from?_toSequence raw multi spares.grows)]
    change (Run.sequence ⟨store.sequences.size⟩ >>= _).from? (store.joined state) = _
    rw [Run.from?_bind_ok (Run.from?_sequence ..), there]
    change ((calls n).applyAll (store.list steps) _).from? (store.joined state) = _
    rw [listed]
    exact ends
  · rcases List.mem_append.mp member with upper | lower
    · exact .inr (Nat.le_trans enlarges.size (new id upper))
    · exact .inr (List.mem_singleton.mp lower ▸ Nat.le_refl _)

/-- So it does before and after a pipeline is started that was not there yet. -/
theorem Covers.builds_begun {first base : Store} {d : Value} {values leaves : List Value} {p : SequenceId}
    (raw : first.Raw d) (sound : ∀ leaf ∈ leaves, first.SoundStep Item.Plain multi leaf) (grows : first.Grows base)
    (covers : base.Covers Item.Plain multi values leaves) (new : base.sequences.size ≤ p.index) :
    ∃ depth, (first.stagesOn multi leaves d).height ≤ depth ∧ ∀ (store : Store) steps n, first.Spares [] store →
      base.Retains store → store.list steps = values → depth ≤ n →
      store.Builds Item.Plain (first.aside d) multi n steps d (first.stagesOn multi leaves d) ∧
      (store.updated p fun state => { state with started := true }).Builds Item.Plain (first.aside d) multi n steps d
        (first.stagesOn multi leaves d) := by
  obtain ⟨depth, high, builds⟩ := covers.builds raw sound grows
  refine ⟨depth, high, fun store steps n spares retains listed deep => ⟨builds store steps n spares retains listed deep, ?_⟩⟩
  have started : store.Spares [] (store.updated p fun state => { state with started := true }) := spares_updated (by simp)
  have retains' : base.Retains (store.updated p fun state => { state with started := true }) :=
    ⟨retains.grows.trans started.grows, Nat.le_trans retains.size started.size, fun {id} inside => by
      have apart : id ≠ p := fun same => absurd (same ▸ inside) (Nat.not_lt.mpr new)
      rw [sequence_updated_ne apart, retains.sequence inside]⟩
  exact builds _ steps n (spares.trans started) retains' listed deep

namespace Builds

variable {store : Store} {n : Nat} {p : SequenceId} {steps : ListId} {d : Value} {tower : Tower}

/-- A chain that is built below a pipeline is its output. -/
theorem outputs (builds : store.Builds D aside multi n steps d tower) {pass : Pass} (passes : store.Passes D p pass)
    (form : (store.sequence p).body = .pipeline steps d .null) (flag : (store.sequence p).multiValue = multi)
    (bound : d.isNull = false) (deep : tower.height ≤ n) : store.Outputs D aside multi n p [p] pass tower := by
  obtain ⟨out, ids, built, ends, enlarges, widens, stands⟩ := builds
  have new : ∀ id ∈ ids, store.sequences.size ≤ id.index := fun id member =>
    (widens.new id member).resolve_left (by simp)
  have apart : p ∉ ids := fun member => absurd (new p member) (Nat.not_le.mpr passes.inside)
  refine keepOutput_outputs ?_ passes form bound ⟨by simp, fun id member => ?_⟩ apart (enlarges.works ids)
    fun later spares => (stands.spared spares).acts deep
  · rw [from?_buildFor form bound, flag]
    exact ends
  · rcases List.mem_cons.mp member with rfl | member
    · exact .inl List.mem_cons_self
    · exact .inr (new id member)

end Builds

/-- A pipeline to which nothing has happened yet can be asked as a passage on the tower of the chain that is built below
it, now and after it was started. -/
theorem acts_of_builds {store : Store} {n : Nat} {p : SequenceId} {steps : ListId} {d : Value} {tower : Tower}
    (passes : store.Passes D p {}) (form : (store.sequence p).body = .pipeline steps d .null)
    (flag : (store.sequence p).multiValue = multi) (bound : d.isNull = false) (deep : tower.height ≤ n)
    (builds : store.Builds D aside multi (n + 1) steps d tower)
    (begun : (store.updated p fun state => { state with started := true }).Builds D aside multi n steps d tower) :
    store.Acts D aside multi (n + 2) p [p] (.passage {} tower) := by
  have there := sequence_updated (f := fun state : SequenceState => { state with started := true }) passes.inside
  exact acts_of_outputs List.mem_cons_self passes form bound (builds.outputs passes form flag bound (by omega))
    (begun.outputs passes.begun (by rw [there, form]) (by rw [there, flag]) bound deep)

end Store

end FirstSeen
