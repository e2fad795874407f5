import FirstSeen.Proofs.Tower.Sharing
import FirstSeen.Proofs.Tower.Waking

/-!
# Pipelines that branch off a sequence

Several pipelines may be bound to one sequence. Such a pipeline *buds* until something is asked of it: then the sequence is
taken back to its beginning if it was started, and the steps are applied to it. From then on the pipeline is *grown*: it
stands as filters on the tower of the sequence, and these layers are its own.

To whoever asks a budding pipeline, it already is the tower of its filters on a sequence at its beginning.
-/

set_option autoImplicit false

namespace FirstSeen

namespace Store

variable {D : Item → Prop} {aside : Option CursorId} {multi : Bool}

/-! ## Building on a sequence -/

/-- Applying steps in turn to a chain puts new layers on it. -/
theorem applyAll_joined {store : Store} {n : Nat} {id : SequenceId} {ids : List SequenceId} {tower : Tower}
    {steps : List Value} (stands : store.Stands D aside multi id ids tower)
    (sound : ∀ step ∈ steps, store.SoundStep D multi step) (deep : steps.length + tower.height ≤ n) :
    ∃ top layers after, ((calls (n + 1)).applyAll steps (.ofSequence id)).from? store = (.ok (.ofSequence top), after) ∧
      after.Stands D aside multi top (layers ++ ids) (.filters (steps.map (store.ruleOfStep multi)) tower) ∧
      layers.length = steps.length ∧ (∀ layer ∈ layers, store.sequences.size ≤ layer.index) ∧ store.Works [] after := by
  induction steps generalizing store id ids tower with
  | nil => exact ⟨id, [], store, rfl, stands, rfl, by simp, .refl [] store⟩
  | cons step rest ih =>
    simp only [List.length_cons] at deep
    obtain ⟨state, limit, ends, -, stands'⟩ := apply_joined stands (sound step List.mem_cons_self) (n := n) (by omega)
    have works := works_joined store state []
    have sound' : ∀ other ∈ rest, (store.joined state).SoundStep D multi other ∧
        (store.joined state).ruleOfStep multi other = store.ruleOfStep multi other := fun other member =>
      works.grows.soundStep (sound other (List.mem_cons_of_mem _ member))
    obtain ⟨top, layers, after, ends', stands'', many, new, works'⟩ := ih stands'
      (fun other member => (sound' other member).1) (by rw [Tower.height]; omega)
    have rules : rest.map ((store.joined state).ruleOfStep multi) = rest.map (store.ruleOfStep multi) :=
      List.map_congr_left fun other member => (sound' other member).2
    rw [rules, List.append_cons] at stands''
    refine ⟨top, layers ++ [⟨store.sequences.size⟩], after, ?_, stands'', by simp [many], fun layer member => ?_,
      works.trans works'⟩
    · rw [Calls.applyAll, Run.from?_bind_ok ends]
      exact ends'
    · rcases List.mem_append.mp member with above | last
      · exact Nat.le_trans works.size (new layer above)
      · obtain rfl := List.mem_singleton.mp last
        exact Nat.le_refl _

/-- Whether a pipeline that is bound to a sequence was not built yet, and where its own pass is. -/
structure Buds (D : Item → Prop) (multi : Bool) (store : Store) (base : SequenceId) (steps : ListId) (rules : List Rule)
    (p : SequenceId) (pass : Pass) : Prop where
  passes : store.Passes D p pass
  form : (store.sequence p).body = .pipeline steps (.ofSequence base) .null
  lists : store.Lists D multi steps rules

theorem Buds.later {store after : Store} {base p : SequenceId} {steps : ListId} {rules : List Rule} {pass : Pass}
    (buds : store.Buds D multi base steps rules p pass) (grows : store.Grows after)
    (size : store.sequences.size ≤ after.sequences.size) (same : after.sequence p = store.sequence p) :
    after.Buds D multi base steps rules p pass :=
  ⟨buds.passes.later grows size same, by rw [same, buds.form], buds.lists.later grows⟩

/-- The output of a budding pipeline is built on its sequence, which is taken back to its beginning if it was started. -/
theorem Buds.outputOf {store : Store} {base p : SequenceId} {ids : List SequenceId} {steps : ListId} {rules : List Rule}
    {pass : Pass} {below : Tower} {n : Nat} (buds : store.Buds D multi base steps rules p pass) (apart : p ∉ ids)
    (stands : store.Stands D aside multi base ids below) (returns : below.restart.1 = none)
    (deep : rules.length + below.height + 1 ≤ n) :
    ∃ out layers built, ((calls n).outputOf p .null).from? store = (.ok (.ofSequence out), built) ∧
      (built.sequence p).body = .pipeline steps (.ofSequence base) (.ofSequence out) ∧
      built.Stands D aside multi p (p :: (layers ++ ids)) (.passage pass (.filters rules below.restart.2)) ∧
      layers.length = rules.length ∧ (∀ layer ∈ layers, store.sequences.size ≤ layer.index) ∧
      store.Works (p :: ids) built := by
  obtain ⟨n, rfl⟩ : ∃ k, n = k + 1 := ⟨n - 1, by omega⟩
  obtain ⟨passes, form, lists⟩ := buds
  -- The sequence is taken back.
  obtain ⟨begun, begins, ⟨stands', works⟩, -⟩ := (tracks_stands store base ids).restart ⟨stands, .refl ids store⟩
    (n := n + 1) (by omega)
  rw [returns] at begins
  obtain ⟨same, passes'⟩ := works.passes apart passes
  have height := Tower.height_restart below
  -- The steps are applied to it.
  have lists' := lists.later works.grows
  have listed := works.grows.list lists.inside
  obtain ⟨top, layers, after, ends, stands'', many, new, works'⟩ := applyAll_joined (n := n) stands' lists'.sound (by
    rw [height, ← List.length_map (begun.ruleOfStep multi), ← lists'.rules]
    omega)
  rw [← lists'.rules] at stands''
  obtain ⟨same', passes''⟩ := works'.passes (List.not_mem_nil) passes'
  have built : ((calls (n + 1)).buildFor p .null).from? store = (.ok (.ofSequence top), after) := by
    have given : (Run.toSequence (.ofSequence base) (.bool (store.sequence p).multiValue)).from? store =
        (.ok base, store) := rfl
    have unfolded : ((calls (n + 1)).buildFor p .null).from? store =
        ((if (store.sequence base).started then (calls (n + 1)).rewind base else pure ()) >>= fun _ => do
          (calls (n + 1)).applyAll (← Run.list steps) (.ofSequence base)).from? store := by
      rw [from?_buildFor form rfl, Calls.build, Run.from?_bind_ok given, Run.from?_bind_ok (Run.from?_sequence ..)]
      split <;> rfl
    rw [unfolded, Run.from?_bind_ok begins, Run.from?_bind_ok (Run.from?_list ..)]
    exact ends
  -- The pipeline keeps them as its output.
  let keep := SequenceState.keeping (.ofSequence top)
  have there := sequence_updated (f := keep) passes''.inside
  have kept : keep (after.sequence p) =
      { store.sequence p with body := .pipeline steps (.ofSequence base) (.ofSequence top) } := by
    rw [same', same]
    exact SequenceState.keeping_pipeline form
  rw [kept] at there
  have apart' : p ∉ layers ++ ids := fun member => (List.mem_append.mp member).elim
    (fun above => absurd passes'.inside (Nat.not_lt.mpr (new p above))) apart
  have grows := grows_updated after p keep
  have inside := passes''.inside
  have here : (after.updated p keep).Passes D p pass := by
    refine ⟨by simpa using inside, by rw [there, passes.started], by rw [there, passes.exhausted], ?_⟩
    rw [there]
    exact ((works.grows.trans works'.grows).trans grows).peeks passes.peeked
  refine ⟨top, layers, after.updated p keep, ?_, by rw [there], ?_, ?_, fun layer member => ?_, ?_⟩
  · rw [Calls.outputOf]
    simp only [Value.isNull, if_true]
    rw [Run.from?_bind_ok built]
    rfl
  · exact .passage here (by rw [there]) rfl apart' (stands''.spared (spares_updated apart'))
  · rw [many, lists'.rules, List.length_map]
  · exact Nat.le_trans works.size (new layer member)
  · exact ((works.mono fun _ member => List.mem_cons_of_mem _ member).trans
      (works'.mono fun _ member => absurd member List.not_mem_nil)).trans (works_updated List.mem_cons_self)

/-! ## Asking -/

/-- Whether a pipeline stands as a tower, with so many layers of its own on a chain, where only the pipeline, the chain and
new sequences have changed since a store. -/
def Grown (D : Item → Prop) (aside : Option CursorId) (multi : Bool) (first : Store) (p : SequenceId)
    (ids : List SequenceId) (many : Nat) (store : Store) (tower : Tower) : Prop :=
  ∃ layers : List SequenceId, (layers.length = many ∧ ∀ layer ∈ layers, first.sequences.size ≤ layer.index) ∧
    store.Stands D aside multi p (p :: (layers ++ ids)) tower ∧ first.Works (p :: (layers ++ ids)) store

/-- Whether a pipeline buds on a chain and only the pipeline has changed since a store, and its tower is that of its filters
on the tower that the chain is at its beginning. -/
structure Budding (D : Item → Prop) (aside : Option CursorId) (multi : Bool) (first : Store) (base p : SequenceId)
    (ids : List SequenceId) (steps : ListId) (rules : List Rule) (below start : Tower) (store : Store) (tower : Tower) :
    Prop where
  tower : tower = .passage {} (.filters rules start)
  buds : store.Buds D multi base steps rules p {}
  stands : store.Stands D aside multi base ids below
  works : first.Works [p] store

section Asking

variable {first store : Store} {base p : SequenceId} {ids : List SequenceId} {steps : ListId} {rules : List Rule}
  {below start tower : Tower} {n : Nat}

/-- A pipeline that stands was built. -/
theorem Stands.built {id : SequenceId} {input : Value} (stands : store.Stands D aside multi id ids tower) :
    (store.sequence id).body ≠ .pipeline steps input .null := by
  intro form
  cases stands with
  | ground passes flag backs =>
    have ground := backs.ground
    rw [form] at ground
    cases ground
  | passage passes body bound apart rest =>
    rw [form] at body
    cases body
  | filter passes flag body sound data rule_eq apart rest =>
    rw [form] at body
    cases body

/-- Building what buds gives a pipeline that is grown. -/
theorem Buds.grown {pass : Pass} (buds : store.Buds D multi base steps rules p pass) (apart : p ∉ ids)
    (stands : store.Stands D aside multi base ids below) (returns : below.restart = (none, start))
    (works : first.Works [p] store) (deep : rules.length + below.height + 1 ≤ n) :
    ∃ out built, ((calls n).outputOf p .null).from? store = (.ok (.ofSequence out), built) ∧
      (built.sequence p).body = .pipeline steps (.ofSequence base) (.ofSequence out) ∧
      Grown D aside multi first p ids rules.length built (.passage pass (.filters rules start)) ∧ store.Keeps built := by
  obtain ⟨out, layers, built, ends, body, stands', many, new, works'⟩ := buds.outputOf apart stands (by rw [returns]) deep
  rw [returns] at stands'
  have works'' : first.Works (p :: (layers ++ ids)) built := by
    refine (works.mono fun id member => ?_).trans (works'.mono fun id member => ?_)
    · exact List.mem_cons.mpr (.inl (List.mem_singleton.mp member))
    · exact List.mem_cons.mpr ((List.mem_cons.mp member).imp_right (List.mem_append_right layers))
  exact ⟨out, built, ends, body, ⟨layers, ⟨many, fun layer member => Nat.le_trans works.size (new layer member)⟩, stands',
    works''⟩, works'.keeps⟩

/-- Asking a pipeline that is grown leaves it grown. -/
theorem tracks_grown (first : Store) (p : SequenceId) (ids : List SequenceId) (many : Nat) :
    Tracks D multi (fun k => (first.cursor k).isStream = false) p (Grown D aside multi first p ids many)
      (Grown D aside multi first p ids many) where
  holds := id
  passes := fun ⟨_, _, related⟩ => (tracks_stands first p _).passes related
  new := fun ⟨_, _, related⟩ => (tracks_stands first p _).new related
  spared := fun ⟨layers, are, related⟩ spares still => ⟨layers, are, (tracks_stands first p _).spared related spares still⟩
  stays := fun ⟨layers, are, related⟩ spares still => ⟨layers, are, (tracks_stands first p _).spared related spares still⟩
  next := fun ⟨layers, are, related⟩ deep => ((tracks_stands first p _).next related deep).further
    fun _ ⟨related', keeps⟩ => ⟨⟨layers, are, related'⟩, keeps⟩
  draws := fun n _ _ ⟨layers, are, related⟩ => ((tracks_stands first p _).draws n related).further
    fun _ ⟨related', keeps⟩ => ⟨⟨layers, are, related'⟩, keeps⟩
  ahead := fun ⟨layers, are, related⟩ shows' => ⟨layers, are, (tracks_stands first p _).ahead related shows'⟩
  rewind := fun ⟨layers, are, related⟩ deep =>
    let ⟨after, ends, related', keeps⟩ := (tracks_stands first p _).rewind related deep
    ⟨after, ends, ⟨layers, are, related'⟩, keeps⟩
  flag := fun ⟨layers, are, related⟩ deep =>
    let ⟨after, ends, related', keeps⟩ := (tracks_stands first p _).flag related deep
    ⟨after, ends, ⟨layers, are, related'⟩, keeps⟩
  size := fun ⟨layers, are, related⟩ deep =>
    let ⟨after, ends, related', keeps⟩ := (tracks_stands first p _).size related deep
    ⟨after, ends, ⟨layers, are, related'⟩, keeps⟩

theorem Budding.spared {after : Store} (budding : Budding D aside multi first base p ids steps rules below start store tower)
    (spares : ∀ ids, store.Spares ids after)
    (still : ∀ k, ¬ (first.cursor k).isStream = false → after.cursor k = store.cursor k) :
    Budding D aside multi first base p ids steps rules below start after tower :=
  ⟨budding.tower, budding.buds.later (spares [p]).grows (spares [p]).size ((spares [p]).same p List.mem_cons_self),
    budding.stands.spared (spares ids), budding.works.spared spares still⟩

/-- Asking a pipeline that buds for its next element ends as for its tower, and leaves it grown. -/
theorem Budding.next (budding : Budding D aside multi first base p ids steps rules below start store tower) (apart : p ∉ ids)
    (returns : below.restart = (none, start)) (deep : 4 * tower.height ≤ n) :
    EndsLike (fun after v item => after.Shows D item v)
      (fun after left => Grown D aside multi first p ids rules.length after left ∧ store.Keeps after)
      (((calls n).next p).from? store) (tower.next n) := by
  obtain ⟨rfl, buds, stands, works⟩ := budding
  have height : start.height = below.height := by rw [← Tower.height_restart below, returns]
  simp only [Tower.height, Tower.height_filters] at deep
  obtain ⟨n, rfl⟩ : ∃ k, n = k + 2 := ⟨n - 2, by omega⟩
  -- The pipeline is built once it is started.
  let begin (state : SequenceState) : SequenceState := { state with started := true }
  have there := sequence_updated (f := begin) buds.passes.inside
  have begun : store.Works [p] (store.updated p begin) := works_updated List.mem_cons_self
  have buds' : (store.updated p begin).Buds D multi base steps rules p { started := true } :=
    ⟨buds.passes.begun, by rw [there]; exact buds.form, buds.lists.later begun.grows⟩
  have stands' : (store.updated p begin).Stands D aside multi base ids below := stands.spared (spares_updated apart)
  obtain ⟨out, built, ends, body, ⟨layers, are, stands'', works'⟩, keeps⟩ := buds'.grown (n := n) apart stands' returns
    (works.trans begun) (by omega)
  rw [from?_next_unbuilt buds.passes buds.form ends body]
  have settled := settle_stands ((next_pull_stands (n + 1)).2 _ _ _ _ stands'')
  refine settled.like.further fun left rested => ?_
  obtain ⟨stands, works''⟩ := rested
  exact ⟨⟨layers, are, stands, works'.trans works''⟩, begun.keeps.trans (keeps.trans works''.keeps)⟩

/-- Taking a pipeline back that buds changes nothing. -/
theorem Budding.rewind (budding : Budding D aside multi first base p ids steps rules below start store tower)
    (fresh : start.Fresh) (deep : tower.height ≤ n) :
    ∃ after, ((calls n).rewind p).from? store = (.ok (), after) ∧ tower.rewind = (none, tower) ∧
      Budding D aside multi first base p ids steps rules below start after tower ∧ store.Keeps after := by
  obtain ⟨n, rfl⟩ : ∃ k, n = k + 1 := ⟨n - 1, by have := tower.height_pos; omega⟩
  obtain ⟨after, ends, spares, cursors⟩ := rewind_unbuilt budding.buds.passes budding.buds.form n
  have still : ∀ k, after.cursor k = store.cursor k := fun k => by simp only [Store.cursor, cursors]
  have idle : tower.Fresh := by
    rw [budding.tower]
    exact ⟨rfl, Tower.fresh_filters fresh⟩
  exact ⟨after, ends, idle.rewind, budding.spared spares fun k _ => still k, (spares []).grows, fun k _ => still k⟩

/-- A question that a budding pipeline passes on to its output is answered as by one that was built before. -/
theorem Budding.woken (budding : Budding D aside multi first base p ids steps rules below start store tower)
    (apart : p ∉ ids) (returns : below.restart = (none, start)) (deep : 4 * tower.height ≤ n) :
    ∃ built, Grown D aside multi first p ids rules.length built tower ∧ store.Keeps built ∧
      ((calls n).size p).from? store = ((calls n).size p).from? built ∧
      ((calls n).isMulti p).from? store = ((calls n).isMulti p).from? built := by
  obtain ⟨rfl, buds, stands, works⟩ := budding
  have height : start.height = below.height := by rw [← Tower.height_restart below, returns]
  simp only [Tower.height, Tower.height_filters] at deep
  obtain ⟨n, rfl⟩ : ∃ k, n = k + 1 := ⟨n - 1, by omega⟩
  obtain ⟨out, built, ends, body, grown, keeps⟩ := buds.grown (n := n) apart stands returns works (by omega)
  exact ⟨built, grown, keeps, from?_questions_unbuilt buds.form rfl ends body⟩

/-- Whatever is asked of a pipeline that buds, it goes on budding or is grown. -/
theorem tracks_branch (apart : p ∉ ids) (returns : below.restart = (none, start)) (fresh : start.Fresh) :
    Tracks D multi (fun k => (first.cursor k).isStream = false) p
      (fun store tower => Grown D aside multi first p ids rules.length store tower ∨
        Budding D aside multi first base p ids steps rules below start store tower)
      (Grown D aside multi first p ids rules.length) where
  holds := .inl
  passes
    | .inl grown => (tracks_grown first p ids rules.length).passes grown
    | .inr budding => by
      rw [budding.tower]
      exact budding.buds.passes
  new
    | .inl grown => (tracks_grown first p ids rules.length).new grown
    | .inr budding => budding.works.notStream_new
  spared
    | .inl grown, spares, still => .inl ((tracks_grown first p ids rules.length).spared grown spares still)
    | .inr budding, spares, still => .inr (budding.spared spares still)
  stays := (tracks_grown first p ids rules.length).stays
  next
    | .inl grown, deep => (tracks_grown first p ids rules.length).next grown deep
    | .inr budding, deep => budding.next apart returns deep
  draws := (tracks_grown first p ids rules.length).draws
  ahead := (tracks_grown first p ids rules.length).ahead
  rewind
    | .inl grown, deep =>
      let ⟨after, ends, grown', keeps⟩ := (tracks_grown first p ids rules.length).rewind grown deep
      ⟨after, ends, .inl grown', keeps⟩
    | .inr budding, deep => by
      obtain ⟨after, ends, same, budding', keeps⟩ := budding.rewind fresh deep
      rw [same]
      exact ⟨after, ends, .inr budding', keeps⟩
  flag
    | .inl grown, deep => (tracks_grown first p ids rules.length).flag grown deep
    | .inr budding, deep => by
      obtain ⟨built, grown, keeps, -, asks⟩ := budding.woken apart returns deep
      obtain ⟨after, ends, grown', keeps'⟩ := (tracks_grown first p ids rules.length).flag grown deep
      exact ⟨after, asks.trans ends, grown', keeps.trans keeps'⟩
  size
    | .inl grown, deep => (tracks_grown first p ids rules.length).size grown deep
    | .inr budding, deep => by
      obtain ⟨built, grown, keeps, asks, -⟩ := budding.woken apart returns deep
      obtain ⟨after, ends, grown', keeps'⟩ := (tracks_grown first p ids rules.length).size grown deep
      exact ⟨after, asks.trans ends, grown', keeps.trans keeps'⟩

end Asking

end Store

end FirstSeen
