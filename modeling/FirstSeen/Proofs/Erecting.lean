import FirstSeen.Proofs.Marching
import FirstSeen.Proofs.Remaining
import FirstSeen.Proofs.Tower.Raw

/-!
# Erecting a column

On first use a pipeline over data, or over a factory, erects the column that it is the top of: a sequence at the ground, and on
it one stage for each of its steps. Nothing refers to what was just made, so a column can be erected among what is enclosed
already, and is enclosed with it.
-/

set_option autoImplicit false

namespace FirstSeen

namespace Store

variable {ids ids' : List SequenceId} {streams streams' : List CursorId} {chain rest : List SequenceId}
  {id p supply : SequenceId} {store left after : Store}

/-! ## Enclosing more -/

/-- What was not there before is hidden, too, as soon as it is there. -/
theorem Hides.wider {hidden more : Ref → Prop} (hides : store.Hides hidden) (whole : store.Whole)
    (wider : ∀ ref, hidden ref → more ref) (new : ∀ ref, more ref → hidden ref ∨ store.Lacks ref)
    {sequences : Array SequenceState} {cursors : Array Cursor}
    (sequence : ∀ id, ¬more (.sequence id) →
      ({ store with sequences := sequences, cursors := cursors } : Store).sequence id = store.sequence id)
    (cursor : ∀ id, ¬more (.cursor id) →
      ({ store with sequences := sequences, cursors := cursors } : Store).cursor id = store.cursor id)
    (sequenceThere : ∀ id, more (.sequence id) → id.index < sequences.size)
    (cursorThere : ∀ id, more (.cursor id) → id.index < cursors.size)
    (datumThere : ∀ id, more (.datum id) → id.index < store.data.size)
    (listThere : ∀ id, more (.list id) → id.index < store.lists.size) :
    ({ store with sequences := sequences, cursors := cursors } : Store).Hides more where
  sequence id free := by
    rw [sequence id free]
    exact (hides.sequence id fun held => free (wider _ held)).both new (whole.sequence id)
  cursor id free := by
    rw [cursor id free]
    exact (hides.cursor id fun held => free (wider _ held)).both new (whole.cursor id)
  datum id free := (hides.datum id fun held => free (wider _ held)).both new (whole.datum id)
  list id free v member := (hides.list id (fun held => free (wider _ held)) v member).both new (whole.list id v member)
  source id free := (hides.source id fun held => free (wider _ held)).both new (whole.source id)
  key id free := (hides.key id fun held => free (wider _ held)).both new (whole.key id)
  step id free := (hides.step id fun held => free (wider _ held)).both new (whole.step id)
  sequenceThere := sequenceThere
  cursorThere := cursorThere
  datumThere := datumThere
  listThere := listThere

/-- A new sequence is enclosed with what is enclosed already. -/
theorem Encloses.joined (encloses : store.Encloses ids streams) {state : SequenceState} (known : state.Avoids store.Lacks)
    (members : ∀ id, id ∈ ids' ↔ id = ⟨store.sequences.size⟩ ∨ id ∈ ids) :
    (store.joined state).Encloses ids' streams ∧ store.GrowsTo (store.joined state) := by
  obtain ⟨grows, whole, -⟩ := Run.whole_newSequence known store store.growsTo_refl encloses.whole
  have new : ∀ id, id ≠ ⟨store.sequences.size⟩ → (store.joined state).sequence id = store.sequence id := by
    intro id apart
    have apart' : id.index ≠ store.sequences.size := fun same => apart (by cases id; exact congrArg _ same)
    exact (getD_push store.sequences state default id.index).trans (if_neg apart')
  refine ⟨⟨?_, whole⟩, grows⟩
  refine encloses.hides.wider encloses.whole ?_ ?_ ?_ (fun _ _ => rfl) ?_ encloses.hides.cursorThere nofun nofun
  · intro ref held
    cases ref with
    | sequence id => exact (members id).mpr (.inr held)
    | cursor id => exact held
    | _ => exact held.elim
  · intro ref held
    cases ref with
    | sequence id =>
      rcases (members id).mp held with rfl | held
      · exact .inr (Nat.le_refl _)
      · exact .inl held
    | cursor id => exact .inl held
    | _ => exact held.elim
  · exact fun id free => new id fun same => free ((members id).mpr (.inl same))
  · intro id held
    rw [Array.size_push]
    rcases (members id).mp held with rfl | held
    · exact Nat.lt_succ_self _
    · exact Nat.lt_succ_of_lt (encloses.hides.sequenceThere id held)

/-- A new stream is enclosed with what is enclosed already. -/
theorem Encloses.streaming (encloses : store.Encloses ids streams) {cursor : Cursor} (known : cursor.Avoids store.Lacks) :
    ({ store with cursors := store.cursors.push cursor } : Store).Encloses ids (streams ++ [⟨store.cursors.size⟩]) ∧
      store.GrowsTo { store with cursors := store.cursors.push cursor } := by
  obtain ⟨grows, whole, -⟩ := Run.whole_newCursor known store store.growsTo_refl encloses.whole
  refine ⟨⟨?_, whole⟩, grows⟩
  refine encloses.hides.wider encloses.whole ?_ ?_ (fun _ _ => rfl) ?_ encloses.hides.sequenceThere ?_ nofun nofun
  · intro ref held
    cases ref with
    | sequence id => exact held
    | cursor id => exact List.mem_append_left _ held
    | _ => exact held.elim
  · intro ref held
    cases ref with
    | sequence id => exact .inl held
    | cursor id =>
      rcases List.mem_append.mp held with held | held
      · exact .inl held
      · rw [List.mem_singleton.mp held]
        exact .inr (Nat.le_refl _)
    | _ => exact held.elim
  · intro id free
    have apart : id.index ≠ store.cursors.size := fun same =>
      free (List.mem_append_right _ (by cases id; simpa using congrArg CursorId.mk same))
    exact (getD_push store.cursors cursor default id.index).trans (if_neg apart)
  · intro id held
    rw [Array.size_push]
    rcases List.mem_append.mp held with held | held
    · exact Nat.lt_succ_of_lt (encloses.hides.cursorThere id held)
    · rw [List.mem_singleton.mp held]
      exact Nat.lt_succ_self _

/-- A chain is one among more, if its bodies are as they were. -/
theorem Stack.wider (stack : store.Stack ids streams chain) (whole : store.Whole)
    (new : ∀ ref, Ref.Among ids' streams' ref → Ref.Among ids streams ref ∨ store.Lacks ref)
    (same : ∀ id ∈ chain, (after.sequence id).body = (store.sequence id).body) : after.Stack ids' streams' chain := by
  induction stack with
  | iterable form avoids =>
    exact .iterable ((same _ (by simp)).trans form) (avoids.both new (form ▸ (whole.sequence _).body))
  | produced form avoids =>
    exact .produced ((same _ (by simp)).trans form) (avoids.both new (form ▸ (whole.sequence _).body))
  | distinct form avoids _ ih =>
    have known : (Body.distinct ..).Avoids store.Lacks := form ▸ (whole.sequence _).body
    exact .distinct ((same _ (by simp)).trans form) (avoids.both new known.2)
      (ih fun id member => same id (List.mem_cons_of_mem _ member))
  | pipeline form _ ih =>
    exact .pipeline ((same _ (by simp)).trans form) (ih fun id member => same id (List.mem_cons_of_mem _ member))

/-! ## The parts of a column -/

/-- What a new sequence may be made of, above a chain. -/
inductive Crowns (hidden : Ref → Prop) : Body → List SequenceId → Prop
  | iterable {data : Value} (avoids : data.Avoids hidden) : Crowns hidden (.iterable data none) []
  | produced {factory size : Value} (avoids : factory.Avoids hidden) : Crowns hidden (.produced factory size none) []
  | distinct {supply : SequenceId} {rest : List SequenceId} {key limit : Value} (avoids : key.Avoids hidden) :
    Crowns hidden (.distinct supply key limit .empty) (supply :: rest)

/-- What is erected for a pipeline: a chain of new sequences to which nothing has happened yet. -/
structure Erects (p : SequenceId) (streams : List CursorId) (chain : List SequenceId) (store after : Store) : Prop where
  encloses : after.Encloses (p :: chain) streams
  stack : chain ≠ [] → after.Stack (p :: chain) streams chain
  nodup : (p :: chain).Nodup
  abreast : after.Abreast chain false false
  plain : ∀ id ∈ chain, (after.sequence id).body.kind ≠ .pipeline
  adds : ∃ states, after = { store with sequences := store.sequences ++ states }

theorem erects_nothing (encloses : store.Encloses [p] streams) : Erects p streams [] store store :=
  ⟨encloses, fun some => absurd rfl some, List.nodup_singleton p, by simp [Abreast], by simp, #[], by simp⟩

/-- A sequence is erected on what was erected before. -/
theorem Erects.topped (erects : Erects p streams chain store left) {body : Body} {multi : Bool}
    (crowns : Crowns (Ref.Among (p :: chain) streams) body chain) (known : body.Avoids left.Lacks) :
    Erects p streams (⟨left.sequences.size⟩ :: chain) store (left.joined { body := body, multiValue := multi }) := by
  let top : SequenceId := ⟨left.sequences.size⟩
  let state : SequenceState := { body := body, multiValue := multi }
  have there : ∀ id ∈ p :: chain, id.index < left.sequences.size := erects.encloses.hides.sequenceThere
  have apart : top ∉ p :: chain := fun member => Nat.lt_irrefl _ (there top member)
  have members : ∀ id, id ∈ p :: top :: chain ↔ id = top ∨ id ∈ p :: chain := fun id => by
    simp only [List.mem_cons]
    tauto
  obtain ⟨encloses, grows⟩ := erects.encloses.joined (show state.Avoids left.Lacks from ⟨known, by simp [state]⟩) members
  have new : ∀ ref, Ref.Among (p :: top :: chain) streams ref → Ref.Among (p :: chain) streams ref ∨ left.Lacks ref := by
    intro ref held
    cases ref with
    | sequence id =>
      rcases (members id).mp held with rfl | held
      · exact .inr (Nat.le_refl _)
      · exact .inl held
    | cursor id => exact .inl held
    | _ => exact held.elim
  have made : (left.joined state).sequence top = state := sequence_joined_new left state
  have same : ∀ id ∈ p :: chain, (left.joined state).sequence id = left.sequence id := fun id member =>
    sequence_joined (there id member)
  refine ⟨encloses, fun _ => ?_, ?_, List.forall_mem_cons.mpr ⟨made ▸ ⟨rfl, rfl, rfl⟩, ?_⟩,
    List.forall_mem_cons.mpr ⟨?_, fun id member => ?_⟩, ?_⟩
  · have form : ((left.joined state).sequence top).body = body := by rw [made]
    cases crowns with
    | iterable avoids => exact .iterable form ⟨avoids.both new known.1, fun _ same => by cases same⟩
    | produced avoids => exact .produced form ⟨avoids.both new known.1, fun _ same => by cases same⟩
    | distinct avoids =>
      refine .distinct form (avoids.both new known.2) ((erects.stack (by simp)).wider erects.encloses.whole new
        fun id member => ?_)
      rw [same id (List.mem_cons_of_mem _ member)]
  · have nodup := erects.nodup
    simp only [List.nodup_cons, List.mem_cons, not_or] at nodup apart ⊢
    exact ⟨⟨Ne.symm apart.1, nodup.1⟩, apart.2, nodup.2⟩
  · exact Abreast.congr erects.abreast fun id member => same id (List.mem_cons_of_mem _ member)
  · rw [made]
    cases crowns <;> nofun
  · rw [same id (List.mem_cons_of_mem _ member)]
    exact erects.plain id member
  · obtain ⟨states, rfl⟩ := erects.adds
    exact ⟨states.push state, by simp [joined, state]⟩

/-- Whether data are no sequence, but can be taken for one. -/
structure Usable (store : Store) (data : Value) : Prop where
  noSequence : ∀ id, data ≠ .object (.sequence id)
  opens : store.isIterable data = true ∨ store.isCallable data = true

/-- Data are some data. -/
theorem Usable.isNull {data : Value} (usable : store.Usable data) : data.isNull = false := by
  cases data with
  | null => rcases usable.opens with opens | opens <;> cases opens
  | _ => rfl

/-- Whether data are usable depends on sources and on what stays as it is. -/
theorem Usable.outward {data : Value} (usable : store.Usable data)
    (iterable : after.isIterable data = store.isIterable data) (callable : after.isCallable data = store.isCallable data) :
    after.Usable data := ⟨usable.noSequence, by rw [iterable, callable]; exact usable.opens⟩

/-- A pipeline that was not built yet: nothing refers to it, and its steps make distinct stages on data that can be taken for a
sequence. -/
structure Planned (p : SequenceId) (streams : List CursorId) (steps : ListId) (data : Value) (store : Store) : Prop where
  encloses : store.Encloses [p] streams
  form : (store.sequence p).body = .pipeline steps data .null
  usable : store.Usable data
  avoids : data.Avoids (Ref.Among [p] streams)
  stages : ∀ step ∈ store.list steps, store.IsDistinct step

/-- What happens to the flags of a pipeline changes nothing of what is planned for it. -/
theorem Planned.updated {p : SequenceId} {steps : ListId} {data : Value} (planned : store.Planned p streams steps data)
    {f : SequenceState → SequenceState} (same : (f (store.sequence p)).body = (store.sequence p).body)
    (peeked : ∀ v, (f (store.sequence p)).peeked = some v → store.Knows v) :
    (store.updated p f).Planned p streams steps data := by
  have known := (planned.encloses.whole.sequence p).body
  refine ⟨(planned.encloses.updated (List.mem_singleton.mpr rfl) ⟨same ▸ known, peeked⟩).1, ?_,
    planned.usable.outward rfl rfl, planned.avoids, planned.stages⟩
  rw [sequence_updated (planned.encloses.hides.sequenceThere p (List.mem_singleton.mpr rfl)), same]
  exact planned.form

/-- What is built for a pipeline: a column of new sequences below it. -/
structure Raises (p : SequenceId) (streams : List CursorId) (rest : List SequenceId) (store after : Store) : Prop where
  column : after.Column (p :: rest) streams (p :: rest)
  abreast : after.Abreast rest false false
  top : ∃ body, after.sequence p = { store.sequence p with body := body }
  grows : store.GrowsTo after
  journal : after.journal = store.journal
  cursors : after.cursors = store.cursors

/-- A pipeline keeps what was erected for it. -/
theorem Erects.kept {p top : SequenceId} {steps : ListId} {data : Value} (erects : Erects p streams (top :: chain) store left)
    (planned : store.Planned p streams steps data) :
    Raises p streams (top :: chain) store (left.updated p (SequenceState.keeping (.ofSequence top))) ∧
      ((left.updated p (SequenceState.keeping (.ofSequence top))).sequence p).body =
        .pipeline steps data (.ofSequence top) := by
  obtain ⟨states, rfl⟩ := erects.adds
  let left : Store := { store with sequences := store.sequences ++ states }
  have there : p.index < left.sequences.size := erects.encloses.hides.sequenceThere p List.mem_cons_self
  have topThere : top.index < left.sequences.size :=
    erects.encloses.hides.sequenceThere top (List.mem_cons_of_mem _ List.mem_cons_self)
  have before : left.sequence p = store.sequence p := by
    have inside := planned.encloses.hides.sequenceThere p (List.mem_singleton.mpr rfl)
    simp [left, Store.sequence, Array.getD_eq_getD_getElem?, Array.getElem?_append_left inside]
  have kept : (left.sequence p).keeping (.ofSequence top) =
      { store.sequence p with body := .pipeline steps data (.ofSequence top) } := by
    rw [before, SequenceState.keeping_pipeline planned.form]
  have known := erects.encloses.whole.sequence p
  have knownBody : (Body.pipeline steps data .null).Avoids left.Lacks := by
    rw [← planned.form, ← before]
    exact known.body
  have state : (left.updated p (SequenceState.keeping (.ofSequence top))).sequence p =
      { store.sequence p with body := .pipeline steps data (.ofSequence top) } := (sequence_updated there).trans kept
  have others : ∀ id ∈ top :: chain,
      (left.updated p (SequenceState.keeping (.ofSequence top))).sequence id = left.sequence id := fun id member =>
    sequence_updated_ne fun same => (List.nodup_cons.mp erects.nodup).1 (same ▸ member)
  obtain ⟨encloses, grows⟩ := erects.encloses.updated (show p ∈ p :: top :: chain from List.mem_cons_self)
    (f := SequenceState.keeping (.ofSequence top)) (by
      rw [kept]
      exact ⟨⟨knownBody.1, knownBody.2.1, Value.avoids_object.mpr (Nat.not_le_of_lt topThere)⟩,
        before ▸ known.peeked⟩)
  refine ⟨⟨⟨encloses, .pipeline (by rw [state]) ((erects.stack (by simp)).congr others), erects.nodup, fun _ member => member⟩,
    Abreast.congr erects.abreast others, ⟨_, state⟩, GrowsTo.trans ?_ grows, rfl, rfl⟩, by rw [state]⟩
  exact growsTo_of_sizes (by simp) (Nat.le_refl _) (Nat.le_refl _) (Nat.le_refl _) (Nat.le_refl _) (Nat.le_refl _)
    (Nat.le_refl _) (Nat.le_refl _)

end Store

namespace Calls

open Run Store

variable {p supply : SequenceId} {streams : List CursorId} {chain rest : List SequenceId} {store left after : Store}
  {steps : ListId} {data : Value} {n : Nat} {ended : Except Halt Value}

/-- Data are erected at the ground. -/
theorem erects_ground (planned : store.Planned p streams steps data) (multi : Bool) :
    Erects p streams [⟨store.sequences.size⟩] store (store.joined { body := store.groundBody data, multiValue := multi }) := by
  have known : (Body.pipeline steps data .null).Avoids store.Lacks :=
    planned.form ▸ (planned.encloses.whole.sequence p).body
  have nothing := erects_nothing planned.encloses
  cases given : store.isIterable data with
  | true =>
    rw [groundBody_iterable given]
    exact nothing.topped (.iterable planned.avoids) ⟨known.2.1, fun _ same => by cases same⟩
  | false =>
    rw [groundBody_produced given]
    exact nothing.topped (.produced planned.avoids) ⟨known.2.1, fun _ same => by cases same⟩

/-- A distinct step puts a stage on a sequence that is no pipeline. -/
theorem apply_distinct {s : StepId} {key limit : Value} (found : store.step s = .distinct key limit)
    (plain : (store.sequence supply).body.kind ≠ .pipeline)
    (ends : ((quiet n).apply (.object (.step s)) (.ofSequence supply)).from? store = (ended, after))
    (enough : ended ≠ .error .outOfFuel) :
    ended = .ok (.ofSequence ⟨store.sequences.size⟩) ∧
      ∃ multi, after = store.joined { body := .distinct supply key limit .empty, multiValue := multi } := by
  match n with
  | 0 =>
    cases ends
    exact absurd rfl enough
  | 1 =>
    change ((quiet 0).applyWith (.object (.step s)) (.ofSequence supply)).from? store = _ at ends
    rw [applyWith, from?_bind_ok (from?_view ..), found] at ends
    cases ends
    exact absurd rfl enough
  | n + 2 =>
    have multi : ((quiet (n + 1)).isMulti supply).from? store = (.ok (store.sequence supply).multiValue, store) := by
      change ((quiet n).isMultiWith supply).from? store = _
      rw [isMultiWith, from?_bind_ok (from?_sequence ..)]
      split
      · rename_i form
        rw [form] at plain
        exact absurd rfl plain
      · rfl
    change ((quiet (n + 1)).applyWith (.object (.step s)) (.ofSequence supply)).from? store = _ at ends
    rw [applyWith, from?_bind_ok (from?_view ..), found] at ends
    simp only [newDistinct, bind_assoc] at ends
    rw [from?_bind_ok multi, from?_bind_ok (from?_newSequence ..)] at ends
    cases ends
    exact ⟨rfl, _, rfl⟩

/-- Distinct steps are erected one on the other. -/
theorem erects_applyAll {items : List Value} (erects : Erects p streams (supply :: rest) store left)
    (stages : ∀ step ∈ items, left.IsDistinct step)
    (ends : ((quiet n).applyAll items (.ofSequence supply)).from? left = (ended, after)) (enough : ended ≠ .error .outOfFuel) :
    ∃ top chain, ended = .ok (.ofSequence top) ∧ Erects p streams (top :: chain) store after ∧
      chain.length = rest.length + items.length := by
  induction items generalizing left supply rest with
  | nil =>
    cases ends
    exact ⟨supply, rest, rfl, erects, rfl⟩
  | cons step later ih =>
    obtain ⟨⟨s, key, limit, rfl, found⟩, others⟩ := List.forall_mem_cons.mp stages
    rw [applyAll] at ends
    have applied : ∀ {ended' left'}, ((quiet n).apply (.object (.step s)) (.ofSequence supply)).from? left = (ended', left') →
        ended' ≠ .error .outOfFuel → ended' = .ok (.ofSequence ⟨left.sequences.size⟩) ∧
          ∃ multi, left' = left.joined { body := .distinct supply key limit .empty, multiValue := multi } :=
      apply_distinct found (erects.plain supply List.mem_cons_self)
    rcases bind_ends ends with ⟨halt, stops, rfl⟩ | ⟨v, left', applies, ends⟩
    · cases (applied stops fun same => enough (by cases same; rfl)).1
    · obtain ⟨same, multi, rfl⟩ := applied applies (by simp)
      cases same
      have avoids : (Step.distinct key limit).Avoids (Ref.Among (p :: supply :: rest) streams) :=
        found ▸ erects.encloses.hides.step s fun held => by cases held
      have known : (Step.distinct key limit).Avoids left.Lacks := found ▸ erects.encloses.whole.step s
      have there := erects.encloses.hides.sequenceThere supply (show supply ∈ p :: supply :: rest by simp)
      obtain ⟨top, chain, same, erects', length⟩ := ih (erects.topped (.distinct avoids)
        ⟨fun lacks => Nat.not_le_of_lt there lacks, known⟩) others ends
      exact ⟨top, chain, same, erects', by rw [length, List.length_cons, List.length_cons]; omega⟩

/-- On first use a pipeline is built: a column below it is raised, with one stage for each step. -/
theorem raises_outputOf (planned : store.Planned p streams steps data)
    (ends : ((quiet n).outputOf p .null).from? store = (ended, after)) (enough : ended ≠ .error .outOfFuel) :
    ∃ top chain, ended = .ok (.ofSequence top) ∧ Raises p streams (top :: chain) store after ∧
      (after.sequence p).body = .pipeline steps data (.ofSequence top) ∧ chain.length = (store.list steps).length := by
  have built : ∀ {ended' left}, ((quiet n).buildFor p .null).from? store = (ended', left) → ended' ≠ .error .outOfFuel →
      ∃ top chain, ended' = .ok (.ofSequence top) ∧ Erects p streams (top :: chain) store left ∧
        chain.length = (store.list steps).length := by
    intro ended' left builds enough'
    have given : (ofExcept (inputOf .null data)).from? store = (.ok data, store) := by
      rw [from?_ofExcept, inputOf, planned.usable.isNull]
      rfl
    have taken := from?_toSequence_usable planned.usable.noSequence planned.usable.opens (store.sequence p).multiValue
    rw [Calls.buildFor, from?_bind_ok (from?_sequence ..), planned.form] at builds
    simp only at builds
    rw [from?_bind_ok given, Calls.build, from?_bind_ok taken] at builds
    -- The new sequence was not started.
    let state : SequenceState := { body := store.groundBody data, multiValue := (store.sequence p).multiValue }
    change (Run.sequence ⟨store.sequences.size⟩ >>= _).from? (store.joined state) = _ at builds
    rw [from?_bind_ok (from?_sequence ..), sequence_joined_new] at builds
    obtain ⟨top, chain, same, erects, length⟩ := erects_applyAll (erects_ground planned _) planned.stages builds enough'
    exact ⟨top, chain, same, erects, by simpa using length⟩
  change (do
    let output ← (quiet n).buildFor p .null
    keepOutput p output
    return output : Run Value).from? store = _ at ends
  rcases bind_ends ends with ⟨halt, stops, rfl⟩ | ⟨v, left, builds, ends⟩
  · obtain ⟨top, chain, same, -⟩ := built stops fun same => enough (by cases same; rfl)
    cases same
  · obtain ⟨top, chain, same, erects, length⟩ := built builds (by simp)
    cases same
    cases ends
    obtain ⟨raises, form⟩ := erects.kept planned
    exact ⟨top, chain, rfl, raises, form, length⟩

/-- The first pull of a pipeline builds the column below it, and asks that for an element. -/
theorem pull_planned (planned : store.Planned p streams steps data)
    (ends : ((quiet n).pull p).from? store = (ended, after)) (enough : ended ≠ .error .outOfFuel) :
    ∃ below mid output, below.length = (store.list steps).length + 1 ∧ Raises p streams below store mid ∧
      (mid.sequence p).body = .pipeline steps data output ∧
      Hands (p :: below) streams (p :: below) below ended mid after ∧
      ∃ body, after.sequence p = { store.sequence p with body := body } := by
  cases n with
  | zero =>
    cases ends
    exact absurd rfl enough
  | succ n =>
    change ((quiet n).pullQuietly p).from? store = _ at ends
    rw [Calls.pullQuietly, from?_bind_ok (from?_sequence ..), planned.form] at ends
    simp only at ends
    rw [pullWith, from?_bind_ok (from?_sequence ..), planned.form] at ends
    simp only [pullPipeline] at ends
    rcases bind_ends ends with ⟨halt, stops, rfl⟩ | ⟨v, mid, raises, ends⟩
    · obtain ⟨top, chain, same, -⟩ := raises_outputOf planned stops fun same => enough (by cases same; rfl)
      cases same
    · obtain ⟨top, chain, same, raised, form, length⟩ := raises_outputOf planned raises (by simp)
      cases same
      obtain ⟨hands, body, state⟩ := (inStep_quiet _ streams n).nextBelow raised.column form raised.abreast ends enough
      obtain ⟨body', state'⟩ := raised.top
      exact ⟨top :: chain, mid, _, by simp [length], raised, form, hands, body, by rw [state, state']⟩

end Calls

end FirstSeen
