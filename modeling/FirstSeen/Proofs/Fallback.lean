import FirstSeen.Proofs.Laps
import FirstSeen.Proofs.Limiting
import FirstSeen.Proofs.Programs
import FirstSeen.Proofs.Remaining
import FirstSeen.Proofs.Forgetting

/-!
# Falling back to the list

A stage tells that it falls back to the list where a key reaches the list while that is empty. If the limit is a number and the
warning of an empty list is not raised, that key gets into the list, so that nothing of the kind is told again before the list
is cleared. It is cleared only where the stage tells that it met its end or begins again.
-/

set_option autoImplicit false

namespace FirstSeen

/-- What a notice tells of the list of a stage: that it comes into use (`true`), or that it is cleared (`false`). -/
def Notice.listing? (stage : SequenceId) : Notice → Option Bool
  | .listLookup other _ => if other = stage then some true else none
  | .exhausted other _ | .rewound other _ => if other = stage then some false else none
  | .limitReached _ => none

/-- What is told of another sequence does not matter to the list of a stage. -/
theorem Notice.listing?_aside {stage : SequenceId} {notice : Notice} (apart : notice.subject ≠ stage) :
    notice.listing? stage = none := by
  cases notice <;> simp_all [Notice.listing?, Notice.subject]

/-- What recording a key has to tell of the list. -/
def SeenNotice.listing? : SeenNotice → Option Bool
  | .listLookup => some true
  | .limitReached => none

/-- Whether there are keys in the list. -/
def Seen.isListing (seen : Seen) : Bool := !seen.listed.isEmpty

/-- Whether there are keys in the list of a stage. Other bodies have none. -/
def Body.isListing : Body → Bool
  | .distinct _ _ _ seen => seen.isListing
  | _ => false

/-- What is made like something other than a stage has no list. -/
theorem Body.isListing_of_shape {body other : Body} (same : other.shape = body.shape) (apart : body.kind ≠ .distinct) :
    other.isListing = false := by
  cases other with
  | distinct => cases body <;> first | exact absurd rfl apart | cases same
  | _ => rfl

namespace Seen

variable {seen : Seen} {limit key : Value} {raising full : Bool}

/-- Looking a key up among the hashed ones does not change the list. -/
theorem recordHashed_listed {fresh : Bool} {after : Seen} (recorded : seen.recordHashed key = .ok (fresh, after)) :
    after.listed = seen.listed := by
  unfold recordHashed at recorded
  split at recorded
  · cases recorded
  · cases recorded
    rfl
  · split at recorded <;> cases recorded
    rfl

/-- It is told that the list comes into use just where a key reaches it while it is empty. -/
theorem listLookup_mem_record :
    .listLookup ∈ (seen.record limit raising key).notices ↔ seen.reachesList key = true ∧ seen.listed = [] := by
  have opening : .listLookup ∈ (if seen.listed.isEmpty then [SeenNotice.listLookup] else []) ↔ seen.listed = [] := by
    cases seen.listed <;> simp
  have more : ∀ full : Bool, .listLookup ∈ (if seen.listed.isEmpty then [SeenNotice.listLookup] else []) ++
      (if full then [SeenNotice.limitReached] else []) ↔ seen.listed = [] := by
    rintro ⟨⟩ <;> simp
  have listed : .listLookup ∈ (seen.recordListed limit raising key).notices ↔ seen.listed = [] := by
    unfold recordListed
    rcases seen.atLimit limit with fault | full
    · exact opening
    · dsimp only
      by_cases raised : (full && raising) = true
      · rw [if_pos raised]
        exact opening
      · rw [if_neg raised]
        rcases seen.findListed key with fault | (_ | _) <;> exact more full
  unfold record reachesList
  cases seen.recordHashed key with
  | ok => simp
  | error fault =>
    cases type : fault.isType with
    | true => simp [type, listed]
    | false => simp [type]

/-- A key that reaches the empty list gets into it, and the list is not emptied by others. -/
theorem recordListed_listing (empty : Value.equals (.ofNat 0) limit = .ok full) (calm : full = true → raising = false) :
    Flag.follow seen.isListing ((seen.recordListed limit raising key).notices.filterMap SeenNotice.listing?) =
      some (seen.recordListed limit raising key).seen.isListing := by
  have untold : ∀ full : Bool, (if full then [SeenNotice.limitReached] else []).filterMap SeenNotice.listing? = [] := by
    rintro ⟨⟩ <;> rfl
  unfold recordListed
  cases listed : seen.listed with
  | nil =>
    have reached : seen.atLimit limit = .ok full := by rw [atLimit, listed]; exact empty
    have unraised : (full && raising) = false := by
      cases full with
      | true => rw [calm rfl, Bool.and_false]
      | false => rfl
    have absent : seen.findListed key = .ok false := by rw [findListed, listed]; rfl
    simp only [reached, unraised, absent, List.isEmpty_nil, if_true, Bool.false_eq_true, if_false, List.filterMap_append,
      untold]
    simp [isListing, listed, SeenNotice.listing?, Flag.follow]
  | cons first rest =>
    simp only [List.isEmpty_cons, Bool.false_eq_true, if_false, List.nil_append]
    rcases seen.atLimit limit with fault | full
    · rfl
    · dsimp only
      split
      · rfl
      · split <;> simp only [untold, Flag.follow, isListing, listed, List.cons_append, List.isEmpty_cons]

/-- What recording a key has to tell of the list goes with whether there are keys in it. -/
theorem record_listing (empty : Value.equals (.ofNat 0) limit = .ok full) (calm : full = true → raising = false) :
    Flag.follow seen.isListing ((seen.record limit raising key).notices.filterMap SeenNotice.listing?) =
      some (seen.record limit raising key).seen.isListing := by
  unfold record
  cases recorded : seen.recordHashed key with
  | ok looked =>
    obtain ⟨fresh, after⟩ := looked
    exact congrArg (fun listed : List Value => some !listed.isEmpty) (recordHashed_listed recorded).symm
  | error fault =>
    cases type : fault.isType with
    | true => simpa only [type, if_true] using recordListed_listing empty calm
    | false => simp [type, Flag.follow]

end Seen

namespace Store

variable {stage : SequenceId}

/-- Whether a value has these contents, whatever happens: they hold no references, and it refers to an object that stays as it
is, if to any. -/
def StaysAs (store : Store) (v w : Value) : Prop :=
  w.refs = [] ∧ (v = w ∨ ∃ d : DatumId, v = .object (.datum d) ∧ store.data[d.index]? = some w)

/-- Whether the first key that reaches the list of a stage gets into it: an empty list is compared with the limit, and if it meets
it, the warning is not raised. -/
def TakesFirst (stage : SequenceId) (store : Store) : Prop :=
  ∃ supply key limit held full, (store.sequence stage).body.shape = .distinct supply key limit .empty ∧
    store.StaysAs limit held ∧ Value.equals (.ofNat 0) held = .ok full ∧ (full = true → store.raising = false)

/-- What may happen to the list of a stage: it goes with what is told of it, and what the stage is made of stays. -/
structure Tallies (stage : SequenceId) (before after : Store) : Prop where
  size : before.sequences.size ≤ after.sequences.size
  shape : stage.index < before.sequences.size →
    (after.sequence stage).body.shape = (before.sequence stage).body.shape
  datum : ∀ (d : DatumId) (v : Value), before.data[d.index]? = some v → after.data[d.index]? = some v
  raising : after.raising = before.raising
  told : ∃ told, after.journal.toList = before.journal.toList ++ told ∧
    (before.TakesFirst stage → Flag.follow (before.sequence stage).body.isListing
      (told.filterMap (Notice.listing? stage)) = some (after.sequence stage).body.isListing)

theorem StaysAs.contents_eq {store : Store} {v w : Value} (stays : store.StaysAs v w) : store.contents v = w := by
  obtain ⟨plain, rfl | ⟨d, rfl, found⟩⟩ := stays
  · exact contents_of_refs_nil plain
  · have there : store.datum d = w := by rw [Store.datum, Array.getD_eq_getD_getElem?, found, Option.getD_some]
    change store.contentsTo (store.data.size + store.lists.size) (store.datum d) = w
    rw [there]
    cases store.data.size + store.lists.size with
    | zero => rfl
    | succ depth => rw [contentsTo, Value.mapRefs_of_refs_nil plain]

/-- A stage is there if its list takes a key. -/
theorem TakesFirst.inside {store : Store} (takes : store.TakesFirst stage) : stage.index < store.sequences.size := by
  obtain ⟨supply, key, limit, held, full, form, -⟩ := takes
  refine sequence_inside rfl fun absent => ?_
  rw [absent] at form
  cases form

theorem TakesFirst.later {before after : Store} (takes : before.TakesFirst stage) (tallies : Tallies stage before after) :
    after.TakesFirst stage := by
  have there := takes.inside
  obtain ⟨supply, key, limit, held, full, form, ⟨plain, stays⟩, empty, calm⟩ := takes
  refine ⟨supply, key, limit, held, full, (tallies.shape there).trans form, ⟨plain, ?_⟩, empty,
    fun met => tallies.raising.trans (calm met)⟩
  rcases stays with same | ⟨d, same, found⟩
  · exact .inl same
  · exact .inr ⟨d, same, tallies.datum d held found⟩

instance : IsPreorder Store (Tallies stage) where
  refl store := ⟨Nat.le_refl _, fun _ => rfl, fun _ _ found => found, rfl, [], (List.append_nil _).symm, fun _ => rfl⟩
  trans first second third h k := by
    obtain ⟨told, journal, follows⟩ := h.told
    obtain ⟨more, journal', follows'⟩ := k.told
    refine ⟨Nat.le_trans h.size k.size,
      fun inside => (k.shape (Nat.lt_of_lt_of_le inside h.size)).trans (h.shape inside),
      fun d v found => k.datum d v (h.datum d v found), k.raising.trans h.raising, told ++ more,
      by rw [journal', journal, List.append_assoc], fun takes => ?_⟩
    rw [List.filterMap_append, Flag.follow_append, follows takes]
    exact follows' (takes.later h)

/-- The list goes with what is told where neither sequences nor the journal changed. -/
theorem Tallies.of_sequences {before after : Store} (same : after.sequences = before.sequences)
    (journal : after.journal = before.journal) (raising : after.raising = before.raising)
    (datum : ∀ (d : DatumId) (v : Value), before.data[d.index]? = some v → after.data[d.index]? = some v) :
    Tallies stage before after := by
  have here : after.sequence stage = before.sequence stage := by simp only [Store.sequence, same]
  exact ⟨Nat.le_of_eq (by rw [same]), fun _ => by rw [here], datum, raising, [], by rw [journal, List.append_nil],
    fun _ => by rw [here]; rfl⟩

/-- Objects stay where no data changed. -/
theorem datum_of_data {before after : Store} (same : after.data = before.data) (d : DatumId) (v : Value)
    (found : before.data[d.index]? = some v) : after.data[d.index]? = some v := by rwa [same]

/-- The list goes with what is told where the stage changed and lines were written that fit. -/
theorem Tallies.of_stage {before after : Store} (size : before.sequences.size ≤ after.sequences.size)
    (data : after.data = before.data) (raising : after.raising = before.raising)
    (shape : (after.sequence stage).body.shape = (before.sequence stage).body.shape) {told : List Notice}
    (journal : after.journal.toList = before.journal.toList ++ told)
    (follows : before.TakesFirst stage → Flag.follow (before.sequence stage).body.isListing
      (told.filterMap (Notice.listing? stage)) = some (after.sequence stage).body.isListing) : Tallies stage before after :=
  ⟨size, fun _ => shape, datum_of_data data, raising, told, journal, follows⟩

/-- The list goes with what is told where it is cleared and the stage tells of that. -/
theorem Tallies.of_cleared {before after : Store} (notice : Notice) (clears : notice.listing? stage = some false)
    (size : before.sequences.size ≤ after.sequences.size) (data : after.data = before.data)
    (raising : after.raising = before.raising) (journal : after.journal = before.journal.push notice)
    (shape : (after.sequence stage).body.shape = (before.sequence stage).body.shape)
    (unlisted : (after.sequence stage).body.isListing = false) : Tallies stage before after :=
  .of_stage size data raising shape (journal ▸ Array.toList_push) fun _ => by
    rw [unlisted, List.filterMap_cons, clears]
    rfl

/-- The list goes with what is told where a sequence was added. -/
theorem Tallies.of_joined (store : Store) (state : SequenceState) : Tallies stage store (store.joined state) :=
  ⟨by simp [joined], fun inside => by rw [sequence_joined inside], datum_of_data rfl, rfl, [], (List.append_nil _).symm,
    fun takes => by rw [sequence_joined takes.inside]; rfl⟩

/-- The list goes with what is told where a sequence changed in a way that leaves the body. -/
theorem Tallies.of_updated (store : Store) (other : SequenceId) {f : SequenceState → SequenceState}
    (kept : other = stage → (f (store.sequence stage)).body.shape = (store.sequence stage).body.shape ∧
      (f (store.sequence stage)).body.isListing = (store.sequence stage).body.isListing) :
    Tallies stage store (store.updated other f) := by
  have same : ((store.updated other f).sequence stage).body.shape = (store.sequence stage).body.shape ∧
      ((store.updated other f).sequence stage).body.isListing = (store.sequence stage).body.isListing := by
    by_cases here : other = stage
    · subst here
      by_cases inside : other.index < store.sequences.size
      · rw [sequence_updated inside]
        exact kept rfl
      · have absent : (store.updated other f).sequence other = store.sequence other := by
          rw [sequence_outside inside, sequence_outside (by simpa using inside)]
        rw [absent]
        exact ⟨rfl, rfl⟩
    · rw [sequence_updated_ne (Ne.symm here)]
      exact ⟨rfl, rfl⟩
  exact .of_stage (by simp) rfl rfl same.1 (List.append_nil _).symm fun _ => by rw [same.2]; rfl

/-- The list goes with what is told where a line was written that does not speak of it. -/
theorem Tallies.of_told (store : Store) {notice : Notice} (untold : notice.listing? stage = none) :
    Tallies stage store { store with journal := store.journal.push notice } :=
  .of_stage (Nat.le_refl _) rfl rfl rfl Array.toList_push fun _ => by
    rw [List.filterMap_cons, untold]
    rfl

end Store

namespace Run

open Store

variable {stage : SequenceId}

/-! ## Changes elsewhere -/

instance : (Law.keeping (Tallies stage)).Furnished where
  newSequence body multi store := .of_joined store { body := body, multiValue := multi }
  newList _ _ := .of_sequences rfl rfl rfl (datum_of_data rfl)
  newCursor _ _ _ := .of_sequences rfl rfl rfl (datum_of_data rfl)
  setCursor _ _ _ _ := .of_sequences rfl rfl rfl (datum_of_data rfl)
  looked _ kept := kept
  entered there _ same kept := by
    rw [Law.keeping, from?_bind_ok (from?_cursor ..), there, same]
    exact Keeps.bind (fun _ => .of_sequences rfl rfl rfl (datum_of_data rfl)) (fun _ => kept) _
  newDatum v store := .of_sequences rfl rfl rfl fun d w found => by
    have known := (Array.getElem?_eq_some_iff.mp found).1
    change (store.data.push v)[d.index]? = some w
    rwa [Array.getElem?_push_lt known, ← Array.getElem?_eq_getElem known]
  counted _ _ _ _ := .of_sequences rfl rfl rfl (datum_of_data rfl)
  asked _ _ _ := .of_sequences rfl rfl rfl (datum_of_data rfl)
  newStream _ _ _ := .of_sequences rfl rfl rfl (datum_of_data rfl)
  updateList _ _ _ := .of_sequences rfl rfl rfl (datum_of_data rfl)
  newMeter _ := .of_sequences rfl rfl rfl (datum_of_data rfl)
  newSource _ _ := .of_sequences rfl rfl rfl (datum_of_data rfl)
  newKey _ _ := .of_sequences rfl rfl rfl (datum_of_data rfl)
  newStep _ _ := .of_sequences rfl rfl rfl (datum_of_data rfl)
  newFault _ _ := .of_sequences rfl rfl rfl (datum_of_data rfl)

/-- What is done to other sequences leaves the list of a stage as it is. -/
theorem tallies_moves {other : SequenceId} (apart : other ≠ stage) : (Law.keeping (Tallies stage)).Moves other where
  body _ _ _ _ _ := .of_updated _ other fun same => absurd same apart
  noted _ about _ _ store := .of_told store (Notice.listing?_aside (about ▸ apart))
  handed store := .of_updated store other fun same => absurd same apart
  begun store := .of_updated store other fun same => absurd same apart
  ended store := .of_updated store other fun same => absurd same apart
  toldEnd _ store := .of_told store (Notice.listing?_aside apart)
  restarted := Keeps.bind (fun store => .of_updated store other fun same => absurd same apart) fun _ =>
    (keeps_view _).bind fun _ store => .of_told store (Notice.listing?_aside apart)

/-- Keeping the output of a pipeline leaves all lists as they are. -/
theorem tallies_keepOutput (other : SequenceId) (output : Value) :
    (Calls.keepOutput other output).Keeps (Tallies stage) := fun store =>
  .of_updated store other fun same => by
    subst same
    split
    · rename_i form
      rw [form]
      exact ⟨rfl, rfl⟩
    · exact ⟨rfl, rfl⟩

/-! ## The stage -/

/-- What recording a key had to tell is told. -/
theorem from?_tellSeen_listing (stage : SequenceId) (key : Value) (notices : List SeenNotice) (store : Store) :
    ∃ journal told, (tellSeen stage key notices).from? store = (.ok (), { store with journal := journal }) ∧
      journal.toList = store.journal.toList ++ told ∧
      told.filterMap (Notice.listing? stage) = notices.filterMap SeenNotice.listing? ∧
      ((∃ kind, .listLookup stage kind ∈ told) ↔ .listLookup ∈ notices) := by
  induction notices generalizing store with
  | nil => exact ⟨store.journal, [], rfl, (List.append_nil _).symm, rfl, by simp⟩
  | cons notice later ih =>
    cases notice with
    | listLookup =>
      obtain ⟨journal, told, ends, more, marks, -⟩ := ih { store with
        journal := store.journal.push (.listLookup stage (store.typeName key)) }
      refine ⟨journal, .listLookup stage (store.typeName key) :: told, ends, ?_, ?_, ?_⟩
      · rw [more, Array.toList_push, List.append_assoc]
        rfl
      · rw [List.filterMap_cons, List.filterMap_cons, marks, Notice.listing?, if_pos rfl]
        rfl
      · exact ⟨fun _ => List.mem_cons_self, fun _ => ⟨_, List.mem_cons_self⟩⟩
    | limitReached =>
      obtain ⟨journal, told, ends, more, marks, speaks⟩ := ih { store with journal := store.journal.push (.limitReached stage) }
      refine ⟨journal, .limitReached stage :: told, ends, ?_, ?_, ?_⟩
      · rw [more, Array.toList_push, List.append_assoc]
        rfl
      · rw [List.filterMap_cons, List.filterMap_cons, marks]
        rfl
      · simpa using speaks

/-- What recording a key leaves, and what it tells of the list. -/
theorem from?_remember_listing {store : Store} {supply : SequenceId} {keyFunction limit : Value} {seen : Seen} (key : Value)
    (form : (store.sequence stage).body = .distinct supply keyFunction limit seen) :
    let recording := seen.record (store.contents limit) store.raising (store.contents key)
    ∃ journal told, (remember stage key).from? store = (recording.outcome.mapError Halt.fault,
        { store.updated stage (fun state => { state with body := .distinct supply keyFunction limit recording.seen }) with
          journal := journal }) ∧
      journal.toList = store.journal.toList ++ told ∧
      told.filterMap (Notice.listing? stage) = recording.notices.filterMap SeenNotice.listing? ∧
      ((∃ kind, .listLookup stage kind ∈ told) ↔ .listLookup ∈ recording.notices) := by
  intro recording
  obtain ⟨journal, told, ends, spoken⟩ := from?_tellSeen_listing stage key recording.notices
    (store.updated stage fun state => { state with body := .distinct supply keyFunction limit recording.seen })
  refine ⟨journal, told, ?_, spoken⟩
  rw [remember, from?_bind_ok (from?_sequence ..), form]
  simp only
  rw [from?_bind_ok (from?_contents ..), from?_bind_ok (from?_view ..), from?_bind_ok (from?_contents ..),
    from?_bind_ok (from?_setBody ..)]
  exact (from?_bind_ok ends).trans (from?_ofExcept ..)

/-- Recording a key goes with what it tells of the list. -/
theorem tallies_remember (key : Value) : (remember stage key).Keeps (Tallies stage) := by
  intro store
  by_cases distinct : ∃ supply keyFunction limit seen, (store.sequence stage).body = .distinct supply keyFunction limit seen
  · obtain ⟨supply, keyFunction, limit, seen, form⟩ := distinct
    have inside := sequence_inside form (by simp)
    obtain ⟨journal, told, ends, more, marks, -⟩ := from?_remember_listing key form
    let recording := seen.record (store.contents limit) store.raising (store.contents key)
    have body : ((store.updated stage fun state =>
        { state with body := .distinct supply keyFunction limit recording.seen }).sequence stage).body =
          .distinct supply keyFunction limit recording.seen := by rw [sequence_updated inside]
    rw [ends]
    refine .of_stage (by simp) rfl rfl ((congrArg Body.shape body).trans (by rw [form]; rfl)) more fun takes => ?_
    obtain ⟨supply', key', limit', held, full, form', stays, empty, calm⟩ := takes
    rw [form] at form'
    cases form'
    rw [form, marks]
    exact (Seen.record_listing (stays.contents_eq.symm ▸ empty) calm).trans (congrArg (some ·.isListing) body).symm
  · rw [remember, from?_bind_ok (from?_sequence ..)]
    split
    · rename_i form
      exact absurd ⟨_, _, _, _, form⟩ distinct
    · exact refl_of _ store

/-- The iterator of a sequence can be kept where one of its sort was kept at the start of a run before. -/
theorem tallies_opened {α : Type} {run : Run α} {store left : Store} {a : α} {body : Body}
    (tallies : Law.keeping (Tallies stage) α run store) (ends : run.from? store = (.ok a, left))
    (frame : body.frame = (store.sequence stage).body.frame) (kind : body.kind = .iterable ∨ body.kind = .produced) :
    Tallies stage left ((setBody stage body).from? left).2 := by
  rw [Law.keeping, ends] at tallies
  have inside : stage.index < store.sequences.size := by
    refine Decidable.byContradiction fun outside => ?_
    rw [Body.kind_of_frame frame, sequence_outside outside] at kind
    rcases kind with kind | kind <;> cases kind
  have shape : (left.sequence stage).body.shape = body.shape :=
    (tallies.shape inside).trans (Body.shape_of_frame frame.symm)
  have apart : body.kind ≠ .distinct := fun same => by
    rw [same] at kind
    rcases kind with kind | kind <;> cases kind
  exact .of_updated left stage fun _ => ⟨shape.symm, (Body.isListing_of_shape rfl apart).trans (Body.isListing_of_shape shape apart).symm⟩

theorem tallies_fills : (Law.keeping (Tallies stage)).Fills stage where
  opened := tallies_opened
  remember := tallies_remember

/-- A stage tells of its end where it clears the list. -/
theorem tallies_signalEnd : (signalEnd stage).Keeps (Tallies stage) := by
  intro store
  let ended := store.updated stage fun state => { state with exhausted := true }
  let said : Store := { ended with journal := ended.journal.push (.exhausted stage (ended.sequence stage).body.kind) }
  have clears : (Notice.exhausted stage (ended.sequence stage).body.kind).listing? stage = some false := if_pos rfl
  have same : (said.sequence stage).body = (store.sequence stage).body := by
    change (ended.sequence stage).body = _
    by_cases inside : stage.index < store.sequences.size
    · rw [sequence_updated inside]
    · rw [sequence_outside inside, sequence_outside (by simpa [ended] using inside)]
  rw [signalEnd, from?_bind_ok (from?_updateSequence ..), from?_bind_ok (from?_sequence ..), from?_bind_ok (from?_tell ..)]
  change Tallies stage store ((cleanUp stage).from? said).2
  have there : (store.sequence stage).body ≠ .abstract → ∀ body : Body,
      ((said.updated stage fun state => { state with body := body }).sequence stage).body = body := by
    intro some body
    rw [sequence_updated (sequence_inside same some)]
  rw [cleanUp, from?_bind_ok (from?_sequence ..), same]
  cases form : (store.sequence stage).body with
  | distinct supply key limit seen =>
    have body := there (by simp [form]) (.distinct supply key limit .empty)
    exact .of_cleared _ clears (by simp [said, ended]) rfl rfl rfl ((congrArg Body.shape body).trans (by rw [form]; rfl)) (congrArg Body.isListing body)
  | produced factory size feed =>
    have body := there (by simp [form]) (.produced factory size none)
    exact .of_cleared _ clears (by simp [said, ended]) rfl rfl rfl ((congrArg Body.shape body).trans (by rw [form]; rfl)) (congrArg Body.isListing body)
  | _ =>
    exact .of_cleared _ clears (by simp [said, ended]) rfl rfl rfl (congrArg Body.shape same)
      ((congrArg Body.isListing same).trans (by rw [form]; rfl))

/-- A sequence without keys in its list tells that it begins again. -/
theorem tallies_restart {store : Store} (unlisted : (store.sequence stage).body.isListing = false) :
    Tallies stage store ((restart stage).from? store).2 := by
  let back := store.updated stage fun state => { state with started := false, exhausted := false, peeked := none }
  have same : (back.sequence stage).body = (store.sequence stage).body := by
    by_cases inside : stage.index < store.sequences.size
    · rw [sequence_updated inside]
    · rw [sequence_outside inside, sequence_outside (by simpa [back] using inside)]
  exact .of_cleared (.rewound stage (back.sequence stage).body.kind) (if_pos rfl) (by simp [restart, from?_bind]) rfl rfl rfl
    (congrArg Body.shape same) ((congrArg Body.isListing same).trans unlisted)

/-- A body without keys in its list is put where the sequence begins again. -/
theorem tallies_reset {store : Store} {body : Body} (inside : stage.index < store.sequences.size)
    (shape : body.shape = (store.sequence stage).body.shape) (unlisted : body.isListing = false) :
    Tallies stage store ((setBody stage body >>= fun _ => restart stage).from? store).2 := by
  let reset := store.updated stage fun state => { state with body := body }
  let back := reset.updated stage fun state => { state with started := false, exhausted := false, peeked := none }
  have state : (back.sequence stage).body = body := by
    rw [sequence_updated (by simpa [reset] using inside), sequence_updated inside]
  exact .of_cleared (.rewound stage (back.sequence stage).body.kind) (if_pos rfl) (by simp [restart, from?_bind]) rfl rfl rfl
    ((congrArg Body.shape state).trans shape)
    ((congrArg Body.isListing state).trans unlisted)

/-- A body without keys in its list is put where something was done before and the sequence begins again. -/
theorem tallies_reset_after {store : Store} {run : Run Unit} {body : Body} (kept : Tallies stage store (run.from? store).2)
    (inside : stage.index < store.sequences.size) (shape : body.shape = (store.sequence stage).body.shape)
    (unlisted : body.isListing = false) :
    Tallies stage store ((run >>= fun _ => setBody stage body >>= fun _ => restart stage).from? store).2 := by
  rcases done : run.from? store with ⟨halt | _, left⟩ <;> rw [done] at kept
  · rw [from?_bind_error done]
    exact kept
  · rw [from?_bind_ok done]
    exact trans_of _ kept (tallies_reset (Nat.lt_of_lt_of_le inside kept.size) (shape.trans (kept.shape inside).symm) unlisted)

end Run

namespace Calls

open Run Store

variable {c : Calls} {stage : SequenceId}

/-- Handing out an element goes with what is told of the list. -/
theorem tallies_next (obeys : c.Obeys (.keeping (Tallies stage))) : (c.nextWith stage).Keeps (Tallies stage) := by
  intro store
  cases waiting : (store.sequence stage).peeked with
  | some v =>
    rw [next_awaited waiting]
    exact .of_updated store stage fun _ => ⟨rfl, rfl⟩
  | none =>
    cases before : (store.sequence stage).exhausted with
    | true =>
      rw [next_over ⟨before, waiting⟩]
      exact refl_of _ store
    | false =>
      let marked := store.updated stage fun state => { state with started := true }
      have marks : Tallies stage store marked := .of_updated store stage fun _ => ⟨rfl, rfl⟩
      have pulled : Tallies stage store _ := trans_of _ marks (obeys.pull stage marked)
      rw [next_unawaited waiting before]
      rcases drawn : (c.pull stage).from? marked with ⟨(fault | _) | v, left⟩ <;> rw [drawn] at pulled <;> simp only
      · split
        · exact trans_of _ pulled (tallies_signalEnd left)
        · exact pulled
      · exact pulled
      · exact pulled

/-- Taking a sequence back goes with what is told of the list. -/
theorem tallies_rewind (obeys : c.Obeys (.keeping (Tallies stage))) : (c.rewindWith stage).Keeps (Tallies stage) := by
  intro store
  change Tallies stage store ((c.reset stage >>= fun _ => restart stage).from? store).2
  by_cases inside : stage.index < store.sequences.size
  · rw [Calls.reset, bind_assoc, from?_bind_ok (from?_sequence ..)]
    cases form : (store.sequence stage).body with
    | abstract | scripted => exact refl_of _ store
    | iterable data feed =>
      simp only
      split
      · rw [bind_assoc, from?_bind_ok (from?_typeName ..)]
        exact refl_of _ store
      · exact tallies_reset inside (by rw [form]; rfl) rfl
    | produced factory size feed =>
      cases feed with
      | none => exact tallies_reset inside (by rw [form]) rfl
      | some feed =>
        simp only [bind_assoc]
        have closes : Law.keeping (Tallies stage) Unit (closeFeed feed) store := Run.obeys_closeFeed feed store
        exact tallies_reset_after closes inside (by rw [form]; rfl) rfl
    | distinct supply key limit seen =>
      simp only [bind_assoc]
      exact tallies_reset_after (obeys.rewind supply store) inside (by rw [form]; rfl) rfl
    | pipeline steps input output =>
      have kept : Law.keeping (Tallies stage) Unit
          (if output.isNull then pure () else do c.rewind (← sequenceFor "rewind" output)) store :=
        Run.Obeys.ite (obeys_pure _) ((obeys_sequenceFor _ _).bind obeys.rewind) store
      simp only
      rcases done : (if output.isNull then pure () else do c.rewind (← sequenceFor "rewind" output) : Run Unit).from? store
        with ⟨halt | _, left⟩ <;> rw [Law.keeping, done] at kept
      · rw [from?_bind_error done]
        exact kept
      · rw [from?_bind_ok done]
        refine trans_of _ kept (tallies_restart (Body.isListing_of_shape (kept.shape inside) ?_))
        rw [form]
        exact SequenceKind.noConfusion
  · rw [Calls.reset, bind_assoc, from?_bind_ok (from?_sequence ..), sequence_outside inside]
    exact refl_of _ store

/-- All operations go with what is told of the list of a stage. -/
theorem obeys_tallies (stage : SequenceId) (n : Nat) : (calls n).Obeys (.keeping (Tallies stage)) := by
  refine @obeys_serves (.keeping (Tallies stage)) _ (fun id => ?_) tallies_keepOutput n
  by_cases same : id = stage
  · subst same
    exact ⟨tallies_fills, tallies_next, tallies_rewind⟩
  · exact (tallies_moves same).serves

/-- Peeking goes with what is told of the list of a stage. -/
theorem tallies_peek (stage other : SequenceId) (n : Nat) : ((calls n).peek other).Keeps (Tallies stage) := by
  intro store
  cases waiting : (store.sequence other).peeked with
  | some v =>
    rw [peek_awaited waiting]
    exact refl_of _ store
  | none =>
    have drawn : Tallies stage store _ := (obeys_tallies stage n).next other store
    rw [peek_unawaited waiting]
    rcases asked : ((calls n).next other).from? store with ⟨halt | v, left⟩ <;> rw [asked] at drawn
    · exact drawn
    · exact trans_of _ drawn (show Tallies stage left (left.awaiting other v) from .of_updated left other fun _ => ⟨rfl, rfl⟩)

/-- Whatever a program does, the list of a stage goes with what is told of it. -/
theorem list_told {α : Type} {operation : Calls → Run α} (program : Program operation) (stage : SequenceId) (n : Nat) :
    (operation (calls n)).Keeps (Tallies stage) :=
  program.obeys (obeys_tallies stage n) fun other => tallies_peek stage other n

end Calls

end FirstSeen
