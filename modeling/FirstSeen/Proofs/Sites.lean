import FirstSeen.Proofs.Erecting
import FirstSeen.Traversal

/-!
# Where a pipeline is

A pipeline of distinct stages over data is at a *site*: nothing was built below it yet, and it is at its beginning, or the column
below it was built, and all its sequences agree with the pipeline on whether they were started and have met their end.
Whatever is asked of the pipeline or of its streams takes it from one site to another. What its column tells on the way comes
in laps: each is told by all of the column, from the ground to the top, the end is told only where it was not met before, and
the last lap tells whether it is met.
-/

set_option autoImplicit false

namespace FirstSeen

/-- Where a pipeline is: what was built below it, nothing before that, and how far all of it is. -/
structure Site where
  below : List SequenceId := []
  started : Bool := false
  exhausted : Bool := false

namespace Store

/-- Whether some iterators are streams of a pipeline, bound to no input. -/
def Attends (p : SequenceId) (streams : List CursorId) (store : Store) : Prop :=
  ∀ k ∈ streams, ∃ phase, store.cursor k = .streaming p .null phase ∧ ∀ feed, phase = .delegating feed → feed = .sequence p

section

variable (p : SequenceId) (steps : ListId) (data : Value) (many : Nat) (streams : List CursorId)

/-- Whether a pipeline with so many steps on data, with some streams, is at a site. -/
inductive AtSite (store : Store) : Site → Prop
  | planned (plans : store.Planned p streams steps data) (length : (store.list steps).length = many)
    (top : (store.sequence p).IsAt false false) (attends : store.Attends p streams) : AtSite store {}
  | built {below : List SequenceId} {started exhausted : Bool} {output : Value}
    (form : (store.sequence p).body = .pipeline steps data output) (column : store.Column (p :: below) streams (p :: below))
    (length : below.length = many + 1) (starts : (store.sequence p).started = started)
    (ends : (store.sequence p).exhausted = exhausted) (abreast : store.Abreast below started exhausted)
    (attends : store.Attends p streams) : AtSite store ⟨below, started, exhausted⟩

/-- What takes a pipeline from one site to another, with the laps that are told on the way. -/
structure Goes (site site' : Site) (laps : List Lap) (store after : Store) : Prop where
  arrives : after.AtSite p steps data many streams site'
  same : site.below ≠ [] → site'.below = site.below
  follows : Lap.follow site.exhausted laps = some site'.exhausted
  told : after.milestones (p :: site'.below) =
    store.milestones (p :: site'.below) ++ laps.flatMap fun lap => lap.all (p :: site'.below)
  still : site'.below = [] → laps = [] ∧ after.journal = store.journal

end

variable {p : SequenceId} {steps : ListId} {data : Value} {many : Nat} {streams : List CursorId} {site site' site'' : Site}
  {laps laps' : List Lap} {store left after : Store} {below : List SequenceId} {started exhausted : Bool}

theorem AtSite.attends (stands : store.AtSite p steps data many streams site) : store.Attends p streams := by
  cases stands <;> assumption

theorem AtSite.isPipeline (stands : store.AtSite p steps data many streams site) :
    ∃ output, (store.sequence p).body = .pipeline steps data output := by
  cases stands with
  | planned plans => exact ⟨_, plans.form⟩
  | built form => exact ⟨_, form⟩

theorem AtSite.stays (stands : store.AtSite p steps data many streams site) :
    Goes p steps data many streams site site [] store store :=
  ⟨stands, fun _ => rfl, rfl, (List.append_nil _).symm, fun _ => ⟨rfl, rfl⟩⟩

theorem Goes.trans (first : Goes p steps data many streams site site' laps store left)
    (second : Goes p steps data many streams site' site'' laps' left after) :
    Goes p steps data many streams site site'' (laps ++ laps') store after := by
  refine ⟨second.arrives, fun some => ?_, ?_, ?_, fun none => ?_⟩
  · rw [second.same (by rwa [first.same some]), first.same some]
  · rw [Lap.follow_append, first.follows]
    exact second.follows
  · rw [second.told, List.flatMap_append, ← List.append_assoc]
    congr 1
    by_cases none : site'.below = []
    · obtain ⟨rfl, journal⟩ := first.still none
      simp [milestones, journal]
    · rw [second.same none, first.told]
  · obtain ⟨rfl, journal'⟩ := second.still none
    have none' : site'.below = [] := Decidable.byContradiction fun some => some (second.same some ▸ none)
    obtain ⟨rfl, journal⟩ := first.still none'
    exact ⟨rfl, journal'.trans journal⟩

/-! ## Changes at a site -/

theorem Attends.congr (attends : store.Attends p streams) (same : ∀ k ∈ streams, after.cursor k = store.cursor k) :
    after.Attends p streams := fun k member => by rw [same k member]; exact attends k member

/-- A stream that is enclosed moves on. -/
theorem Encloses.placed {ids : List SequenceId} (encloses : store.Encloses ids streams) {k : CursorId} (member : k ∈ streams)
    {cursor : Cursor} (known : cursor.Avoids store.Lacks) :
    ({ store with cursors := store.cursors.modify k.index fun _ => cursor } : Store).Encloses ids streams := by
  obtain ⟨-, whole, -⟩ := Run.whole_setCursor k known store store.growsTo_refl encloses.whole
  refine ⟨?_, whole⟩
  refine encloses.hides.wider encloses.whole (fun _ held => held) (fun _ held => .inl held) (fun _ _ => rfl) (fun id free => ?_)
    encloses.hides.sequenceThere (fun id held => ?_) nofun nofun
  · have apart : k.index ≠ id.index := fun same => free (by cases k; cases id; cases same; exact member)
    exact (getD_modify store.cursors k.index (fun _ => cursor) default id.index).trans (if_neg fun held => apart held.1)
  · rw [Array.size_modify]
    exact encloses.hides.cursorThere id held

/-- A stream of the pipeline moves on. -/
theorem AtSite.placed (stands : store.AtSite p steps data many streams site) {k : CursorId} (member : k ∈ streams)
    {phase : StreamPhase} (fits : ∀ feed, phase = .delegating feed → feed = .sequence p) {ended : Except Halt Unit}
    (ends : (Run.setCursor k (.streaming p .null phase)).from? store = (ended, after)) :
    Goes p steps data many streams site site [] store after := by
  -- Where the streams are afterwards.
  have attends : ∀ {ids : List SequenceId}, store.Encloses ids streams → store.Attends p streams → after.Attends p streams := by
    intro ids encloses attends other member'
    cases ends
    have state := getD_modify store.cursors k.index (fun _ => Cursor.streaming p .null phase) default other.index
    by_cases same : k.index = other.index
    · exact ⟨phase, state.trans (if_pos ⟨same, encloses.hides.cursorThere other member'⟩), fits⟩
    · obtain ⟨phase', state', fits'⟩ := attends other member'
      exact ⟨phase', (state.trans (if_neg fun held => same held.1)).trans state', fits'⟩
  have known : ∀ {ids : List SequenceId}, store.Encloses ids streams → p ∈ ids →
      (Cursor.streaming p .null phase).Avoids store.Lacks := by
    intro ids encloses held
    have there := encloses.hides.sequenceThere p held
    refine ⟨Nat.not_le_of_lt there, Value.avoids_of_refs_nil rfl, ?_⟩
    cases phase with
    | delegating feed =>
      cases fits feed rfl
      exact Nat.not_le_of_lt there
    | _ => trivial
  cases stands with
  | planned plans length top attends' =>
    have attended := attends plans.encloses attends'
    have encloses := plans.encloses.placed member (known plans.encloses (List.mem_singleton.mpr rfl))
    cases ends
    exact ⟨.planned ⟨encloses, plans.form, plans.usable.outward rfl rfl, plans.avoids, plans.stages⟩ length top attended,
      fun _ => rfl, rfl, (List.append_nil _).symm, fun _ => ⟨rfl, rfl⟩⟩
  | built form column length starts ends' abreast attends' =>
    have attended := attends column.encloses attends'
    have encloses := column.encloses.placed member (known column.encloses List.mem_cons_self)
    cases ends
    exact ⟨.built form ⟨encloses, column.stack.congr fun _ _ => rfl, column.nodup, column.members⟩ length starts ends'
      (Abreast.congr abreast fun _ _ => rfl) attended, fun _ => rfl, rfl, (List.append_nil _).symm,
      fun none => absurd none (List.ne_nil_of_length_eq_add_one length)⟩

/-- What tells nothing, and leaves all flags as they are, leaves a pipeline where it is. -/
theorem Marches.goes (marches : Marches (p :: below) streams (p :: below) [] store after) {output : Value}
    (form : (store.sequence p).body = .pipeline steps data output) (length : below.length = many + 1)
    (starts : (after.sequence p).started = started) (ends : (after.sequence p).exhausted = exhausted)
    (abreast : after.Abreast below started exhausted) (attends : store.Attends p streams) :
    Goes p steps data many streams ⟨below, started, exhausted⟩ ⟨below, started, exhausted⟩ [] store after :=
  ⟨.built (marches.pipeline List.mem_cons_self form) marches.column length starts ends abreast (attends.congr marches.cursor), fun _ => rfl, rfl, marches.milestones,
    fun none => absurd none (List.ne_nil_of_length_eq_add_one length)⟩

/-- What changes nothing of a column leaves its pipeline where it is. -/
theorem Beyond.goes (beyond : Beyond (p :: below) streams store after) {output : Value}
    (form : (store.sequence p).body = .pipeline steps data output) (column : store.Column (p :: below) streams (p :: below))
    (length : below.length = many + 1) (starts : (store.sequence p).started = started)
    (ends : (store.sequence p).exhausted = exhausted) (abreast : store.Abreast below started exhausted)
    (attends : store.Attends p streams) :
    Goes p steps data many streams ⟨below, started, exhausted⟩ ⟨below, started, exhausted⟩ [] store after := by
  have same := beyond.sequence p List.mem_cons_self
  exact (beyond.moves column).goes form length (by rw [same, starts]) (by rw [same, ends])
    (Abreast.congr abreast fun other member => beyond.sequence other (List.mem_cons_of_mem _ member)) attends

/-- What waits at the pipeline changes. -/
theorem AtSite.waiting (stands : store.AtSite p steps data many streams site) (isBuilt : site.below ≠ []) {peeked : Option Value}
    (known : ∀ v, peeked = some v → store.Knows v) :
    Goes p steps data many streams site site [] store (store.updated p fun state => { state with peeked := peeked }) := by
  cases stands with
  | planned => exact absurd rfl isBuilt
  | built form column length starts ends abreast attends =>
    obtain ⟨takes, state⟩ := column.flagged (f := fun state => { state with peeked := peeked }) rfl known
    exact takes.marches.goes form length ((congrArg SequenceState.started state).trans starts)
      ((congrArg SequenceState.exhausted state).trans ends) (Abreast.congr abreast fun other member =>
        takes.others other fun same => column.top_not_mem (same ▸ member)) attends

end Store

namespace Calls

open Run Store

variable {p : SequenceId} {steps : ListId} {data : Value} {many n : Nat} {streams : List CursorId} {site : Site}
  {store left after : Store} {below : List SequenceId}

/-- Handing out an element of a column takes its pipeline on. -/
theorem Hands.goes {mid : Store} {ended : Except Halt Value}
    (hands : Hands (p :: below) streams (p :: below) (p :: below) ended mid after) {output : Value}
    (form : (mid.sequence p).body = .pipeline steps data output) (length : below.length = many + 1)
    (told : mid.milestones (p :: below) = store.milestones (p :: below)) (attends : mid.Attends p streams)
    (same : site.below ≠ [] → below = site.below) (ongoing : site.exhausted = false) :
    Goes p steps data many streams site ⟨below, true, metEnd ended⟩ (if metEnd ended then [.exhausted] else []) store after := by
  obtain ⟨top, others⟩ := List.forall_mem_cons.mp hands.abreast
  refine ⟨.built (hands.marches.pipeline List.mem_cons_self form) hands.marches.column length top.started top.exhausted others (attends.congr hands.marches.cursor), same, ?_, ?_,
    fun none => absurd none (List.ne_nil_of_length_eq_add_one length)⟩
  · rw [ongoing]
    cases metEnd ended <;> rfl
  · rw [hands.marches.milestones, told]
    cases metEnd ended <;> simp

/-- Asking a pipeline for the next element takes it on, and tells no more than that its end is met. -/
theorem next_goes {ended : Except Halt Value} (stands : store.AtSite p steps data many streams site)
    (ends : ((quiet n).next p).from? store = (ended, after)) (enough : ended ≠ .error .outOfFuel) :
    ∃ site' laps, Goes p steps data many streams site site' laps store after ∧ (laps = [] ∨ laps = [.exhausted]) ∧
      site'.below ≠ [] ∧ ∀ v, ended = .ok v → after.Knows v := by
  have either : ∀ ended : Except Halt Value, (if metEnd ended then [Lap.exhausted] else []) = [] ∨
      (if metEnd ended then [Lap.exhausted] else []) = [.exhausted] := fun ended => by cases metEnd ended <;> simp
  cases n with
  | zero =>
    cases ends
    exact absurd rfl enough
  | succ n =>
    change ((quiet n).nextWith p).from? store = _ at ends
    cases stands with
    | planned plans length top attends =>
      have begins := plans.updated (f := fun state => { state with started := true }) rfl
        (plans.encloses.whole.sequence p).peeked
      have begun : (store.updated p fun state => { state with started := true }).sequence p =
          { store.sequence p with started := true } :=
        sequence_updated (plans.encloses.hides.sequenceThere p (List.mem_singleton.mpr rfl))
      have enough' := pull_enough top.peeked top.exhausted ends enough
      rcases pulled : ((quiet n).pull p).from? (store.updated p fun state => { state with started := true }) with ⟨ended', left⟩
      rw [pulled] at enough'
      obtain ⟨below, mid, output, length', raises, form, hands, body, state⟩ := pull_planned begins pulled enough'
      have length'' : below.length = many + 1 := length'.trans (congrArg (· + 1) length)
      have top' : (left.sequence p).IsAt true false := by
        rw [state, begun]
        exact ⟨rfl, top.exhausted, top.peeked⟩
      have hands' := Hands.next top.peeked top.exhausted pulled hands top' ends enough
      exact ⟨_, _, hands'.goes form length'' (by rw [milestones, raises.journal]; rfl)
        (attends.congr fun k _ => by rw [Store.cursor, raises.cursors]; rfl) (fun some => absurd rfl some) rfl, either ended,
        List.ne_nil_of_length_eq_add_one length'', fun v same => (hands'.fine v same).2⟩
    | @built below started exhausted output form column length starts ends' abreast attends =>
      have isBuilt := List.ne_nil_of_length_eq_add_one length
      cases waiting : (store.sequence p).peeked with
      | some v =>
        rw [next_awaited waiting] at ends
        cases ends
        refine ⟨_, [], (AtSite.built form column length starts ends' abreast attends).waiting isBuilt (by simp), .inl rfl, isBuilt, ?_⟩
        rintro _ ⟨⟩
        exact ((column.encloses.whole.sequence p).peeked v waiting).less
          (column.flagged (f := fun state => { state with peeked := none }) rfl (by simp)).1.marches.grows
      | none =>
        cases met : (store.sequence p).exhausted with
        | true =>
          rw [next_over ⟨met, waiting⟩] at ends
          cases ends
          exact ⟨_, [], (AtSite.built form column length starts ends' abreast attends).stays, .inl rfl, isBuilt, fun _ same => by cases same⟩
        | false =>
          rw [met] at ends'
          subst ends'
          have abreast' : store.Abreast (p :: below) started false := List.forall_mem_cons.mpr ⟨⟨starts, met, waiting⟩, abreast⟩
          have hands := (inStep_quiet (p :: below) streams n).nextWith column abreast' ends enough
          exact ⟨_, _, hands.goes form length rfl attends (fun _ => rfl) rfl, either ended, isBuilt, fun v same => (hands.fine v same).2⟩

/-- Taking back a pipeline that was built takes all of its column back, or changes nothing of it. -/
theorem rewind_goes {ended : Except Halt Unit} (stands : store.AtSite p steps data many streams site) (isBuilt : site.below ≠ [])
    (ends : ((quiet n).rewind p).from? store = (ended, after)) (enough : ended ≠ .error .outOfFuel) :
    (ended = .ok () ∧ Goes p steps data many streams site ⟨site.below, false, false⟩ [.rewound] store after) ∨
      ∃ fault, ended = .error (.fault fault) ∧ Goes p steps data many streams site site [] store after := by
  cases stands with
  | planned => exact absurd rfl isBuilt
  | built form column length starts ends' abreast attends =>
    cases (inStep_quiet _ streams n).rewind column ends enough with
    | back marches abreast' =>
      obtain ⟨top, others⟩ := List.forall_mem_cons.mp abreast'
      exact .inl ⟨rfl, .built (marches.pipeline List.mem_cons_self form) marches.column length top.started top.exhausted others (attends.congr marches.cursor),
        fun _ => rfl, rfl, by simpa using marches.milestones, fun none => absurd none isBuilt⟩
    | fault beyond => exact .inr ⟨_, rfl, beyond.goes form column length starts ends' abreast attends⟩

end Calls

end FirstSeen
