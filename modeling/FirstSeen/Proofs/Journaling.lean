import FirstSeen.Proofs.Fallback
import FirstSeen.Proofs.Heralding
import FirstSeen.Proofs.Lockstep
import FirstSeen.Proofs.Warning

/-!
# What the journal tells

The journal tells of each sequence just where it meets its end and where it begins again, so that it begins again between any two
ends. The sequences of a chain of distinct stages over data tell of this one after the other, from the ground to the pipeline. A
stage tells that it falls back to the list at the first key of a pass that reaches the list, and not again before the list is
cleared, unless the warning of the limit is raised there and keeps that key out of the list.

A sequence that is asked while it is handing out an element tells of its end more than once.
-/

set_option autoImplicit false

namespace FirstSeen

open Run Store Calls

/-- A flag that was down and is up was raised. -/
theorem Flag.mem_of_follow {turns : List Bool} (follows : follow false turns = some true) : true ∈ turns := by
  induction turns with
  | nil => cases follows
  | cons turn rest ih =>
    cases turn with
    | true => exact List.mem_cons_self
    | false => exact List.mem_cons_of_mem _ (ih follows)

/-- An end that was met in the course of some laps is one of them. -/
theorem Lap.mem_of_follow {laps : List Lap} (follows : follow false laps = some true) : .exhausted ∈ laps := by
  obtain ⟨lap, member, raises⟩ := List.mem_map.mp (Flag.mem_of_follow follows)
  cases lap with
  | exhausted => exact member
  | rewound => cases raises

/-- What recording a key tells: that the stage falls back to the list, just where the key reaches it while it is empty. The key
fails if the warning is raised there. -/
theorem fallback_told {store : Store} {stage supply : SequenceId} {keyFunction limit key : Value} {seen : Seen}
    (form : (store.sequence stage).body = .distinct supply keyFunction limit seen) :
    ∃ told, ((remember stage key).from? store).2.journal.toList = store.journal.toList ++ told ∧
      ((∃ kind, .listLookup stage kind ∈ told) ↔ seen.reachesList (store.contents key) = true ∧ seen.listed = []) ∧
      (seen.reachesList (store.contents key) = true → seen.listed = [] → store.raising = true →
        Value.equals (.ofNat 0) (store.contents limit) = .ok true →
        ((remember stage key).from? store).1 = .error (.fault .limitReached)) := by
  obtain ⟨journal, told, ends, more, -, speaks⟩ := from?_remember_listing key form
  rw [ends]
  refine ⟨told, more, speaks.trans Seen.listLookup_mem_record, fun reaches empty raises full => ?_⟩
  have reached : seen.atLimit (store.contents limit) = .ok true := by rw [Seen.atLimit, empty]; exact full
  have refused : (seen.record (store.contents limit) store.raising (store.contents key)).outcome = .error .limitReached := by
    rw [Seen.record_reaching reaches, Seen.recordListed, reached, raises]
    rfl
  rw [refused]
  rfl

theorem Store.AtSite.exhausted {p : SequenceId} {steps : ListId} {data : Value} {many : Nat} {streams : List CursorId}
    {site : Site} {store : Store} (stands : store.AtSite p steps data many streams site) :
    (store.sequence p).exhausted = site.exhausted := by
  cases stands with
  | planned _ _ top => exact top.exhausted
  | built _ _ _ _ ends => exact ends

/-- What a chain tells in the course of one operation after others: laps of all its sequences, and just that it begins again if it
is taken back. -/
theorem Session.chain_told {store made : Store} {steps : ListId} {data output : Value} {multi : Bool} {p : SequenceId} {n : Nat}
    {ops : List Op} {op : Op} {outcomes : List Outcome} {outcome : Outcome} {session later : Session}
    (founds : store.Founds steps data multi p made) (quietly : Session.isQuiet n p ops ⟨made, []⟩ = true)
    (plays : Session.play n p ops ⟨made, []⟩ = some (outcomes, session)) (quietly' : session.isQuiet n p [op] = true)
    (performs : session.perform n p op = some (outcome, later))
    (form : (later.store.sequence p).body = .pipeline steps data output) (isBuilt : output.isNull = false) :
    ∃ below laps, below.length = (store.list steps).length + 1 ∧ later.store.IsChain (p :: below) ∧
      session.store.TellsLaps (p :: below) laps (session.store.sequence p).exhausted (later.store.sequence p).exhausted
        later.store ∧
      ((session.store.sequence p).exhausted = false → (later.store.sequence p).exhausted = true → .exhausted ∈ laps) ∧
      (op = .rewind → (∃ answer, outcome.answer = .ok answer) → laps = [.rewound]) := by
  obtain ⟨site, stands⟩ := Session.play_goes founds.atSite quietly plays
  have unspent : isSpent ((op.run (quiet n) p session.streams).from? session.store).1 = false := by
    simpa [Session.isQuiet, performs] using quietly'
  obtain ⟨site', arrives, tells⟩ := Session.perform_goes stands unspent performs
  cases arrives with
  | planned plans =>
    rw [plans.form] at form
    cases form
    cases isBuilt
  | built form' column length starts ends abreast attends =>
    obtain ⟨laps, told, returns⟩ := tells (List.ne_nil_of_length_eq_add_one length)
    refine ⟨_, laps, length, column.stack.isChain, ?_, fun before met => Lap.mem_of_follow ?_, returns⟩
    · rw [stands.exhausted, ends]
      exact told
    · rw [← before, ← met, stands.exhausted, ends]
      exact told.follows

/-- What the journal tells. In any run of a program, a line tells that a sequence met its end just where its flag turns, so that
the sequence begins again between two such lines, if neither handing out an element nor taking it back happens while an element
of it is being handed out. A chain of distinct stages over data tells of its end, and that it begins again, from the ground to the
pipeline. A stage tells that it falls back to the list just where a key reaches the list while that is empty, and not twice before
the list is cleared, unless the warning is raised there. -/
theorem journal_in_order :
    (∀ {α : Type} {operation : Calls → Run α}, Program operation → ∀ (n : Nat) (store : Store) (id : SequenceId),
      IsOrderly id operation n store →
      ∃ told, ((operation (calls n)).from? store).2.journal.toList = store.journal.toList ++ told ∧
        Lap.follow (store.sequence id).exhausted (told.filterMap (Notice.lap? id)) =
          some (((operation (calls n)).from? store).2.sequence id).exhausted ∧
        ∀ before between after, told.filterMap (Notice.lap? id) = before ++ .exhausted :: (between ++ .exhausted :: after) →
          .rewound ∈ between) ∧
    (∀ {store made : Store} {steps : ListId} {data output : Value} {multi : Bool} {p : SequenceId} {n : Nat} {ops : List Op}
        {op : Op} {outcomes : List Outcome} {outcome : Outcome} {session later : Session},
      store.Founds steps data multi p made → Session.isQuiet n p ops ⟨made, []⟩ = true →
      Session.play n p ops ⟨made, []⟩ = some (outcomes, session) → session.isQuiet n p [op] = true →
      session.perform n p op = some (outcome, later) → (later.store.sequence p).body = .pipeline steps data output →
      output.isNull = false →
      ∃ below laps, below.length = (store.list steps).length + 1 ∧ later.store.IsChain (p :: below) ∧
        session.store.TellsLaps (p :: below) laps (session.store.sequence p).exhausted (later.store.sequence p).exhausted
          later.store ∧
        ((session.store.sequence p).exhausted = false → (later.store.sequence p).exhausted = true → .exhausted ∈ laps) ∧
        (op = .rewind → (∃ answer, outcome.answer = .ok answer) → laps = [.rewound])) ∧
    (∀ {α : Type} {operation : Calls → Run α}, Program operation → ∀ (n : Nat) (store : Store) (stage : SequenceId),
      store.TakesFirst stage →
      ∃ told, ((operation (calls n)).from? store).2.journal.toList = store.journal.toList ++ told ∧
        Flag.follow (store.sequence stage).body.isListing (told.filterMap (Notice.listing? stage)) =
          some (((operation (calls n)).from? store).2.sequence stage).body.isListing ∧
        ∀ before between after, told.filterMap (Notice.listing? stage) = before ++ true :: (between ++ true :: after) →
          false ∈ between) ∧
    ∀ (store : Store) (stage : SequenceId) (key : Value) {supply : SequenceId} {keyFunction limit : Value} {seen : Seen},
      (store.sequence stage).body = .distinct supply keyFunction limit seen →
      ∃ told, ((remember stage key).from? store).2.journal.toList = store.journal.toList ++ told ∧
        ((∃ kind, .listLookup stage kind ∈ told) ↔ seen.reachesList (store.contents key) = true ∧ seen.listed = []) ∧
        (seen.reachesList (store.contents key) = true → seen.listed = [] → store.raising = true →
          Value.equals (.ofNat 0) (store.contents limit) = .ok true →
          ((remember stage key).from? store).1 = .error (.fault .limitReached)) := by
  refine ⟨fun program n store id inOrder => ?_, Session.chain_told, fun program n store stage takes => ?_, fun _ _ _ => fallback_told⟩
  · obtain ⟨told, journal, follows⟩ := (laps_told program inOrder).told
    exact ⟨told, journal, follows, fun _ _ _ split => Lap.rewound_between (by rw [← split, follows]; rfl)⟩
  · obtain ⟨told, journal, follows⟩ := (list_told program stage n store).told
    exact ⟨told, journal, follows takes, fun _ _ _ split => Flag.lowered_between (by rw [← split, follows takes]; rfl)⟩

/-- A stage goes through three equal lists, and a pipeline of two stages over a list hands out an element and is collected. -/
theorem journal_in_order_repeated :
    (∃ told, (((calls 14).force ⟨1⟩).from? repeated).2.journal.toList = repeated.journal.toList ++ told ∧
      Lap.follow false (told.filterMap (Notice.lap? ⟨1⟩)) = some true) ∧
    (∃ (outcomes : List Outcome) (session : Session) (outcome : Outcome) (later : Session) (below : List SequenceId)
        (laps : List Lap), Session.play 20 ⟨0⟩ [.next] ⟨material.joined { body := .pipeline ⟨0⟩ (.object (.list ⟨1⟩)) .null }, []⟩ =
        some (outcomes, session) ∧
      session.perform 20 ⟨0⟩ .collect = some (outcome, later) ∧ below.length = 3 ∧
      later.store.milestones (⟨0⟩ :: below) =
        session.store.milestones (⟨0⟩ :: below) ++ laps.flatMap (fun lap => lap.all (⟨0⟩ :: below)) ∧ Lap.exhausted ∈ laps) ∧
    (∃ told, (((calls 14).force ⟨1⟩).from? repeated).2.journal.toList = repeated.journal.toList ++ told ∧
      Flag.follow false (told.filterMap (Notice.listing? ⟨1⟩)) = some false) ∧
    ∃ told, ((remember ⟨1⟩ (.object (.list ⟨1⟩))).from? repeated).2.journal.toList = repeated.journal.toList ++ told ∧
      ∃ kind, .listLookup ⟨1⟩ kind ∈ told := by
  have program : Program fun c => c.force ⟨1⟩ := .ask (.force ⟨1⟩)
  have inOrder : IsOrderly ⟨1⟩ (fun c => c.force ⟨1⟩) 14 repeated := by
    intro halts
    have answers : (((orderly ⟨1⟩ 14).force ⟨1⟩).from? repeated).1.isOk = true := by decide +kernel
    rw [halts] at answers
    cases answers
  have takes : repeated.TakesFirst ⟨1⟩ := ⟨⟨0⟩, .null, .int 1, .int 1, false, rfl, ⟨rfl, .inl rfl⟩, rfl, fun same => by cases same⟩
  obtain ⟨heralds, chains, lists, falls⟩ := journal_in_order
  obtain ⟨told, journal, follows, -⟩ := heralds program 14 repeated ⟨1⟩ inOrder
  obtain ⟨told', journal', follows', -⟩ := lists program 14 repeated ⟨1⟩ takes
  refine ⟨⟨told, journal, follows.trans (congrArg some (by decide +kernel))⟩, ?_,
    ⟨told', journal', follows'.trans (congrArg some (by decide +kernel))⟩, ?_⟩
  · have runs : ((Session.play 20 ⟨0⟩ [.next] ⟨material.joined { body := .pipeline ⟨0⟩ (.object (.list ⟨1⟩)) .null }, []⟩).bind
        fun played => (played.2.perform 20 ⟨0⟩ .collect).map fun performed =>
          ((played.2.store.sequence ⟨0⟩).exhausted, (performed.2.store.sequence ⟨0⟩).exhausted,
            played.2.isQuiet 20 ⟨0⟩ [.collect])) = some (false, true, true) := by decide +kernel
    obtain ⟨⟨outcomes, session⟩, plays, rest⟩ := Option.bind_eq_some_iff.mp runs
    obtain ⟨⟨outcome, later⟩, performs, facts⟩ := Option.map_eq_some_iff.mp rest
    simp only [Prod.mk.injEq] at facts
    obtain ⟨before, met, quietly⟩ := facts
    have quietly' : Session.isQuiet 20 ⟨0⟩ [.next]
        ⟨material.joined { body := .pipeline ⟨0⟩ (.object (.list ⟨1⟩)) .null }, []⟩ = true := by decide +kernel
    obtain ⟨site, stands⟩ := Session.play_goes founds_material.atSite quietly' plays
    obtain ⟨site', arrives, -⟩ := Session.perform_goes stands (by simpa [Session.isQuiet, performs] using quietly) performs
    obtain ⟨output, form, lockstep⟩ := arrives.inLockstep
    have isBuilt : output.isNull = false := by
      cases null : output.isNull with
      | true => cases met.symm.trans (lockstep.unbuilt null).exhausted
      | false => rfl
    obtain ⟨below, laps, length, -, told, ends, -⟩ := chains founds_material quietly' plays quietly performs form isBuilt
    exact ⟨outcomes, session, outcome, later, below, laps, plays, performs, length, told.told, ends before met⟩
  · obtain ⟨told, journal, speaks, -⟩ := falls repeated ⟨1⟩ (.object (.list ⟨1⟩)) rfl
    exact ⟨told, journal, speaks.mpr ⟨by decide +kernel, rfl⟩⟩

/-- A stage that is spread for its own key function tells of its end while its key is found, and again as hashing that key signals
an end. -/
theorem end_told_twice :
    ∃ before after : Store, before = spreadingItself (.constant (.probe ⟨⟨1, 0⟩, 1, .fails .stop, .byNumber⟩)) ∧
      before.journal = #[] ∧ (before.sequence ⟨1⟩).exhausted = false ∧ (((calls 14).next ⟨1⟩).from? before).2 = after ∧
      after.journal.toList.filterMap (Notice.lap? ⟨1⟩) = [.exhausted, .exhausted] :=
  ⟨_, _, rfl, rfl, rfl, rfl, by decide +kernel⟩

end FirstSeen
