import FirstSeen.Proofs.Atomicity
import FirstSeen.Proofs.Consumption
import FirstSeen.Proofs.History.Lending
import FirstSeen.Proofs.Tower.Cascading
import FirstSeen.Proofs.Tower.Materializing
import FirstSeen.Proofs.Tower.Wrapping

/-!
# Runs on a sequence start from the beginning

A pipeline without an input that is run on a sequence, collected or as a stream, takes the sequence back to its beginning
first if it was started. So it hands out what its steps leave of all elements, whatever was asked of the sequence before
and whatever other runs have been drawn from it, if the sequence can be taken back. A sequence over an iterator that was
started cannot: then each run is refused.
-/

set_option autoImplicit false

namespace FirstSeen

namespace Store

/-- What is left of elements when each of some steps in turn drops those whose keys collide with an earlier key. -/
def leftBy (store : Store) (multi : Bool) (steps : List Value) (items : List Item) : List Item :=
  (steps.map (store.ruleOfStep multi)).foldl (fun items rule => rule.firstsAfter [] items) items

/-- Whether a run ends with these elements whenever enough calls are allowed. -/
def HandsOut (store : Store) (run : Calls → Run (List Value)) (items : List Item) : Prop :=
  ∃ enough, ∀ n, enough ≤ n → ∃ values after, (run (calls n)).from? store = (.ok values, after) ∧
    after.ShowsAll Item.Plain values items

/-- Whether a pipeline that is run on a sequence hands out these elements: collected, as a new stream, or as a stream that
was made before but not begun. -/
structure RunsOn (store : Store) (u s : SequenceId) (items : List Item) : Prop where
  collected : store.HandsOut (fun c => c.collect u (.ofSequence s)) items
  streamed : store.HandsOut (fun c => do c.listOf (.ofCursor (← Run.newStream u (.ofSequence s)))) items
  pending : ∀ k, store.cursor k = .streaming u (.ofSequence s) .fresh →
    store.HandsOut (fun c => c.listOf (.ofCursor k)) items

/-- Whether a pipeline that is run on a sequence is refused: collecting it fails, and so does asking a stream that was not
begun for its first element, after which that is over. Nothing else changes. -/
structure Refuses (store : Store) (u s : SequenceId) (fault : Fault) : Prop where
  collected : ∀ n, 1 ≤ n → ((calls n).collect u (.ofSequence s)).from? store = (.error (.fault fault), store)
  pulled : ∀ k, store.cursor k = .streaming u (.ofSequence s) .fresh → ∀ n, 2 ≤ n →
    ((calls n).advance k).from? store = (.error (.fault fault), store.withStream k u (.ofSequence s) .finished)

/-! ## Sequences that can be taken back -/

theorem HandsOut.congr {store other : Store} {run run' : Calls → Run (List Value)} {items : List Item}
    (hands : store.HandsOut run items) (same : ∀ c, (run' c).from? other = (run c).from? store) :
    other.HandsOut run' items := by
  obtain ⟨enough, hands⟩ := hands
  refine ⟨enough, fun n deep => ?_⟩
  rw [same]
  exact hands n deep

/-- What ended as gathering elements did gives them. -/
theorem EndsLike.handsOut {σ : Type} {rel : Store → σ → Prop} {ending : Except Halt (List Value) × Store}
    {items : List Item} {left : σ}
    (ends : EndsLike (fun last => last.ShowsAll Item.Plain) rel ending (some (.ok items, left))) :
    ∃ values after, ending = (.ok values, after) ∧ after.ShowsAll Item.Plain values items := by
  obtain ⟨halt | values, after⟩ := ending
  · exact ends.1.elim
  · exact ⟨values, after, rfl, ends.1⟩

section Running

variable {multi : Bool} {store : Store} {s u : SequenceId} {start left : Tower} {leaves : List Value} {items : List Item}
  {k : Nat} (fresh : start.Fresh) (lendable : store.Lendable Item.Plain none multi s start)
  (serves : store.Serves Item.Plain multi u leaves)
  (gathers : gatherBy Tower.next k (.filters (leaves.map (store.ruleOfStep multi)) start) [] = some (.ok items, left))
include fresh lendable serves gathers

/-- A pipeline that is collected on a lent sequence gives what the tower of its layers gathers. -/
theorem Lendable.collects : store.HandsOut (fun c => c.collect u (.ofSequence s)) items := by
  obtain ⟨tower, stands, restarts, -⟩ := lendable.restart fresh
  obtain ⟨depth, builds⟩ := serves.builds stands restarts
  refine ⟨depth + k + (4 * (leaves.length + start.height) + 1), fun n deep => ?_⟩
  obtain ⟨n, rfl⟩ : ∃ m, n = m + 1 := ⟨n - 1, by omega⟩
  obtain ⟨top, own, built, ends, stands', -⟩ := builds (n + 1) (by omega)
  have unstarted : (built.sequence top).started = false := by
    rw [stands'.passes.started, (Tower.fresh_filters fresh).pass]
  have forced := (stands'.acts (n := n) (by simp only [Tower.height_filters, List.length_map]; omega)).force unstarted
  rw [Tower.gather_mono (by omega) gathers] at forced
  obtain ⟨values, after, result, shows'⟩ := forced.handsOut
  exact ⟨values, after, (Run.from?_bind_ok ends).trans result, shows'⟩

/-- A stream on a lent sequence that was not begun gives what the tower of its layers gathers. -/
theorem Lendable.drains {stream : CursorId} (here : store.cursor stream = .streaming u (.ofSequence s) .fresh) :
    store.HandsOut (fun c => c.listOf (.ofCursor stream)) items := by
  obtain ⟨tower, stands, restarts, -⟩ := lendable.restart fresh
  let running := store.withStream stream u (.ofSequence s) .running
  have spares := spares_withStream u (.ofSequence s) .running (by rw [here]; rfl)
  have serves' : running.Serves Item.Plain multi u leaves :=
    serves.later (spares []).grows (Nat.le_refl _) fun _ _ _ => rfl
  have rules : leaves.map (running.ruleOfStep multi) = leaves.map (store.ruleOfStep multi) := serves.rules (spares []).grows
  obtain ⟨depth, builds⟩ := serves'.builds (stands.spared (spares _)) restarts
  rw [rules] at builds
  have new : (Tower.filters (leaves.map (store.ruleOfStep multi)) start).Fresh := Tower.fresh_filters fresh
  have unstarted : (Tower.filters (leaves.map (store.ruleOfStep multi)) start).pass.started = false := by rw [new.pass]
  obtain ⟨more, rises⟩ := (Tower.mirrors_stream unstarted).rises
  refine ⟨depth + k + more + 2, fun n deep => ?_⟩
  obtain ⟨n, rfl⟩ : ∃ m, n = m + 2 := ⟨n - 2, by omega⟩
  obtain ⟨top, own, built, ends, stands', -, -, works⟩ := builds n (by omega)
  have works' : running.Works (own ++ [s]) built := works.mono (by simp)
  have listed := listOf_begins n here rfl ends works' stands' new.pass
  obtain ⟨left', risen⟩ := rises k (n + 2) _ _ (by omega) gathers
  rw [risen] at listed
  exact listed.handsOut

/-- A new stream on a lent sequence gives what the tower of its layers gathers. -/
theorem Lendable.streams :
    store.HandsOut (fun c => do c.listOf (.ofCursor (← Run.newStream u (.ofSequence s)))) items := by
  let made : Store := { store with cursors := store.cursors.push (.streaming u (.ofSequence s) .fresh) }
  have spares := spares_push store (.streaming u (.ofSequence s) .fresh)
  obtain ⟨tower, stands, kept⟩ := lendable
  have serves' : made.Serves Item.Plain multi u leaves := serves.later (spares []).grows (Nat.le_refl _) fun _ _ _ => rfl
  rw [← serves.rules (spares []).grows] at gathers
  have drains := Lendable.drains fresh ⟨tower, stands.spared (spares _), kept⟩ serves' gathers (cursor_push ..)
  exact drains.congr fun c => Run.from?_bind_ok rfl

/-- Whichever way a pipeline is run on a lent sequence, it hands out what the tower of its layers gathers. -/
theorem Lendable.runsOn : store.RunsOn u s items :=
  ⟨lendable.collects fresh serves gathers, lendable.streams fresh serves gathers,
    fun _ here => lendable.drains fresh serves gathers here⟩

end Running

/-- New filters on an origin gather what their rules leave of all its elements. -/
theorem gathers_of_settles {rules : List Rule} {origin : Origin} {tape last : Tape} {items : List Item}
    (settles : ∀ rule ∈ rules, rule.Settles items) (free : origin.held = none) (source : origin.current = some tape)
    (reaches : tape.Reaches items last) (ended : last.Ended) :
    ∃ k left, gatherBy Tower.next k (.filters rules (.ground {} origin)) [] =
      some (.ok (rules.foldl (fun items rule => rule.firstsAfter [] items) items), left) := by
  have fresh : (Tower.filters rules (.ground {} origin)).Fresh := Tower.fresh_filters ⟨rfl, free⟩
  have stages : (Tower.filters rules (.ground {} origin)).stages = rules.map (⟨·, .empty⟩) := by
    rw [Tower.stages_filters, Tower.stages, List.nil_append]
  obtain ⟨smooth, out⟩ := outputs_of_settles settles
  rw [← stages] at smooth out
  have source' : (Tower.filters rules (.ground {} origin)).source = some tape := by
    rwa [Tower.source_filters, Tower.source]
  rw [← out]
  exact (Tower.collects_outputs fresh.calm source' reaches ended smooth).gather fresh.calm

/-- A sequence at its beginning that can be taken back may be lent. -/
theorem lent_of_stands {store : Store} {multi : Bool} {s : SequenceId} {origin : Origin}
    (stands : store.Stands Item.Plain none multi s [s] (.ground {} origin))
    (returns : Tower.Returns (.ground {} origin) (.ground {} origin)) :
    Lent Item.Plain none multi store s (.ground {} origin) (fun _ => []) ⟨store, []⟩ where
  ground := stands.not_pipeline
  touches := .refl _ _ store
  lendable := ⟨_, stands, returns, returns.repeats, returns.blank, fun _ => rfl⟩
  borrows _ member := absurd member List.not_mem_nil
  new _ member := absurd member List.not_mem_nil
  apart _ member := absurd member List.not_mem_nil

/-! ## Sequences that cannot -/

/-- A stream that moves is spoken of as before. -/
theorem typeName_withStream {store : Store} {k : CursorId} {u : SequenceId} {input : Value} {phase : StreamPhase}
    (stream : (store.cursor k).isStream) (v : Value) : (store.withStream k u input phase).typeName v = store.typeName v := by
  cases v with
  | object ref =>
    cases ref with
    | cursor other =>
      by_cases same : other = k
      · subst same
        change ((store.withStream other u input phase).cursor other).typeName = (store.cursor other).typeName
        rw [cursor_withStream stream]
        cases here : store.cursor other <;> rw [here] at stream <;> first | rfl | cases stream
      · exact congrArg Cursor.typeName (cursor_withStream_ne same)
    | _ => rfl
  | _ => rfl

/-- A sequence over an iterator that was started refuses to be taken back. -/
theorem rewind_oneShot {store : Store} {s : SequenceId} {data : Value} {feed : Option Feed} {n : Nat} (deep : 1 ≤ n)
    (body : (store.sequence s).body = .iterable data feed) (oneShot : isOneShot data = true)
    (started : (store.sequence s).started = true) :
    ((calls n).rewind s).from? store = (.error (.fault (.cannotRewind SequenceKind.iterable.typeName
      (store.typeName data ++ " is a one-shot iterator"))), store) := by
  obtain ⟨n, rfl⟩ : ∃ m, n = m + 1 := ⟨n - 1, by omega⟩
  refine Run.from?_bind_error ?_
  rw [Calls.reset, Run.from?_bind_ok (Run.from?_sequence ..)]
  simp only [body, oneShot, started, Bool.and_self, if_true]
  rfl

/-- A run on a sequence over an iterator is refused once it was started. -/
theorem refuses_oneShot {store : Store} {u s : SequenceId} {steps : ListId} {kept data : Value} {feed : Option Feed}
    (unbound : (store.sequence u).body = .pipeline steps .null kept) (body : (store.sequence s).body = .iterable data feed)
    (oneShot : isOneShot data = true) (started : (store.sequence s).started = true) :
    store.Refuses u s (.cannotRewind SequenceKind.iterable.typeName (store.typeName data ++ " is a one-shot iterator")) where
  collected n deep :=
    Run.from?_bind_error (Calls.buildFor_rewinds unbound started (rewind_oneShot deep body oneShot started))
  pulled k fresh n deep := by
    obtain ⟨n, rfl⟩ : ∃ m, n = m + 1 := ⟨n - 1, by omega⟩
    have fails := @rewind_oneShot (store.withStream k u (.ofSequence s) .running) s data feed n (by omega) body
      oneShot started
    rw [typeName_withStream (by rw [fresh]; rfl)] at fails
    have begins : ((calls n).beginStream u (.ofSequence s)).from? (store.withStream k u (.ofSequence s) .running) = _ :=
      Run.from?_bind_error (Calls.buildFor_rewinds unbound started fails)
    have finished := Calls.advance_fails fresh begins
    rw [withStream_withStream] at finished
    exact finished

/-! ## The theorem -/

/-- After any errands on a new sequence that replays some elements, a pipeline without an input that is run on it hands
out what its steps leave of all these elements, in which way it may be run. A run on a sequence over an iterator that
was started is refused. -/
theorem runs_start_anew :
    (∀ {store : Store} {multi : Bool} {items : List Item} {s u : SequenceId} {leaves : List Value} {n : Nat}
      {history : List Errand} {last : Session},
      store.Replays multi items s →
      (∀ errand ∈ history, ∀ v, errand.pipeline? = some v → ∃ leaves, store.Serves Item.Plain multi v leaves) →
      (Session.mk store []).serveAll n s history = some last →
      store.Serves Item.Plain multi u leaves → (∀ leaf ∈ leaves, (store.ruleOfStep multi leaf).Settles items) →
      last.store.RunsOn u s (store.leftBy multi leaves items)) ∧
    ∀ {store : Store} {u s : SequenceId} {steps : ListId} {kept data : Value} {feed : Option Feed},
      (store.sequence u).body = .pipeline steps .null kept → (store.sequence s).body = .iterable data feed →
      isOneShot data = true → (store.sequence s).started = true →
      store.Refuses u s
        (.cannotRewind SequenceKind.iterable.typeName (store.typeName data ++ " is a one-shot iterator")) := by
  refine ⟨?_, refuses_oneShot⟩
  intro store multi items s u leaves n history last replays others served serves settles
  obtain ⟨origin, tape, final, stands, free, returns, source, reaches, ended⟩ := replays.stands
  have fresh : (Tower.ground {} origin).Fresh := ⟨rfl, free⟩
  obtain ⟨layers, lent⟩ := (lent_of_stands stands returns).servedAll fresh others served
  have rules := serves.rules lent.touches.grows
  have settles' : ∀ rule ∈ leaves.map (store.ruleOfStep multi), rule.Settles items := List.forall_mem_map.mpr settles
  obtain ⟨k, left, gathers⟩ := gathers_of_settles settles' free source reaches ended
  rw [← rules] at gathers
  have runs := lent.lendable.runsOn fresh (lent.serves serves) gathers
  rwa [rules] at runs

/-- A store with a pipeline that removes duplicates, a sequence over the list `[1, 2, 1]`, and one over an iterator that
was started. -/
def lending : Store :=
  { Store.sample .null with
    sequences := #[{ body := .pipeline ⟨0⟩ .null .null }, { body := .iterable (.object (.list ⟨1⟩)) none },
      { body := .iterable (.object (.cursor ⟨0⟩)) none, started := true }] }

/-- A sequence was asked for an element, a stream was drawn from, another was drawn from after a run was collected, and
both were asked again after an element was peeked at. -/
theorem runs_start_anew_lending :
    ∃ last : Session,
      (Session.mk lending []).serveAll 20 ⟨1⟩ [.ask .next, .stream ⟨0⟩, .pull 0, .collect ⟨0⟩, .stream ⟨0⟩, .pull 1,
        .ask .peek, .pull 0, .pull 1] = some last ∧
      last.store.RunsOn ⟨0⟩ ⟨1⟩ [⟨.int 1, false, some (.int 1)⟩, ⟨.int 2, false, some (.int 2)⟩] ∧
      lending.Refuses ⟨0⟩ ⟨2⟩ (.cannotRewind "IterableSequence" "iterator is a one-shot iterator") := by
  let item (n : Int) : Item := ⟨.int n, false, some (.int n)⟩
  let items : List Item := [item 1, item 2, item 1]
  let step : Value := .object (.step ⟨0⟩)
  have grows : (Store.sample .null).Grows lending :=
    ⟨⟨#[], rfl⟩, ⟨#[], rfl⟩, rfl, rfl, fun _ => rfl, rfl, Nat.le_refl _⟩
  have serves : lending.Serves Item.Plain false ⟨0⟩ [step] :=
    ⟨by decide, ⟨0⟩, .null, rfl, by decide, .step ⟨.inl rfl, isData_of_refs_nil rfl⟩ .nil⟩
  have replays : lending.Replays false items ⟨1⟩ :=
    ⟨by decide, .data (raw_sample_list.offers rfl |>.later grows).1, rfl, _, _, fun _ => rfl, rfl, ⟨rfl, rfl, rfl, rfl⟩, rfl⟩
  have settles : (lending.ruleOfStep false step).Settles items := by
    refine ⟨fun item member => ⟨item.contents, rfl, ?_⟩, rfl, rfl⟩
    simp only [items, List.mem_cons, List.not_mem_nil, or_false] at member
    rcases member with rfl | rfl | rfl <;> trivial
  obtain ⟨last, served⟩ := Option.isSome_iff_exists.mp (show ((Session.mk lending []).serveAll 20 ⟨1⟩ [.ask .next,
    .stream ⟨0⟩, .pull 0, .collect ⟨0⟩, .stream ⟨0⟩, .pull 1, .ask .peek, .pull 0, .pull 1]).isSome = true by
      decide +kernel)
  refine ⟨last, served, ?_, ?_⟩
  · have runs := runs_start_anew.1 replays (fun errand member v runs => ⟨[step], ?_⟩) served serves
      (List.forall_mem_singleton.mpr settles)
    · exact runs
    · simp only [List.mem_cons, List.not_mem_nil, or_false] at member
      rcases member with rfl | rfl | rfl | rfl | rfl | rfl | rfl | rfl | rfl <;> cases runs <;> exact serves
  · have refused : lending.Refuses ⟨0⟩ ⟨2⟩ (.cannotRewind SequenceKind.iterable.typeName
        (lending.typeName (.object (.cursor ⟨0⟩)) ++ " is a one-shot iterator")) := runs_start_anew.2 rfl rfl rfl rfl
    exact refused

end Store

end FirstSeen
