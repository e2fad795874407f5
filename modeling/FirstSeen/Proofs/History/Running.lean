import FirstSeen.Proofs.History.Footprint
import FirstSeen.Proofs.History.Yielding

/-!
# Runs on data that are given

A pipeline without an input can be run on data that are given: all its elements are collected, or they are drawn from a
stream one by one. Such a run builds a chain of its own. It is confined to that chain and to its stream, and leaves the
pipeline as it is.
-/

set_option autoImplicit false

namespace FirstSeen

namespace Store

/-- Whether a pipeline without an input can be run on data, as filters on an origin. -/
structure Runnable (D : Item → Prop) (aside : Option CursorId) (multi : Bool) (store : Store) (u : SequenceId)
    (rules : List Rule) (d : Value) (origin : Origin) : Prop where
  flag : (store.sequence u).multiValue = multi
  form : ∃ steps kept, (store.sequence u).body = .pipeline steps .null kept ∧ store.Lists D multi steps rules
  given : d.isNull = false
  taken : ∃ body, store.TakenFor multi d body ∧ store.Backs D aside body origin
  free : origin.held = none

variable {D : Item → Prop} {aside : Option CursorId} {multi : Bool} {store after first : Store} {u out : SequenceId}
  {rules : List Rule} {d : Value} {origin : Origin} {ids more : List SequenceId} {own : CursorId → Prop} {k : CursorId}
  {tape : Tape} {tower : Tower} {n : Nat}

theorem Runnable.spared (runnable : store.Runnable D aside multi u rules d origin)
    (spares : ∀ ids, store.Spares ids after) : after.Runnable D aside multi u rules d origin := by
  obtain ⟨flag, ⟨steps, kept, form, lists⟩, given, ⟨body, taken, backs⟩, free⟩ := runnable
  have same := (spares [u]).same u List.mem_cons_self
  have grows := (spares []).grows
  exact ⟨by rw [same, flag], ⟨steps, kept, by rw [same, form], lists.later grows⟩, given, ⟨body,
    fun later grows' => taken later (grows.trans grows'), backs.later grows (fun id _ => (spares []).calls id)
      (spares []).cursors (spares []).still⟩, free⟩

/-- A pipeline can be run with any iterator kept aside. -/
theorem Runnable.setAside (runnable : store.Runnable D none multi u rules d origin) (repeats : origin.Repeats)
    (plays : store.Plays D k tape) : store.Runnable D (some k) multi u rules d (origin.keeping tape) := by
  obtain ⟨body, taken, backs⟩ := runnable.taken
  refine { runnable with
    taken := ⟨body, taken, backs.setAside (some k) repeats fun other found => ?_⟩, free := runnable.free }
  cases found
  exact ⟨plays, by simp [backs.feed_free runnable.free]⟩

/-- Building a chain on data that are given adds the sequences of the chain and changes nothing else. -/
theorem Runnable.build (runnable : store.Runnable D aside multi u rules d origin) (deep : rules.length + 2 ≤ n) :
    ∃ out ids built, ((calls n).buildFor u d).from? store = (.ok (.ofSequence out), built) ∧
      built.Stands D aside multi out ids (.filters rules (.ground {} origin)) ∧ store.Widens [] ids ∧
      store.Works [] built := by
  obtain ⟨n, rfl⟩ : ∃ k, n = k + 1 := ⟨n - 1, by omega⟩
  obtain ⟨flag, ⟨steps, kept, form, lists⟩, given, ⟨body, taken, backs⟩, free⟩ := runnable
  let state : SequenceState := { body := body, multiValue := multi }
  have there := sequence_joined_new store state
  have works := works_joined store state []
  have lists' := lists.later works.grows
  have same : (store.joined state).list steps = store.list steps := works.grows.list lists.inside
  obtain ⟨out, layers, built, ends, stands, many, new, works'⟩ := applyAll_joined (n := n)
    (stands_ground_joined backs) lists'.sound (by
      rw [Tower.height, ← List.length_map ((store.joined state).ruleOfStep multi), ← lists'.rules]
      omega)
  rw [← lists'.rules] at stands
  refine ⟨out, _, built, ?_, stands, ⟨by simp, fun id member => .inr ?_⟩, works.trans works'⟩
  · rw [from?_buildFor_given form given, flag, Calls.build, Run.from?_bind_ok (taken store (.refl store))]
    change (Run.sequence ⟨store.sequences.size⟩ >>= _).from? (store.joined state) = _
    rw [Run.from?_bind_ok (Run.from?_sequence ..), there]
    exact ends
  · rcases List.mem_append.mp member with layer | ground
    · exact Nat.le_trans works.size (new id layer)
    · obtain rfl := List.mem_singleton.mp ground
      exact Nat.le_refl _

/-- What ended as a step does ended as another one does that is told of it, with some state. -/
theorem EndsLike.left {α β σ τ : Type} {tells tells' : Store → α → β → Prop} {rel : Store → σ → Prop}
    {rel' : Store → τ → Prop} {ending : Except Halt α × Store} {answer : Except Fault β} {left : σ}
    {told : Option (Except Fault β × τ)} (ends : EndsLike tells rel ending (some (answer, left)))
    (ends' : EndsLike tells' rel' ending told) :
    ∃ answer' left', told = some (answer', left') ∧ rel' ending.2 left' := by
  rcases told with _ | ⟨answer', left'⟩
  · obtain ⟨ended, after⟩ := ending
    obtain rfl : ended = .error .outOfFuel := ends'
    rcases answer with fault | b
    · cases ends.1
    · exact ends.1.elim
  · exact ⟨answer', left', rfl, ends'.2⟩

/-! ## Collecting -/

/-- Collecting a pipeline on data that are given ends as for its filters, and touches nothing that was there. -/
theorem Runnable.collect (runnable : store.Runnable D none multi u rules d origin) (repeats : origin.Repeats)
    (deep : 4 * rules.length + 5 ≤ n) :
    EndsLike (fun last => last.ShowsAll D) (fun last _ => store.Confined D [] [] (fun _ => False) last)
      (((calls n).collect u d).from? store) ((Tower.filters rules (.ground {} origin)).force n) := by
  have collects : ∀ {aside : Option CursorId} {origin : Origin}, store.Runnable D aside multi u rules d origin →
      EndsLike (fun last => last.ShowsAll D) (fun last left => store.Touches [] (fun _ => False) last ∧
        ∃ out ids, last.Stands D aside multi out ids left) (((calls n).collect u d).from? store)
        ((Tower.filters rules (.ground {} origin)).force n) := by
    intro aside origin runnable
    obtain ⟨out, ids, built, ends, stands, widens, works⟩ := runnable.build (n := n) (by omega)
    have collects : ((calls n).collect u d).from? store = ((calls n).force out).from? built := by
      rw [Calls.collect]
      simp only [runnable.given]
      exact Run.from?_bind_ok ends
    rw [collects]
    refine ((tracks_stands built out ids).force ⟨stands, .refl ids built⟩ (by
      simp only [Tower.height_filters, Tower.height]
      omega)).further fun left forced => ⟨?_, out, ids, forced.1.1⟩
    exact widens.touches ((works.mono fun _ member => absurd member List.not_mem_nil).trans forced.1.2).touches
  have led : Store.Led multi .abstract ⟨0⟩ .null u store (((calls n).collect u d).from? store).2 :=
    (Calls.leads_calls _ _ _ _ _ n).obeys.collect u d store
  have plain := collects runnable
  rcases told : (Tower.filters rules (.ground {} origin)).force n with _ | ⟨answer, left⟩ <;> rw [told] at plain
  · exact plain
  · refine ⟨plain.1, plain.2.1, .refl store [], fun k tape plays apart => ?_, led.1.callsOf⟩
    obtain ⟨answer', left', told', -, out, ids, stands⟩ := plain.left (collects (runnable.setAside repeats plays))
    have keeps := (Tower.steady_keepsAside tape).force (Tower.keepsAside_filters repeats tape) told'
    exact ⟨keeps.2 ▸ stands.plays, by simp [HeldBy]⟩

/-! ## Streaming -/

theorem Streams.stands {scene : Scene} (streams : store.Streams D aside multi k u d out ids scene) :
    store.Stands D aside multi out ids scene.tower := by
  cases streams <;> assumption

/-- A stream is where its scene is with any iterator kept aside that its chain does not hold. -/
theorem Streams.setAside {scene : Scene} {other : CursorId} (streams : store.Streams D none multi k u d out ids scene)
    (repeats : scene.tower.Repeats) (plays : store.Plays D other tape) (apart : ¬ store.HeldBy ids other) :
    store.Streams D (some other) multi k u d out ids { scene with tower := scene.tower.keeping tape } := by
  cases streams with
  | drawing here stands => exact .drawing here (stands.setAside repeats plays apart)
  | spent here stands => exact .spent here (stands.setAside repeats plays apart)

/-- Whether a stream on data that repeat is where a scene is, and since some store only what is its own was touched: the
sequences that it had then and new ones. Any iterator that it did not hold then is kept aside since. -/
def Flows (D : Item → Prop) (multi : Bool) (k : CursorId) (u : SequenceId) (d : Value) (ids : List SequenceId)
    (store first : Store) (scene : Scene) : Prop :=
  ∃ out more, first.Widens ids more ∧ store.Streams D none multi k u d out more scene ∧ scene.tower.Repeats ∧
    first.Touches more (· = k) store ∧ ∀ other tape, first.Plays D other tape → ¬ first.HeldBy ids other →
      ∃ scene', store.Streams D (some other) multi k u d out more scene' ∧ scene'.tower.KeepsAside tape

/-- A stream that flows is confined to its own. -/
theorem Flows.confined {scene : Scene} (flows : store.Flows D multi k u d ids first scene)
    (calls : ∀ id, first.callsOf id ≤ store.callsOf id) :
    ∃ out more, store.Streams D none multi k u d out more scene ∧ scene.tower.Repeats ∧
      first.Confined D ids more (· = k) store := by
  obtain ⟨out, more, widens, streams, repeats, touches, aside⟩ := flows
  refine ⟨out, more, streams, repeats, widens.touches touches, widens, fun other tape plays apart => ?_, calls⟩
  obtain ⟨scene', streams', keeps⟩ := aside other tape plays apart
  exact ⟨keeps.2 ▸ streams'.stands.plays, streams'.stands.not_heldBy keeps.1⟩

/-- A stream that flows is asked as its scene says, at every depth, and flows on. -/
theorem Flows.advance (n : Nat) {scene : Scene} (flows : store.Flows D multi k u d ids first scene) :
    EndsLike (fun after v item => after.Shows D item v)
      (fun after left => after.Flows D multi k u d ids first left ∧ store.Grows after)
      (((calls n).advance k).from? store) (scene.advance 0 n) := by
  obtain ⟨out, more, widens, streams, repeats, touches, aside⟩ := flows
  have plain := advance_streams n streams
  rcases told : scene.advance 0 n with _ | ⟨answer, left⟩ <;> rw [told] at plain
  · exact plain
  · refine ⟨plain.1, ⟨out, more, widens, plain.2.1, Scene.advance_keeps Tower.steady_repeats repeats told,
      touches.trans plain.2.2, fun other tape plays apart => ?_⟩, plain.2.2.grows⟩
    obtain ⟨scene', there, keeps⟩ := aside other tape plays apart
    obtain ⟨answer', left', told', after⟩ := plain.left (advance_streams n there)
    exact ⟨left', after.1, Scene.advance_keeps (Tower.steady_keepsAside tape) keeps told'⟩

/-- A stream that was begun flows as long as nothing is asked of it. -/
theorem Streams.flows {scene : Scene} (streams : store.Streams D none multi k u d out ids scene)
    (repeats : scene.tower.Repeats) : store.Flows D multi k u d ids store scene :=
  ⟨out, ids, .refl store ids, streams, repeats, .refl ids _ store, fun _ tape plays apart =>
    ⟨_, streams.setAside repeats plays apart, repeats.keepsAside tape⟩⟩

/-- A stream that was not begun builds its chain when it is asked for the first time, and flows from then on. -/
theorem Runnable.advance (runnable : store.Runnable D none multi u rules d origin) (repeats : origin.Repeats)
    (here : store.cursor k = .streaming u d .fresh) (deep : rules.length + 3 ≤ n) :
    EndsLike (fun after v item => after.Shows D item v)
      (fun after left => after.Flows D multi k u d [] store left ∧ store.Grows after)
      (((calls n).advance k).from? store) (Scene.advance 0 n ⟨.filters rules (.ground {} origin), [.fresh]⟩) := by
  obtain ⟨n, rfl⟩ : ∃ m, n = m + 1 := ⟨n - 1, by omega⟩
  have stream : (store.cursor k).isStream := by rw [here]; rfl
  have spares := spares_withStream u d .running stream
  have fresh : ∀ {origin : Origin}, origin.held = none → (Tower.filters rules (.ground {} origin)).Fresh :=
    fun free => Tower.fresh_filters ⟨rfl, free⟩
  obtain ⟨out, ids, built, ends, stands, widens, works⟩ := (runnable.spared spares).build (n := n) (by omega)
  have plain := advance_begins n here runnable.given ends (works.mono (by simp)) stands (fresh runnable.free).pass
  rcases told : Scene.advance 0 (n + 1) ⟨.filters rules (.ground {} origin), [.fresh]⟩ with _ | ⟨answer, left⟩ <;>
    rw [told] at plain
  · exact plain
  · have again : (Tower.filters rules (.ground {} origin)).Repeats :=
      Tower.repeats_filters (show (Tower.ground {} origin).Repeats from repeats)
    refine ⟨plain.1, ⟨out, ids, ⟨widens.kept, widens.new⟩, plain.2.1,
      Scene.advance_keeps Tower.steady_repeats again told, plain.2.2,
      fun other tape plays apart => ?_⟩, plain.2.2.grows⟩
    -- The chain is the same whatever is kept aside.
    have runnable' := runnable.setAside repeats plays
    obtain ⟨out', ids', built', ends', stands', -, works'⟩ := (runnable'.spared spares).build (n := n) (by omega)
    rw [ends] at ends'
    cases ends'
    rw [← stands.ids_eq stands'] at stands'
    obtain ⟨answer', left', told', after⟩ := plain.left
      (advance_begins n here runnable'.given ends (works.mono (by simp)) stands' (fresh runnable'.free).pass)
    exact ⟨left', after.1,
      Scene.advance_keeps (Tower.steady_keepsAside tape) (Tower.keepsAside_filters repeats tape) told'⟩

/-- All further elements of a stream, if it flows once it is asked. -/
theorem listOf_flows {scene : Scene} {phase : StreamPhase} (here : store.cursor k = .streaming u d phase)
    (draws : EndsLike (fun after v item => after.Shows D item v)
      (fun after left => after.Flows D multi k u d ids store left ∧ store.Grows after)
      (((calls n).advance k).from? store) (scene.advance 0 n)) :
    EndsLike (fun last => last.ShowsAll D) (fun last left => last.Flows D multi k u d ids store left)
      (((calls (n + 1)).listOf (.ofCursor k)).from? store) (gatherBy (Scene.advance 0) (n + 1) scene []) := by
  rw [from?_listOf_stream here]
  exact (gather_step (fun last left => last.Flows D multi k u d ids store left) draws
    (fun after left flows grows v item shows' => gather_likewise _ (fun m _ _ flows => flows.advance m) n flows
      (.cons shows' .nil)) (fun _ _ flows => flows) .nil).further fun _ ended => ended.1

end Store

end FirstSeen
