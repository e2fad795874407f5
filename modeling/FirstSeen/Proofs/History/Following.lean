import FirstSeen.Proofs.History.Keeping
import FirstSeen.Proofs.Tower.Holding

/-!
# Sessions that follow scenes

A session *follows* a scene if its pipeline holds the tower of the scene and its streams are where the scene
says. Each operation on the session then ends as it does on the scene, deep enough for the chain of the
pipeline to be built, and leaves a session that follows the scene that is left. So do any number of them.

What counts as holding a tower is left open: any relation will do that is kept by what is asked of the pipeline.
-/

set_option autoImplicit false

namespace FirstSeen

/-- Where the iterator of a stream of a pipeline is, given the course of the stream. -/
def Course.phase (p : SequenceId) : Course → StreamPhase
  | fresh => .fresh
  | drawing => .delegating (.sequence p)
  | spent => .finished

namespace Store

section Following

variable (held stood : Store → Tower → Prop) (own : CursorId → Prop)

/-- Whether a pipeline with some streams of its own is where a scene is. -/
structure Follows (store : Store) (p : SequenceId) (streams : List CursorId) (scene : Scene) : Prop where
  holds : held store scene.tower
  many : streams.length = scene.streams.length
  apart : streams.Nodup
  own : ∀ k ∈ streams, own k
  courses : ∀ (i : Nat) k (course : Course), streams[i]? = some k → scene.streams[i]? = some course →
    store.cursor k = .streaming p .null (course.phase p)

/-- Whether a stream was begun, and is over or can be asked at every depth. -/
def Ready (store : Store) (p : SequenceId) (streams : List CursorId) (i : Nat) (scene : Scene) : Prop :=
  store.Follows held own p streams scene ∧
    (scene.streams[i]? = some .spent ∨ scene.streams[i]? = some .drawing ∧ stood store scene.tower)

end Following

/-- Whether an answer shows another one. -/
def TellsAnswer (D : Item → Prop) (store : Store) : Answer Value → Answer Item → Prop
  | .nothing, .nothing => True
  | .element v, .element item => store.Shows D item v
  | .elements values, .elements items => store.ShowsAll D values items
  | .size v, .size v' => v = v'
  | .flag b, .flag b' => b = b'
  | _, _ => False

variable {D : Item → Prop} {multi : Bool} {held stood : Store → Tower → Prop} {own : CursorId → Prop} {more : Nat}

/-! ## Where streams are -/

theorem cursor_push (store : Store) (cursor : Cursor) :
    Store.cursor { store with cursors := store.cursors.push cursor } ⟨store.cursors.size⟩ = cursor := by
  simp [Store.cursor]

theorem cursor_push_of_lt {store : Store} {cursor : Cursor} {k : CursorId} (inside : k.index < store.cursors.size) :
    Store.cursor { store with cursors := store.cursors.push cursor } k = store.cursor k := by
  simp [Store.cursor, Array.getD_eq_getD_getElem?, Array.getElem?_push_lt inside, inside]

/-- A new iterator spares all chains. -/
theorem spares_push (store : Store) (cursor : Cursor) (ids : List SequenceId) :
    store.Spares ids { store with cursors := store.cursors.push cursor } :=
  ⟨⟨⟨#[], by simp⟩, ⟨#[], by simp⟩, rfl, rfl, fun _ => rfl, rfl, Nat.le_refl _⟩, Nat.le_refl _, fun _ _ => rfl,
    by simp, fun _ inside _ => cursor_push_of_lt inside, fun _ => rfl⟩

/-- The store with a stream of a pipeline in another phase. -/
def withStream (store : Store) (k : CursorId) (p : SequenceId) (input : Value) (phase : StreamPhase) : Store :=
  { store with cursors := store.cursors.modify k.index fun _ => .streaming p input phase }

theorem cursor_withStream {store : Store} {k : CursorId} {p : SequenceId} {input : Value} {phase : StreamPhase}
    (stream : (store.cursor k).isStream) :
    (store.withStream k p input phase).cursor k = .streaming p input phase := by
  have inside := inside_of_isStream stream
  simp [withStream, Store.cursor, Array.getD_eq_getD_getElem?, Array.getElem_modify, inside]

theorem cursor_withStream_ne {store : Store} {k other : CursorId} {p : SequenceId} {input : Value} {phase : StreamPhase}
    (different : other ≠ k) : (store.withStream k p input phase).cursor other = store.cursor other := by
  have apart : k.index ≠ other.index := fun same => different (by cases other; cases k; simp_all)
  simp [withStream, Store.cursor, Array.getD_eq_getD_getElem?, Array.getElem?_modify, apart]

/-- Moving a stream spares all chains. -/
theorem spares_withStream {store : Store} {k : CursorId} (p : SequenceId) (input : Value) (phase : StreamPhase)
    (stream : (store.cursor k).isStream) (ids : List SequenceId) :
    store.Spares ids (store.withStream k p input phase) := by
  refine ⟨⟨⟨#[], by simp [withStream]⟩, ⟨#[], by simp [withStream]⟩, rfl, rfl, fun _ => rfl, rfl,
    Nat.le_refl _⟩, Nat.le_refl _, fun _ _ => rfl, by simp [withStream], fun other _ noStream => ?_,
    fun _ => rfl⟩
  refine cursor_withStream_ne fun same => ?_
  rw [same, stream] at noStream
  cases noStream

/-- All items of a stream are those that are gathered from it, since it does not tell how many are to come. -/
theorem from?_listOf_stream {store : Store} {c : Calls} {k : CursorId} {p : SequenceId} {input : Value}
    {phase : StreamPhase} (was : store.cursor k = .streaming p input phase) :
    (c.listOf (.ofCursor k)).from? store = (c.gather (.cursor k) []).from? store := by
  have told : (Run.remainingOf (.ofCursor k)).from? store = (.ok .null, store) := by
    rw [Value.ofCursor, Run.remainingOf, Run.from?_bind_ok (Run.from?_cursor ..), was]
    rfl
  have room : (Run.makeRoom (.ofCursor k)).from? store = (.ok (), store) := by
    rw [Run.makeRoom, Run.from?_bind, Run.from?_onFault, told]
    rfl
  rw [Calls.listOf, Run.from?_bind_ok (show (Run.openFeed (.ofCursor k)).from? store =
    (.ok (.cursor k), store) from rfl), Run.from?_bind_ok room]

/-- A pipeline that has no streams is where a scene without streams is. -/
theorem follows_nil {store : Store} {p : SequenceId} {tower : Tower} (holds : held store tower) :
    store.Follows held own p [] ⟨tower, []⟩ :=
  ⟨holds, rfl, .nil, fun _ member => absurd member List.not_mem_nil, fun _ _ _ found => by simp at found⟩

/-- What keeps streams leaves them where a scene says. -/
theorem Follows.kept {store after : Store} {p : SequenceId} {streams : List CursorId} {scene : Scene}
    {left : Tower} (follows : store.Follows held own p streams scene)
    (holds : held after left) (keeps : store.Keeps after) :
    after.Follows held own p streams { scene with tower := left } := by
  refine ⟨holds, follows.many, follows.apart, follows.own, fun i k course there found => ?_⟩
  have was := follows.courses i k course there found
  rw [keeps.streams k (by rw [was]; rfl), was]

/-- A stream that has moved is where a scene with another course for it says. -/
theorem Follows.set {store after : Store} {p : SequenceId} {streams : List CursorId} {scene : Scene}
    {left : Tower} {i : Nat} {k : CursorId} {course : Course}
    (follows : store.Follows held own p streams scene) (there : streams[i]? = some k)
    (holds : held after left) (here : after.cursor k = .streaming p .null (course.phase p))
    (others : ∀ other ≠ k, (store.cursor other).isStream → after.cursor other = store.cursor other) :
    after.Follows held own p streams ⟨left, scene.streams.set i course⟩ := by
  refine ⟨holds, by simpa using follows.many, follows.apart, follows.own, fun j other course' there' found => ?_⟩
  by_cases same : j = i
  · subst same
    obtain rfl : k = other := Option.some.inj (there.symm.trans there')
    obtain ⟨inside, rfl⟩ : ∃ inside : j < scene.streams.length, course = course' := by
      simpa [List.getElem?_set] using found
    exact here
  · have found' : scene.streams[j]? = some course' := by rwa [List.getElem?_set_ne (Ne.symm same)] at found
    have was := follows.courses j other course' there' found'
    rw [others other ?_ (by rw [was]; rfl), was]
    rintro rfl
    obtain ⟨inside, -⟩ := List.getElem?_eq_some_iff.mp there'
    exact same ((List.getElem?_inj inside follows.apart).mp (there'.trans there.symm))

/-- A stream of a pipeline is its own. -/
theorem Follows.owns {store : Store} {p : SequenceId} {streams : List CursorId} {scene : Scene} {i : Nat} {k : CursorId}
    (follows : store.Follows held own p streams scene) (there : streams[i]? = some k) : own k :=
  follows.own k (List.mem_of_getElem? there)

/-- Only streams of its own move while a pipeline moves one. -/
theorem cursor_withStream_foreign {store : Store} {k other : CursorId} {p : SequenceId} {phase : StreamPhase}
    (owns : own k) (foreign : ¬ own other) : (store.withStream k p .null phase).cursor other = store.cursor other :=
  cursor_withStream_ne fun same => foreign (same ▸ owns)

/-! ## Drawing for a stream -/

namespace Tracks

variable {p : SequenceId} (tracks : Tracks D multi own p held stood more)
include tracks

/-- A stream that is being asked draws from its pipeline as its course says, and is where the course is then. -/
theorem drawStream {n : Nat} {first : Store} (store : Store) {streams : List CursorId}
    {scene : Scene} {tower : Tower} {i : Nat} {k : CursorId}
    (follows : first.Follows held own p streams scene) (there : streams[i]? = some k)
    (running : (store.cursor k).isStream)
    (others : ∀ other ≠ k, (first.cursor other).isStream → store.cursor other = first.cursor other)
    (asked : EndsLike (fun after v item => after.Shows D item v)
      (fun after left => stood after left ∧ store.Keeps after)
      (((calls n).next p).from? store) (tower.next n)) :
    EndsLike (fun after v item => after.Shows D item v)
      (fun after left => after.Ready held stood own p streams i left ∧ store.Grows after)
      (((calls n).drawStream k p .null (.sequence p)).from? store)
      ((tower.next n).map (Scene.hand scene.streams i)) := by
  have inside : i < scene.streams.length := follows.many ▸ (List.getElem?_eq_some_iff.mp there).1
  -- Whatever the draw came to, only the phase of the stream changes after it.
  have owns := follows.owns there
  have moved : ∀ (after : Store) (left : Tower) (course : Course), course ≠ .fresh →
      stood after left ∧ store.Keeps after →
      (after.withStream k p .null (course.phase p)).Ready held stood own p streams i
        ⟨left, scene.streams.set i course⟩ ∧ store.Grows (after.withStream k p .null (course.phase p)) := by
    rintro after left course begun ⟨awake, keeps⟩
    have stream : (after.cursor k).isStream := by rwa [keeps.streams k running]
    have spares := spares_withStream p .null (course.phase p) stream
    have stands : stood (after.withStream k p .null (course.phase p)) left :=
      tracks.stays awake spares fun _ => cursor_withStream_foreign owns
    have set : (scene.streams.set i course)[i]? = some course := by simp [inside]
    refine ⟨⟨follows.set there (tracks.holds stands) (cursor_withStream stream)
      fun other different was => ?_, ?_⟩, keeps.grows.trans (spares []).grows⟩
    · have same := others other different was
      rw [cursor_withStream_ne different, keeps.streams other (by rwa [same]), same]
    · cases course with
      | fresh => exact absurd rfl begun
      | drawing => exact .inr ⟨set, stands⟩
      | spent => exact .inl set
  rw [Calls.drawStream, Run.from?_bind, Run.from?_onFault,
    show (calls n).draw (.sequence p) = (calls n).next p from rfl]
  rcases ends : ((calls n).next p).from? store with ⟨ended, after⟩
  rw [ends] at asked
  cases told : tower.next n with
  | none =>
    rw [told] at asked
    obtain rfl : ended = .error .outOfFuel := asked
    rfl
  | some pair =>
    rw [told] at asked
    obtain ⟨fault | item, left⟩ := pair <;> obtain ⟨agrees, related⟩ := asked
    · rcases ended with halt | v
      · obtain rfl : halt = .fault fault := agrees
        exact ⟨rfl, moved after left .spent (by simp) related⟩
      · exact agrees.elim
    · rcases ended with halt | v
      · exact agrees.elim
      · have stream : (after.cursor k).isStream := by rwa [related.2.streams k running]
        exact ⟨(spares_withStream p .null _ stream []).grows.shows agrees,
          moved after left .drawing (by simp) related⟩

/-- Asking a stream that was begun ends as its scene says, at every depth. -/
theorem advanceReady (n : Nat) {store : Store} {streams : List CursorId} {scene : Scene}
    {i : Nat} {k : CursorId} (there : streams[i]? = some k)
    (ready : store.Ready held stood own p streams i scene) :
    EndsLike (fun after v item => after.Shows D item v)
      (fun after left => after.Ready held stood own p streams i left ∧ store.Grows after)
      (((calls n).advance k).from? store) (scene.advance i n) := by
  cases n with
  | zero => exact rfl
  | succ n =>
    obtain ⟨follows, course⟩ := ready
    change EndsLike _ _ (((calls n).advanceWith k).from? store) _
    rw [Calls.advanceWith, Run.from?_bind_ok (Run.from?_cursor ..), Scene.advance]
    rcases course with spent | ⟨drawing, awake⟩
    · rw [follows.courses i k _ there spent, spent]
      exact ⟨rfl, ⟨follows, .inl spent⟩, .refl store⟩
    · have was := follows.courses i k _ there drawing
      have stream : (store.cursor k).isStream := by rw [was]; rfl
      rw [was, drawing]
      have spares := spares_withStream p .null .running stream
      have running := tracks.stays awake spares fun _ => cursor_withStream_foreign (follows.owns there)
      refine (tracks.drawStream (store.withStream k p .null .running) follows there
        (by rw [cursor_withStream stream]; rfl) (fun other different _ => cursor_withStream_ne different)
        (tracks.draws n running)).further ?_
      rintro left ⟨ready, grows⟩
      exact ⟨ready, (spares []).grows.trans grows⟩

/-- Setting a stream up ends as taking its pipeline back does, if that was started. -/
theorem beginStream {n : Nat} {store : Store} {tower : Tower} (holds : held store tower) (deep : tower.height ≤ n) :
    ∃ after, ((calls n).beginStream p .null).from? store =
        ((ending tower.restart.1).map fun _ => .sequence p, after) ∧
      held after tower.restart.2 ∧ store.Keeps after := by
  obtain ⟨after, ends, holds', keeps⟩ := tracks.restart holds deep
  refine ⟨after, ?_, holds', keeps⟩
  have unfolded : ((calls n).beginStream p .null).from? store =
      ((fun _ => Feed.sequence p) <$>
        (if (store.sequence p).started then (calls n).rewind p else pure ())).from? store := by
    rw [Calls.beginStream]
    simp only [Value.isNull, if_true]
    rw [Run.from?_bind_ok (Run.from?_sequence ..)]
    split <;> rfl
  rw [unfolded, Run.from?_map, ends]

/-- Asking a stream ends as its scene says, deep enough for its pipeline to be asked. -/
theorem advance {n : Nat} {store : Store} {streams : List CursorId} {scene : Scene}
    {i : Nat} {k : CursorId} (there : streams[i]? = some k)
    (follows : store.Follows held own p streams scene) (deep : 4 * scene.tower.height + more + 1 ≤ n) :
    EndsLike (fun after v item => after.Shows D item v)
      (fun after left => after.Ready held stood own p streams i left ∧ store.Grows after)
      (((calls n).advance k).from? store) (scene.advance i n) := by
  obtain ⟨n, rfl⟩ : ∃ m, n = m + 1 := ⟨n - 1, by omega⟩
  have inside : i < scene.streams.length := follows.many ▸ (List.getElem?_eq_some_iff.mp there).1
  change EndsLike _ _ (((calls n).advanceWith k).from? store) _
  rw [Calls.advanceWith, Run.from?_bind_ok (Run.from?_cursor ..), Scene.advance,
    List.getElem?_eq_getElem inside]
  have was := follows.courses i k _ there (List.getElem?_eq_getElem inside)
  have stream : (store.cursor k).isStream := by rw [was]; rfl
  rw [was]
  have spares := spares_withStream p .null .running stream
  have running : ((store.withStream k p .null .running).cursor k).isStream := by
    rw [cursor_withStream stream]
    rfl
  have owns := follows.owns there
  have asking := tracks.spared follows.holds spares fun _ => cursor_withStream_foreign owns
  cases course : scene.streams[i] with
  | spent =>
    have spent : scene.streams[i]? = some .spent := by rw [List.getElem?_eq_getElem inside, course]
    exact ⟨rfl, ⟨follows, .inl spent⟩, .refl store⟩
  | drawing =>
    refine (tracks.drawStream (store.withStream k p .null .running) follows there running
      (fun other different _ => cursor_withStream_ne different) (tracks.next asking (by omega))).further ?_
    rintro left ⟨ready, grows⟩
    exact ⟨ready, (spares []).grows.trans grows⟩
  | fresh =>
    obtain ⟨after, ends, holds, keeps⟩ := tracks.beginStream asking (n := n) (by omega)
    have height := Tower.height_restart scene.tower
    have others : ∀ other ≠ k, (store.cursor other).isStream → after.cursor other = store.cursor other :=
      fun other different was => by
        have same : (store.withStream k p .null .running).cursor other = store.cursor other :=
          cursor_withStream_ne different
        rw [keeps.streams other (by rwa [same]), same]
    have still : (after.cursor k).isStream := by rwa [keeps.streams k running]
    change EndsLike _ _ (((do
      let feed ← Run.onFault ((calls n).beginStream p .null) fun fault => do
        Run.setCursor k (.streaming p .null .finished)
        Run.fail (Run.insteadOfEnd .generatorSignalledEnd fault)
      (calls n).drawStream k p .null feed : Run Value)).from? (store.withStream k p .null .running)) _
    rw [Run.from?_bind, Run.from?_onFault, ends]
    rcases restarts : scene.tower.restart with ⟨_ | fault, left⟩ <;> rw [restarts] at holds height
    · have rewound : held after left := holds
      have same : left.height = scene.tower.height := height
      refine (tracks.drawStream after follows there still others (tracks.next rewound (by omega))).further ?_
      rintro last ⟨ready, grows⟩
      exact ⟨ready, ((spares []).grows.trans keeps.grows).trans grows⟩
    · have last := spares_withStream p .null .finished still
      have ended : held (after.withStream k p .null .finished) left :=
        tracks.spared holds last fun _ => cursor_withStream_foreign owns
      refine ⟨rfl, ⟨follows.set there ended (cursor_withStream still) fun other different was => ?_,
        .inl (by simp [inside])⟩, ((spares []).grows.trans keeps.grows).trans (last []).grows⟩
      exact (cursor_withStream_ne different).trans (others other different was)

end Tracks

/-! ## Operations -/

/-- What ends as a step does ends so with other answers, and with more around the states. -/
theorem EndsLike.map {α α' β β' σ σ' : Type} {tells : Store → α → β → Prop} {tells' : Store → α' → β' → Prop}
    {rel : Store → σ → Prop} {rel' : Store → σ' → Prop} {ending : Except Halt α × Store}
    {told : Option (Except Fault β × σ)} (h : EndsLike tells rel ending told) {f : α → α'} {g : β → β'}
    (around : σ → σ') (answers : ∀ a b, tells ending.2 a b → tells' ending.2 (f a) (g b))
    (states : ∀ left, rel ending.2 left → rel' ending.2 (around left)) :
    EndsLike tells' rel' (ending.1.map f, ending.2)
      (told.map fun drawn => (drawn.1.map g, around drawn.2)) := by
  rcases told with _ | ⟨answer, left⟩
  · obtain ⟨ended, after⟩ := ending
    obtain rfl : ended = .error .outOfFuel := h
    rfl
  · obtain ⟨agrees, related⟩ := h
    refine ⟨?_, states left related⟩
    rcases ending with ⟨halt | a, after⟩ <;> rcases answer with fault | b
    · exact agrees
    · exact agrees.elim
    · exact agrees.elim
    · exact answers a b agrees

/-- How an operation ends that makes no stream: with an answer that shows that of the scene. -/
def EndsOp (store : Store) (D : Item → Prop) (held : Store → Tower → Prop) (own : CursorId → Prop)
    (p : SequenceId) (streams : List CursorId) :
    Except Halt (Answer Value × List CursorId) × Store → Option (Except Fault (Answer Item) × Scene) → Prop :=
  EndsLike (fun after answer told => after.TellsAnswer D answer.1 told ∧ answer.2 = streams)
    (fun after left => after.Follows held own p streams left ∧ store.Grows after)

/-- What is asked of the pipeline alone leaves its streams. -/
theorem endsOp_onTower {α β : Type} {store : Store} {p : SequenceId} {streams : List CursorId} {scene : Scene}
    {run : Run α} {tells : Store → α → β → Prop} {told : Option (Except Fault β × Tower)}
    (follows : store.Follows held own p streams scene)
    (ends : EndsLike tells (fun after left => held after left ∧ store.Keeps after)
      (run.from? store) told) {f : α → Answer Value} {g : β → Answer Item}
    (answers : ∀ after a b, tells after a b → after.TellsAnswer D (f a) (g b)) :
    store.EndsOp D held own p streams ((do return (f (← run), streams) : Run _).from? store)
      (scene.onTower g told) := by
  have unfolded : (do return (f (← run), streams) : Run _).from? store =
      ((run.from? store).1.map fun a => (f a, streams), (run.from? store).2) :=
    Run.from?_map run (fun a => (f a, streams)) store
  rw [unfolded]
  refine ends.map (f := fun a => (f a, streams)) (g := g) (fun left => { scene with tower := left }) ?_ ?_
  · exact fun a b told => ⟨answers _ a b told, rfl⟩
  · rintro left ⟨holds, keeps⟩
    exact ⟨follows.kept holds keeps, keeps.grows⟩

namespace Tracks

variable {p : SequenceId} (tracks : Tracks D multi own p held stood more)
include tracks

/-- Each operation that makes no stream ends as it does on the scene. -/
theorem run {n : Nat} {store : Store} {streams : List CursorId} {scene : Scene} {op : Op}
    (follows : store.Follows held own p streams scene)
    (deep : 4 * scene.tower.height + more + 2 ≤ n) (old : op ≠ .stream) :
    store.EndsOp D held own p streams ((op.run (calls n) p streams).from? store)
      (scene.perform multi n op) := by
  have awake : ∀ after left, stood after left ∧ store.Keeps after →
      held after left ∧ store.Keeps after := fun after left asked =>
    ⟨tracks.holds asked.1, asked.2⟩
  cases op with
  | next =>
    exact endsOp_onTower (f := .element) follows ((tracks.next follows.holds (by omega)).further (awake _))
      fun _ _ _ told => told
  | peek =>
    exact endsOp_onTower (f := .element) follows (tracks.peek follows.holds (by omega)) fun _ _ _ told => told
  | force =>
    exact endsOp_onTower (f := .elements) follows (tracks.force follows.holds (by omega)) fun _ _ _ told => told
  | collect =>
    exact endsOp_onTower (f := .elements) follows (tracks.force follows.holds (by omega)) fun _ _ _ told => told
  | rewind =>
    obtain ⟨after, ends, holds, keeps⟩ := tracks.rewind follows.holds (n := n) (by omega)
    rw [Op.run, Run.from?_bind, ends, Scene.perform]
    rcases rewinds : scene.tower.rewind with ⟨_ | fault, left⟩ <;> rw [rewinds] at holds
    · exact ⟨⟨trivial, rfl⟩, follows.kept holds keeps, keeps.grows⟩
    · exact ⟨rfl, follows.kept holds keeps, keeps.grows⟩
  | size =>
    obtain ⟨after, ends, stands, keeps⟩ := tracks.size follows.holds (n := n) (by omega)
    have holds := tracks.holds stands
    rw [Op.run, Run.from?_bind, ends, Scene.perform]
    cases scene.tower.size with
    | error fault => exact ⟨rfl, follows.kept holds keeps, keeps.grows⟩
    | ok v => exact ⟨⟨rfl, rfl⟩, follows.kept holds keeps, keeps.grows⟩
  | multiValue =>
    obtain ⟨after, ends, stands, keeps⟩ := tracks.flag follows.holds (n := n) (by omega)
    have holds := tracks.holds stands
    rw [Op.run, Run.from?_bind_ok ends]
    exact ⟨⟨rfl, rfl⟩, follows.kept holds keeps, keeps.grows⟩
  | stream => exact absurd rfl old
  | pull i =>
    rw [Op.run, Scene.perform]
    rcases Nat.lt_or_ge i streams.length with inside | outside
    · have there := List.getElem?_eq_getElem inside
      have inside' : i < scene.streams.length := follows.many ▸ inside
      rw [there, List.getElem?_eq_getElem inside']
      change store.EndsOp D held own p streams
        (((fun v => (Answer.element v, streams)) <$> (calls n).advance _).from? store) _
      rw [Run.from?_map]
      refine (tracks.advance there follows (by omega)).map id (fun _ _ told => ⟨told, rfl⟩) ?_
      rintro left ⟨ready, grows⟩
      exact ⟨ready.1, grows⟩
    · have outside' : scene.streams.length ≤ i := follows.many ▸ outside
      rw [List.getElem?_eq_none outside, List.getElem?_eq_none outside']
      exact ⟨⟨trivial, rfl⟩, follows, .refl store⟩
  | drain i =>
    rw [Op.run, Scene.perform]
    rcases Nat.lt_or_ge i streams.length with inside | outside
    · have there := List.getElem?_eq_getElem inside
      have inside' : i < scene.streams.length := follows.many ▸ inside
      rw [there, List.getElem?_eq_getElem inside']
      have gathers := from?_listOf_stream (c := calls n)
        (follows.courses i _ _ there (List.getElem?_eq_getElem inside'))
      change store.EndsOp D held own p streams
        (((fun v => (Answer.elements v, streams)) <$> (calls n).listOf (.ofCursor streams[i])).from? store) _
      rw [Run.from?_map, gathers]
      obtain ⟨n, rfl⟩ : ∃ m, n = m + 1 := ⟨n - 1, by omega⟩
      -- The first draw begins the stream if need be; from then on it can be asked at every depth.
      refine (gather_step _ (tracks.advance there follows (by omega)) (fun after left ready grows v item shows' =>
        gather_likewise _ (fun m between state ready => tracks.advanceReady m there ready) n ready
          (.cons shows' .nil)) (fun _ _ ready => ready) .nil).map id
        (fun _ _ told => ⟨told, rfl⟩) ?_
      rintro left ⟨ready, grows⟩
      exact ⟨ready.1, grows⟩
    · have outside' : scene.streams.length ≤ i := follows.many ▸ outside
      rw [List.getElem?_eq_none outside, List.getElem?_eq_none outside']
      exact ⟨⟨trivial, rfl⟩, follows, .refl store⟩

end Tracks

theorem contents_of_showsAll {store : Store} {values : List Value} {items : List Item}
    (all : store.ShowsAll D values items) : values.map store.contents = items.map Item.contents := by
  induction all with
  | nil => rfl
  | cons shows' _ ih => rw [List.map_cons, List.map_cons, shows'.contents, ih]

/-- An answer that shows another one has its contents. -/
theorem TellsAnswer.contents {store : Store} {answer : Answer Value} {told : Answer Item}
    (tells : store.TellsAnswer D answer told) : answer.map store.contents = told.map Item.contents := by
  cases answer <;> cases told <;> first | exact tells.elim | skip
  · rfl
  · exact congrArg Answer.element (Shows.contents tells)
  · exact congrArg Answer.elements (contents_of_showsAll tells)
  · exact congrArg Answer.size tells
  · exact congrArg Answer.flag tells

/-- A new stream leaves all else where it is. -/
theorem Tracks.newStream {store : Store} {p : SequenceId} {streams : List CursorId} {scene : Scene}
    (tracks : Tracks D multi own p held stood more) (follows : store.Follows held own p streams scene) :
    Store.Follows held own { store with cursors := store.cursors.push (.streaming p .null .fresh) } p
      (streams ++ [⟨store.cursors.size⟩]) { scene with streams := scene.streams ++ [.fresh] } := by
  let after : Store := { store with cursors := store.cursors.push (.streaming p .null .fresh) }
  have old : ∀ id : CursorId, id.index < store.cursors.size → after.cursor id = store.cursor id :=
    fun _ inside => cursor_push_of_lt inside
  have new : after.cursor ⟨store.cursors.size⟩ = .streaming p .null .fresh := cursor_push ..
  have spares : ∀ ids, store.Spares ids after := spares_push store _
  have there : ∀ (i : Nat) k, streams[i]? = some k → (store.cursor k).isStream := by
    intro i k found
    obtain ⟨inside, -⟩ := List.getElem?_eq_some_iff.mp found
    rw [follows.courses i k _ found (List.getElem?_eq_getElem (follows.many ▸ inside))]
    rfl
  have owns := tracks.new follows.holds
  have foreign : ∀ k, ¬ own k → after.cursor k = store.cursor k := by
    intro k foreign
    have apart : k.index ≠ store.cursors.size := fun same => foreign (by rw [← same] at owns; exact owns)
    rcases Nat.lt_or_gt_of_ne apart with inside | outside
    · exact old k inside
    · have outside' : (store.cursors.push (.streaming p .null .fresh)).size ≤ k.index := by
        rw [Array.size_push]
        omega
      simp only [after, Store.cursor, Array.getD_eq_getD_getElem?,
        Array.getElem?_eq_none outside', Array.getElem?_eq_none (Nat.le_of_lt outside)]
  have owned : ∀ k ∈ streams ++ [⟨store.cursors.size⟩], own k := fun k member => by
    rcases List.mem_append.mp member with old | new
    · exact follows.own k old
    · rw [List.mem_singleton.mp new]
      exact owns
  refine ⟨tracks.spared follows.holds spares foreign, by simp [follows.many], ?_, owned,
    fun i k course found found' => ?_⟩
  · refine List.nodup_append.mpr ⟨follows.apart, by simp, fun k member other other' same => ?_⟩
    obtain ⟨i, inside, rfl⟩ := List.getElem_of_mem member
    have inside' := inside_of_isStream (there i _ (List.getElem?_eq_getElem inside))
    rw [List.mem_singleton.mp other'] at same
    rw [same] at inside'
    exact absurd inside' (Nat.lt_irrefl _)
  · rcases Nat.lt_or_ge i streams.length with inside | outside
    · rw [List.getElem?_append_left inside] at found
      rw [List.getElem?_append_left (follows.many ▸ inside)] at found'
      rw [show Store.cursor _ k = store.cursor k from old k (inside_of_isStream (there i k found)),
        follows.courses i k course found found']
    · rw [List.getElem?_append_right outside] at found
      rw [List.getElem?_append_right (follows.many ▸ outside), ← follows.many] at found'
      rw [List.getElem?_singleton] at found found'
      split at found
      · rename_i zero
        rw [if_pos zero] at found'
        cases found
        cases found'
        exact new
      · cases found

end Store

namespace Session

/-- Whether a session is where a scene is, for what counts as holding a tower. -/
def FollowsAs (held : Store → Tower → Prop) (own : CursorId → Prop) (p : SequenceId) (session : Session)
    (scene : Scene) : Prop :=
  session.store.Follows held own p session.streams scene

/-- Whether a session is where a scene is. -/
def Follows (D : Item → Prop) (aside : Option CursorId) (multi : Bool) (p : SequenceId) (session : Session)
    (scene : Scene) : Prop :=
  session.FollowsAs (fun store => store.Holds D aside multi p) (fun _ => True) p scene

variable {D : Item → Prop} {aside : Option CursorId} {multi : Bool} {held stood : Store → Tower → Prop}
  {own : CursorId → Prop} {follows : Session → Scene → Prop}

/-- Whether what was asked of a session came to what it came to on a scene: nothing for lack of fuel, or what is
seen and a session that follows the scene that is left. -/
def ComesTo {α : Type} (session : Session) (follows : Session → Scene → Prop) (result : Option (α × Session)) :
    Option (α × Scene) → Prop
  | none => result = none
  | some (seen, left) => ∃ after, result = some (seen, after) ∧ follows after left ∧
      session.store.Grows after.store

/-- What comes of an operation and what comes of the operations after it come of all of them. -/
theorem ComesTo.cons {follows' : Session → Scene → Prop} {n : Nat} {p : SequenceId} {op : Op} {rest : List Op}
    {session : Session} {scene : Scene}
    (performed : session.ComesTo follows (session.perform n p op)
      ((scene.perform multi n op).map fun asked => (Scene.outcome asked.1 asked.2, asked.2)))
    (played : ∀ after left answer, scene.perform multi n op = some (answer, left) → follows after left →
      after.ComesTo follows' (after.play n p rest) (left.play multi n rest)) :
    session.ComesTo follows' (session.play n p (op :: rest)) (scene.play multi n (op :: rest)) := by
  rw [Scene.play, Session.play]
  rcases asked : scene.perform multi n op with _ | ⟨answer, left⟩
  · rw [asked] at performed
    have stuck : session.perform n p op = none := performed
    simp only [stuck]
    rfl
  · rw [asked] at performed
    obtain ⟨after, ends, holds, grows⟩ := performed
    have others := played after left answer asked holds
    simp only [ends]
    rcases final : left.play multi n rest with _ | ⟨outcomes, last⟩
    · rw [final] at others
      have stuck : after.play n p rest = none := others
      simp only [stuck]
      rfl
    · rw [final] at others
      obtain ⟨final', ends', holds', grows'⟩ := others
      exact ⟨final', by simp only [ends'], holds', grows.trans grows'⟩

end Session

namespace Store.Tracks

open Session

variable {D : Item → Prop} {multi : Bool} {held stood : Store → Tower → Prop} {own : CursorId → Prop} {p : SequenceId}
  {more : Nat} (tracks : Tracks D multi own p held stood more)
include tracks

/-- What an observer sees of an operation that ended as it did on a scene. -/
theorem perform_of_endsOp {n : Nat} {op : Op} {session : Session}
    {told : Option (Except Fault (Answer Item) × Scene)}
    (ends : session.store.EndsOp D held own p session.streams
      ((op.run (calls n) p session.streams).from? session.store) told) :
    session.ComesTo (FollowsAs held own p) (session.perform n p op)
      (told.map fun asked => (Scene.outcome asked.1 asked.2, asked.2)) := by
  rw [Session.perform]
  rcases ran : (op.run (calls n) p session.streams).from? session.store with ⟨ended, after⟩
  rw [ran] at ends
  rcases told with _ | ⟨answer, left⟩
  · obtain rfl : ended = .error .outOfFuel := ends
    rfl
  · obtain ⟨agrees, follows, grows⟩ := ends
    have passes := tracks.passes follows.holds
    rcases answer with fault | answer
    · rcases ended with halt | ended
      · obtain rfl : halt = .fault fault := agrees
        refine ⟨⟨after, session.streams⟩, ?_, follows, grows⟩
        simp only [Scene.outcome, passes.started, passes.exhausted, Except.map]
      · exact agrees.elim
    · rcases ended with halt | ⟨found, streams⟩
      · exact agrees.elim
      · obtain ⟨tells, rfl⟩ := agrees
        refine ⟨⟨after, session.streams⟩, ?_, follows, grows⟩
        simp only [Scene.outcome, passes.started, passes.exhausted, Except.map,
          Store.TellsAnswer.contents tells]

/-- An operation on a session ends as it does on the scene that the session follows. -/
theorem perform {n : Nat} (op : Op) {session : Session} {scene : Scene}
    (follows : session.FollowsAs held own p scene) (deep : 4 * scene.tower.height + more + 2 ≤ n) :
    session.ComesTo (FollowsAs held own p) (session.perform n p op)
      ((scene.perform multi n op).map fun asked => (Scene.outcome asked.1 asked.2, asked.2)) := by
  by_cases new : op = .stream
  · subst new
    have passes := tracks.passes follows.holds
    let last : Session := ⟨{ session.store with cursors := session.store.cursors.push (.streaming p .null .fresh) },
      session.streams ++ [⟨session.store.cursors.size⟩]⟩
    refine ⟨last, ?_, tracks.newStream follows, (spares_push session.store _ []).grows⟩
    change some (Outcome.mk _ (session.store.sequence p).started (session.store.sequence p).exhausted, _) = _
    rw [passes.started, passes.exhausted]
    rfl
  · exact tracks.perform_of_endsOp (tracks.run follows deep new)

/-- Operations in turn on a session end as they do on the scene that the session follows. -/
theorem play {n : Nat} (ops : List Op) {session : Session} {scene : Scene}
    (follows : session.FollowsAs held own p scene) (deep : 4 * scene.tower.height + more + 2 ≤ n) :
    session.ComesTo (FollowsAs held own p) (session.play n p ops) (scene.play multi n ops) := by
  induction ops generalizing session scene with
  | nil => exact ⟨session, rfl, follows, .refl _⟩
  | cons op rest ih =>
    refine (tracks.perform op follows deep).cons fun after left answer asked follows' => ih follows' ?_
    have height : left.tower.height = scene.tower.height :=
      Scene.perform_keeps (Tower.steady_height scene.tower.height) rfl asked
    omega

end Store.Tracks

namespace Session

variable {D : Item → Prop} {aside : Option CursorId} {multi : Bool} {follows : Session → Scene → Prop}

/-- An operation on a session ends as it does on the scene that the session follows. -/
theorem perform_follows {n : Nat} {p : SequenceId} (op : Op) {session : Session} {scene : Scene}
    (follows : session.Follows D aside multi p scene) (deep : 4 * scene.tower.height + 2 ≤ n) :
    session.ComesTo (Follows D aside multi p) (session.perform n p op)
      ((scene.perform multi n op).map fun asked => (Scene.outcome asked.1 asked.2, asked.2)) :=
  Store.tracks_holds.perform op follows deep

/-- Operations in turn on a session end as they do on the scene that the session follows. -/
theorem play_follows {n : Nat} {p : SequenceId} (ops : List Op) {session : Session} {scene : Scene}
    (follows : session.Follows D aside multi p scene) (deep : 4 * scene.tower.height + 2 ≤ n) :
    session.ComesTo (Follows D aside multi p) (session.play n p ops) (scene.play multi n ops) :=
  Store.tracks_holds.play ops follows deep

/-! ## What follows for sessions -/

/-- Whether a stream of a pipeline was not begun, if there is one with this number. -/
def Unbegun (session : Session) (p : SequenceId) (i : Nat) : Prop :=
  ∀ k, session.streams[i]? = some k → session.store.cursor k = .streaming p .null .fresh

/-- What is seen of a session is what is seen of the scene that it follows. -/
theorem ComesTo.seen {α : Type} {session : Session} {result : Option (α × Session)}
    {told : Option (α × Scene)} (comes : session.ComesTo follows result told) :
    result.map Prod.fst = told.map Prod.fst := by
  rcases told with _ | ⟨seen, left⟩
  · rw [show result = none from comes]
    rfl
  · obtain ⟨after, same, -⟩ := comes
    rw [same]
    rfl

/-- What a session came to, its scene came to. -/
theorem ComesTo.some {α : Type} {session after : Session} {result : Option (α × Session)}
    {told : Option (α × Scene)} {seen : α} (comes : session.ComesTo follows result told)
    (ends : result = .some (seen, after)) :
    ∃ left, told = .some (seen, left) ∧ follows after left := by
  rcases told with _ | ⟨seen', left⟩
  · rw [show result = none from comes] at ends
    cases ends
  · obtain ⟨after', same, follows, -⟩ := comes
    rw [ends] at same
    cases same
    exact ⟨left, rfl, follows⟩

/-- A stream that was not begun is fresh in the scene. -/
theorem Follows.unbegun {session : Session} {p : SequenceId} {scene : Scene} {i : Nat}
    (follows : session.Follows D aside multi p scene) (unbegun : session.Unbegun p i) :
    scene.streams[i]? = (List.replicate scene.streams.length Course.fresh)[i]? := by
  rw [List.getElem?_replicate]
  split
  · rename_i inside
    have inside' : i < session.streams.length := follows.many ▸ inside
    rw [List.getElem?_eq_getElem inside]
    have there := List.getElem?_eq_getElem inside'
    have was := follows.courses i _ _ there (List.getElem?_eq_getElem inside)
    rw [unbegun _ there] at was
    cases course : scene.streams[i] with
    | fresh => rfl
    | drawing | spent => rw [course] at was; cases was
  · rename_i outside
    exact List.getElem?_eq_none (Nat.le_of_not_lt outside)

end Session

end FirstSeen
