import FirstSeen.Proofs.History.Gathering
import FirstSeen.Proofs.Tower.Confining
import FirstSeen.Proofs.Tower.Spelling

/-!
# What new pipelines yield

A pipeline yields what the tower of its chain gathers, whichever way it is run: collected when it is bound to data,
collected on data that are given, or streamed on data that are given. In each case a new chain is built, and nothing
else is asked of it.
-/

set_option autoImplicit false

namespace FirstSeen

namespace Store

variable {D : Item → Prop} {aside : Option CursorId} {multi : Bool}
variable {store : Store} {p : SequenceId} {steps : ListId} {d : Value} {tower : Tower} {depth : Nat}
  {result : Except Fault (List Value)}

/-! ## Collecting -/

/-- A pipeline that is bound to data and was not asked yet. -/
theorem yields_collect_bound (passes : store.Passes D p {}) (form : (store.sequence p).body = .pipeline steps d .null)
    (flag : (store.sequence p).multiValue = multi) (bound : d.isNull = false) (fresh : tower.pass = {})
    (high : tower.height ≤ depth)
    (builds : ∀ n, depth ≤ n → store.Builds D aside multi n steps d tower)
    (begun : ∀ n, depth ≤ n →
      (store.updated p fun state => { state with started := true }).Builds D aside multi n steps d tower) :
    store.Yields (fun c => c.collect p .null) result ↔ tower.Gathers result := by
  have mirrors : Tower.Mirrors Tower.next (.passage {} tower) tower := by
    rw [← fresh]
    exact Tower.mirrors_passage (by rw [fresh])
  refine yields_iff_gathers (D := D) (depth + 3) (fun _ _ => True) mirrors fun n deep => ?_
  obtain ⟨n, rfl⟩ : ∃ m, n = m + 3 := ⟨n - 3, by omega⟩
  have acts := acts_of_builds passes form flag bound (by omega) (builds (n + 1) (by omega)) (begun n (by omega))
  exact (acts.force passes.started).further fun _ _ => trivial

/-- A pipeline without an input builds its chain on the data that it is given. -/
theorem from?_buildFor_given {c : Calls} {kept : Value}
    (form : (store.sequence p).body = .pipeline steps .null kept) (given : d.isNull = false) :
    (c.buildFor p d).from? store = (c.build steps d (store.sequence p).multiValue).from? store := by
  have input : Calls.inputOf d .null = .ok d := by
    unfold Calls.inputOf
    rw [given]
    rfl
  rw [Calls.buildFor, Run.from?_bind_ok (Run.from?_sequence ..), form]
  simp only [input]
  rfl

/-- A pipeline without an input that is given data. -/
theorem yields_collect_given {kept : Value} (form : (store.sequence p).body = .pipeline steps .null kept)
    (flag : (store.sequence p).multiValue = multi) (given : d.isNull = false) (fresh : tower.pass = {})
    (high : tower.height ≤ depth) (builds : ∀ n, depth ≤ n → store.Builds D aside multi n steps d tower) :
    store.Yields (fun c => c.collect p d) result ↔ tower.Gathers result := by
  refine yields_iff_gathers (D := D) (depth + 1) (fun _ _ => True) (Tower.mirrors_self tower) fun n deep => ?_
  obtain ⟨n, rfl⟩ : ∃ m, n = m + 1 := ⟨n - 1, by omega⟩
  obtain ⟨out, ids, built, ends, -, -, stands⟩ := builds (n + 1) (by omega)
  have collects : ((calls (n + 1)).collect p d).from? store = ((calls (n + 1)).force out).from? built := by
    rw [Calls.collect]
    simp only [given]
    rw [← flag, ← from?_buildFor_given form given] at ends
    exact Run.from?_bind_ok ends
  rw [collects]
  have unstarted : (built.sequence out).started = false := by rw [stands.passes.started, fresh]
  exact ((stands.acts (n := n) (by omega)).force unstarted).further fun _ _ => trivial

/-! ## Streaming -/

variable (D aside multi) in
/-- Whether a stream of a pipeline on data, which draws from the chain below a sequence, is where the only stream of a
scene is: drawing, or over. -/
inductive Streams (store : Store) (k : CursorId) (p : SequenceId) (d : Value) (out : SequenceId)
    (ids : List SequenceId) : Scene → Prop
  | drawing {tower : Tower} (here : store.cursor k = .streaming p d (.delegating (.sequence out)))
      (stands : store.Stands D aside multi out ids tower) : Streams store k p d out ids ⟨tower, [.drawing]⟩
  | spent {tower : Tower} (here : store.cursor k = .streaming p d .finished)
      (stands : store.Stands D aside multi out ids tower) : Streams store k p d out ids ⟨tower, [.spent]⟩

/-- Moving a stream touches nothing else. -/
theorem touches_withStream {k : CursorId} (p : SequenceId) (d : Value) (phase : StreamPhase)
    (stream : (store.cursor k).isStream) (ids : List SequenceId) :
    store.Touches ids (· = k) (store.withStream k p d phase) :=
  (Touches.refl ids _ store).spared (spares_withStream p d phase stream) fun _ _ foreign => cursor_withStream_ne foreign

/-- A stream that is being asked draws from its chain, and is where the scene is then. -/
theorem drawStream_stands (n : Nat) {k : CursorId} {out : SequenceId} {ids : List SequenceId} (course : Course)
    (stream : (store.cursor k).isStream) (stands : store.Stands D aside multi out ids tower) :
    EndsLike (fun after v item => after.Shows D item v)
      (fun after left => after.Streams D aside multi k p d out ids left ∧ store.Touches ids (· = k) after)
      (((calls n).drawStream k p d (.sequence out)).from? store) ((tower.next n).map (Scene.hand [course] 0)) := by
  have asked := next_stands n stands
  rw [Calls.drawStream, Run.from?_bind, Run.from?_onFault,
    show (calls n).draw (.sequence out) = (calls n).next out from rfl]
  rcases ends : ((calls n).next out).from? store with ⟨ended, after⟩
  rw [ends] at asked
  cases told : tower.next n with
  | none =>
    rw [told] at asked
    obtain rfl : ended = .error .outOfFuel := asked
    rfl
  | some pair =>
    obtain ⟨told', left⟩ := pair
    rw [told] at asked
    obtain ⟨delivers, stands', works⟩ := asked
    -- The stream has not moved while its chain was asked, and only moves then.
    have stream' : (after.cursor k).isStream := by rwa [works.streams k stream]
    have moves := fun phase => spares_withStream p d phase stream' ids
    have touches := fun phase => works.touches.trans (touches_withStream p d phase stream' ids)
    rcases ended with halt | v <;> rcases told' with fault | item
    · obtain rfl : halt = .fault fault := delivers
      exact ⟨rfl, .spent (cursor_withStream stream') (stands'.spared (moves .finished)), touches .finished⟩
    · exact delivers.elim
    · exact delivers.elim
    · exact ⟨(moves _).grows.shows delivers,
        .drawing (cursor_withStream stream') (stands'.spared (moves _)), touches _⟩

/-- A stream that was begun is asked as its scene says, at every depth. -/
theorem advance_streams (n : Nat) {k : CursorId} {out : SequenceId} {ids : List SequenceId} {scene : Scene}
    (streams : store.Streams D aside multi k p d out ids scene) :
    EndsLike (fun after v item => after.Shows D item v)
      (fun after left => after.Streams D aside multi k p d out ids left ∧ store.Touches ids (· = k) after)
      (((calls n).advance k).from? store) (scene.advance 0 n) := by
  cases n with
  | zero => exact rfl
  | succ n =>
    change EndsLike _ _ (((calls n).advanceWith k).from? store) _
    rw [Calls.advanceWith, Run.from?_bind_ok (Run.from?_cursor ..)]
    cases streams with
    | spent here stands =>
      rw [here]
      exact ⟨rfl, .spent here stands, .refl ids _ store⟩
    | drawing here stands =>
      rw [here]
      have stream : (store.cursor k).isStream := by rw [here]; rfl
      have spares := spares_withStream p d .running stream ids
      have running : ((store.withStream k p d .running).cursor k).isStream := by
        rw [cursor_withStream stream]
        rfl
      exact (drawStream_stands n .drawing running (stands.spared spares)).further fun _ asked =>
        ⟨asked.1, (touches_withStream p d .running stream ids).trans asked.2⟩

/-- A stream on data that are given builds its chain when it is asked for the first time, and draws from that. -/
theorem advance_begins (n : Nat) {k : CursorId} {out : SequenceId} {ids : List SequenceId} {built : Store}
    (here : store.cursor k = .streaming p d .fresh) (given : d.isNull = false)
    (ends : ((calls n).buildFor p d).from? (store.withStream k p d .running) = (.ok (.ofSequence out), built))
    (works : (store.withStream k p d .running).Works ids built)
    (stands : built.Stands D aside multi out ids tower) (fresh : tower.pass = {}) :
    EndsLike (fun after v item => after.Shows D item v)
      (fun after left => after.Streams D aside multi k p d out ids left ∧ store.Touches ids (· = k) after)
      (((calls (n + 1)).advance k).from? store) (Scene.advance 0 (n + 1) ⟨tower, [.fresh]⟩) := by
  let running := store.withStream k p d .running
  have stream : (store.cursor k).isStream := by rw [here]; rfl
  have runs : (running.cursor k).isStream := by
    rw [cursor_withStream stream]
    rfl
  have touches := (touches_withStream p d .running stream ids).trans works.touches
  have begins : ((calls n).beginStream p d).from? running = (.ok (.sequence out), built) := by
    rw [Calls.beginStream]
    simp only [given]
    exact Run.from?_bind_ok ends
  change EndsLike _ _ (((calls n).advanceWith k).from? store) _
  rw [Calls.advanceWith, Run.from?_bind_ok (Run.from?_cursor ..), here]
  change EndsLike _ _ (((do
    let feed ← Run.onFault ((calls n).beginStream p d) fun fault => do
      Run.setCursor k (.streaming p d .finished)
      Run.fail (Run.insteadOfEnd .generatorSignalledEnd fault)
    (calls n).drawStream k p d feed : Run Value)).from? running) _
  rw [Run.from?_bind, Run.from?_onFault, begins]
  have restarts : tower.restart = (none, tower) := by simp [Tower.restart, fresh]
  have draws : Scene.advance 0 (n + 1) ⟨tower, [.fresh]⟩ = (tower.next n).map (Scene.hand [.fresh] 0) := by
    simp [Scene.advance, restarts]
  rw [draws]
  exact (drawStream_stands n .fresh (by rwa [works.streams k runs]) stands).further fun _ asked =>
    ⟨asked.1, touches.trans asked.2⟩

/-- All elements of a stream that builds its chain when it is asked for the first one are those that its scene gathers. -/
theorem listOf_begins (n : Nat) {k : CursorId} {out : SequenceId} {ids : List SequenceId} {built : Store}
    (here : store.cursor k = .streaming p d .fresh) (given : d.isNull = false)
    (ends : ((calls n).buildFor p d).from? (store.withStream k p d .running) = (.ok (.ofSequence out), built))
    (works : (store.withStream k p d .running).Works ids built)
    (stands : built.Stands D aside multi out ids tower) (fresh : tower.pass = {}) :
    EndsLike (fun last => last.ShowsAll D)
      (fun last left => (∃ out ids, last.Streams D aside multi k p d out ids left) ∧ store.Grows last)
      (((calls (n + 2)).listOf (.ofCursor k)).from? store) (gatherBy (Scene.advance 0) (n + 2) ⟨tower, [.fresh]⟩ []) := by
  rw [from?_listOf_stream here]
  -- The first draw builds the chain; from then on the stream can be asked at every depth.
  refine gather_step (fun last left => ∃ out ids, last.Streams D aside multi k p d out ids left) ?_
    (fun after left streams grows v item shows' => gather_likewise _
      (fun n store scene ⟨out, ids, streams⟩ => (advance_streams n streams).further fun _ asked =>
        ⟨⟨out, ids, asked.1⟩, asked.2.grows⟩) (n + 1) streams (.cons shows' .nil))
    (fun _ _ streams => streams) .nil
  exact (advance_begins n here given ends works stands fresh).further fun _ asked => ⟨⟨out, ids, asked.1⟩, asked.2.grows⟩

/-- A new stream of a pipeline without an input on data that are given. -/
theorem yields_stream_given {kept : Value} (form : (store.sequence p).body = .pipeline steps .null kept)
    (flag : (store.sequence p).multiValue = multi) (given : d.isNull = false) (fresh : tower.pass = {})
    (builds : ∀ later n, store.Spares [] later → store.Retains later → depth ≤ n →
      later.Builds D aside multi n steps d tower) :
    store.Yields (fun c => do c.listOf (.ofCursor (← Run.newStream p d))) result ↔ tower.Gathers result := by
  let k : CursorId := ⟨store.cursors.size⟩
  let made : Store := { store with cursors := store.cursors.push (.streaming p d .fresh) }
  have here : made.cursor k = .streaming p d .fresh := cursor_push ..
  have stream : (made.cursor k).isStream := by rw [here]; rfl
  let running := made.withStream k p d .running
  have spares := (spares_push store _ []).trans (spares_withStream p d .running stream [])
  have retains : store.Retains running := ⟨spares.grows, Nat.le_refl _, fun _ => rfl⟩
  have form' : (running.sequence p).body = .pipeline steps .null kept := form
  have began : (Run.newStream p d).from? store = (.ok k, made) := rfl
  rw [yields_bind began]
  refine yields_iff_gathers (D := D) (depth + 2)
    (fun last left => (∃ out ids, last.Streams D aside multi k p d out ids left) ∧ made.Grows last)
    (Tower.mirrors_stream (show tower.pass.started = false by rw [fresh])) fun n deep => ?_
  obtain ⟨n, rfl⟩ : ∃ m, n = m + 2 := ⟨n - 2, by omega⟩
  obtain ⟨out, ids, built, ends, enlarges, -, stands⟩ := builds running n spares retains (by omega)
  rw [← flag, show (store.sequence p).multiValue = (running.sequence p).multiValue from rfl,
    ← from?_buildFor_given form' given] at ends
  exact listOf_begins n here given ends (enlarges.works ids) stands fresh

end Store

end FirstSeen
