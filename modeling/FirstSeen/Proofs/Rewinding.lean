import FirstSeen.Proofs.History.Beginning
import FirstSeen.Proofs.History.Simulating
import FirstSeen.Proofs.Tower.Resetting

/-!
# Rewinding is a full reset

Data are *restartable* if each opening of them gives the same, from a new iterator. After any history on a
pipeline over restartable data, a rewind that returns leaves a pipeline that nobody can tell from a new one:
whatever is asked of it, and of streams that were not begun before, has the outcomes that it has on a new
pipeline. Taking all elements, and draining a stream that was not begun, rewind first if need be and so give
the outcome of a fresh run if that rewind returns.

The pipeline and the new one are compared through their scenes, which have the same tower from then on.
-/

set_option autoImplicit false

namespace FirstSeen

/-- Whether each opening of data gives the same, from a new iterator. -/
def Store.Restartable (store : Store) (d : Value) : Prop :=
  ∀ n, (store.originOf d).openings n = (store.originOf d).openings 0 ∧
    (store.originOf d).openings n ≠ .ok .kept

/-! ## Scenes of new streams -/

/-- Making streams and nothing else leaves a scene with fresh streams. -/
theorem Scene.play_streams (multi : Bool) (n : Nat) (tower : Tower) (many more : Nat) :
    ∃ outcomes, (Scene.mk tower (List.replicate many .fresh)).play multi n (List.replicate more .stream) =
      some (outcomes, ⟨tower, List.replicate (many + more) .fresh⟩) := by
  induction more generalizing many with
  | zero => exact ⟨[], rfl⟩
  | succ more ih =>
    obtain ⟨outcomes, played⟩ := ih (many + 1)
    have grown : List.replicate many Course.fresh ++ [.fresh] = List.replicate (many + 1) .fresh :=
      List.replicate_succ'.symm
    refine ⟨outcome (.ok .nothing) ⟨tower, List.replicate (many + 1) .fresh⟩ :: outcomes, ?_⟩
    rw [List.replicate_succ, Scene.play]
    simp only [Scene.perform, grown, played]
    rw [Nat.add_right_comm, Nat.add_assoc]

/-! ## The reset -/

/-- Restartable raw data are no iterator, and their openings repeat. -/
theorem Store.Raw.repeats {store : Store} {d : Value} (raw : store.Raw d) (again : store.Restartable d) :
    (store.originOf d).Repeats := by
  refine ⟨Bool.eq_false_iff.mpr fun oneShot => ?_, fun n => (again n).1, (again 0).2, fun held => by cases held⟩
  obtain ⟨id, rfl⟩ := raw.cursor_of_isOneShot oneShot
  exact (again 0).2 rfl

theorem Tower.repeats_filters {rules : List Rule} {below : Tower} (repeats : below.Repeats) :
    (filters rules below).Repeats := by
  induction rules generalizing below with
  | nil => exact repeats
  | cons rule rest ih =>
    have above : (Tower.filter {} rule .empty below).Repeats := repeats
    exact ih above

/-- What rewinds first does the same on a tower as on the one that rewinding gives. -/
theorem Scene.perform_restart {multi : Bool} {n : Nat} {tower start : Tower} {streams : List Course} {op : Op}
    (restarts : tower.restart = (none, start)) (stays : start.restart = (none, start))
    (again : op = .force ∨ op = .collect ∨ ∃ i, op = .drain i ∧ streams[i]? = some .fresh) :
    (Scene.mk tower streams).perform multi n op = (Scene.mk start streams).perform multi n op := by
  have forced : tower.force n = start.force n := by rw [Tower.force, Tower.force, restarts, stays]
  rcases again with rfl | rfl | ⟨i, rfl, fresh⟩
  · simp only [perform, forced, onTower]
  · simp only [perform, forced, onTower]
  · have drawn : ∀ m, (Scene.mk tower streams).advance i m = (Scene.mk start streams).advance i m := by
      intro m
      cases m with
      | zero => rfl
      | succ m => simp only [advance, fresh, restarts, stays]
    simp only [perform, fresh]
    cases n with
    | zero => rfl
    | succ n => rw [gatherBy, gatherBy, drawn]

/-- A rewind that returns has taken back the tower of the scene. -/
theorem Session.Follows.rewound {D : Item → Prop} {aside : Option CursorId} {multi : Bool} {n : Nat}
    {p : SequenceId} {session rewound : Session} {scene : Scene} {seen : Outcome}
    (follows : session.Follows D aside multi p scene) (deep : 4 * scene.tower.height + 2 ≤ n)
    (ends : session.perform n p .rewind = some (seen, rewound)) (returns : seen.answer = .ok .nothing) :
    scene.tower.rewind.1 = none ∧
      rewound.Follows D aside multi p { scene with tower := scene.tower.rewind.2 } := by
  obtain ⟨left, told, follows'⟩ := (perform_follows .rewind follows deep).some ends
  obtain ⟨⟨answer, last⟩, performed, same⟩ := Option.map_eq_some_iff.mp told
  rw [Scene.perform] at performed
  rcases rewinds : scene.tower.rewind with ⟨_ | fault, tower⟩ <;> rw [rewinds] at performed <;>
    cases performed <;> cases same
  · exact ⟨rfl, follows'⟩
  · cases returns

/-- After any history on a pipeline over restartable data, a rewind that returns makes it a new one: whatever is
asked then, of no stream that was begun before, has the outcomes that it has on a new pipeline with as many
streams. If rewinding would return, or is not needed, then taking all elements, and draining a stream that was
not begun, have the outcomes of a fresh run. -/
theorem rewind_resets {store : Store} {p : SequenceId} {steps : ListId} {d : Value} {multi : Bool}
    (new : store.NewPipeline p steps d multi) (again : store.Restartable d) {n : Nat}
    (deep : 4 * (store.list steps).length + 10 ≤ n) {history : List Op} {outcomes : List Outcome}
    {session : Session} (played : (Session.mk store []).play n p history = some (outcomes, session)) :
    ∃ made fresh, (Session.mk store []).play n p (List.replicate session.streams.length .stream) =
        some (made, fresh) ∧
      (∀ seen rewound, session.perform n p .rewind = some (seen, rewound) → seen.answer = .ok .nothing →
        ∀ ops : List Op, (∀ op ∈ ops, op.Asks (session.Unbegun p)) →
          (rewound.play n p ops).map Prod.fst = (fresh.play n p ops).map Prod.fst) ∧
      (((session.store.sequence p).started = true →
          ∃ seen rewound, session.perform n p .rewind = some (seen, rewound) ∧ seen.answer = .ok .nothing) →
        ∀ op : Op, op = .force ∨ op = .collect ∨
            (∃ i, op = .drain i ∧ i < session.streams.length ∧ session.Unbegun p i) →
          (session.perform n p op).map Prod.fst = (fresh.perform n p op).map Prod.fst) := by
  have fresh := store.fresh_towerOf steps d multi
  have height := store.height_towerOf steps d multi
  have follows := new.follows
  have begun : Tower.CameFrom (store.towerOf steps d multi) (store.towerOf steps d multi) :=
    ⟨Tower.repeats_filters (new.raw.repeats again), fresh.blank, fun _ => rfl⟩
  generalize store.towerOf steps d multi = start at fresh height follows begun
  have stays : start.restart = (none, start) := by rw [Tower.restart, fresh.pass]; rfl
  -- The session and the new one follow scenes.
  obtain ⟨last, told, follows'⟩ := (Session.play_follows history follows (by simp only; omega)).some played
  have came := Scene.play_keeps (Tower.steady_cameFrom fresh) begun told
  have high : last.tower.height = start.height := Scene.play_keeps (Tower.steady_height _) rfl told
  obtain ⟨made, ready⟩ := Scene.play_streams multi n start 0 session.streams.length
  have anew := Session.play_follows (List.replicate session.streams.length .stream) follows
    (n := n) (by simp only; omega)
  rw [show Scene.play multi n _ ⟨start, []⟩ = _ from ready, Nat.zero_add] at anew
  obtain ⟨other, ends, follows'', -⟩ := anew
  have agrees : (Scene.mk start last.streams).Matches Eq (session.Unbegun p)
      ⟨start, List.replicate session.streams.length .fresh⟩ :=
    ⟨rfl, by simpa using follows'.many.symm, fun i unbegun => by
      rw [follows'.many]; exact follows'.unbegun unbegun⟩
  have same : Tower.Simulates Eq 0 := Tower.simulates_of_eq fun _ _ => Iff.rfl
  have back : Tower.Simulates (flip Eq) 0 := Tower.simulates_of_eq fun _ _ => eq_comm
  refine ⟨made, other, ends, fun seen rewound performed returns ops asks => ?_, fun returns op restarter => ?_⟩
  · obtain ⟨taken, following⟩ := follows'.rewound (by omega) performed returns
    rw [(Tower.rewind_stays came.repeats).2 taken, came.blank] at following
    rw [(Session.play_follows ops following (by simp only; omega)).seen,
      (Session.play_follows ops follows'' (by simp only; omega)).seen]
    exact Scene.matches_seen same back asks agrees
  · have restarts : last.tower.restart = (none, start) := came.restart fun started => by
      obtain ⟨seen, rewound, performed, ok⟩ := returns (by rw [follows'.holds.passes.started, started])
      exact (follows'.rewound (by omega) performed ok).1
    have asks : op.Asks (session.Unbegun p) := by
      rcases restarter with rfl | rfl | ⟨i, rfl, -, unbegun⟩ <;> intro j asked <;> rcases asked with same | same <;>
        cases same
      exact unbegun
    have again' : op = .force ∨ op = .collect ∨ ∃ i, op = .drain i ∧ last.streams[i]? = some .fresh := by
      refine restarter.imp_right (.imp_right ?_)
      rintro ⟨i, drains, inside, unbegun⟩
      refine ⟨i, drains, ?_⟩
      rw [follows'.unbegun unbegun, List.getElem?_replicate, if_pos (follows'.many ▸ inside)]
    have seen := @Scene.matches_seen_once _ _ same back multi n _ _ _ asks agrees
    rw [← Scene.perform_restart restarts stays again'] at seen
    rw [(Session.perform_follows op follows' (by omega)).seen,
      (Session.perform_follows op follows'' (by simp only; omega)).seen, Option.map_map, Option.map_map]
    exact seen

/-- A pipeline over a list, rewound after an element was asked for and a stream was begun. -/
theorem rewind_resets_list :
    ∃ session rewound fresh : Session,
      (session.perform 14 ⟨0⟩ .rewind).map Prod.snd = some rewound ∧
      ((Session.mk (.sample (.object (.list ⟨1⟩))) []).play 14 ⟨0⟩ [.next, .stream, .pull 0]).map Prod.snd =
        some session ∧
      ((Session.mk (.sample (.object (.list ⟨1⟩))) []).play 14 ⟨0⟩ [.stream]).map Prod.snd = some fresh ∧
      (rewound.play 14 ⟨0⟩ [.next, .force]).map Prod.fst = (fresh.play 14 ⟨0⟩ [.next, .force]).map Prod.fst := by
  have evaluated : ((Session.mk (.sample (.object (.list ⟨1⟩))) []).play 14 ⟨0⟩ [.next, .stream, .pull 0]).bind
      (fun played => (played.2.perform 14 ⟨0⟩ .rewind).map fun rewound =>
        (played.2.streams.length, rewound.1.answer.toOption.any Answer.isNothing)) =
      some (1, true) := by decide +kernel
  obtain ⟨⟨outcomes, session⟩, played, evaluated⟩ := Option.bind_eq_some_iff.mp evaluated
  obtain ⟨⟨seen, rewound⟩, performed, evaluated⟩ := Option.map_eq_some_iff.mp evaluated
  obtain ⟨many, returns⟩ := Prod.mk.inj evaluated
  have answer : seen.answer = .ok .nothing := by
    revert returns
    rcases seen.answer with fault | _ | _ | _ | _ | _ <;> simp [Except.toOption, Answer.isNothing]
  obtain ⟨made, fresh, anew, same, -⟩ := rewind_resets (Store.newPipeline_sample Store.raw_sample_list)
    (fun _ => ⟨rfl, by rintro ⟨⟩⟩) (by decide) played
  rw [show session.streams.length = 1 from many] at anew
  refine ⟨session, rewound, fresh, by rw [performed]; rfl, by rw [played]; rfl, by
    rw [show [Op.stream] = List.replicate 1 .stream from rfl, anew]; rfl,
    same seen rewound performed answer _ fun op member i asked => ?_⟩
  simp only [List.mem_cons, List.not_mem_nil, or_false] at member
  rcases member with rfl | rfl <;> rcases asked with asked | asked <;> cases asked

end FirstSeen
