import FirstSeen.Proofs.History.Interleaving
import FirstSeen.Proofs.Tower.Branching
import FirstSeen.Proofs.Tower.Restarting

/-!
# Histories of pipelines on one sequence

A pipeline that buds on a sequence is *woken* by whatever asks it for an element, its size or the flag for elements that are
taken apart. Beginning again and making streams let it sleep.

A pipeline that is asked follows its scene all along: while it buds, the scene of its filters on the sequence at its
beginning, and from when it is woken that of a pipeline that has grown.
-/

set_option autoImplicit false

namespace FirstSeen

/-! ## Waking a pipeline -/

/-- Whether an operation wakes a pipeline with so many streams that was not begun. -/
def Op.wakes (streams : Nat) : Op → Bool
  | rewind | stream => false
  | pull i | drain i => i < streams
  | next | peek | force | collect | size | multiValue => true

/-- Whether one of some operations in turn wakes a pipeline with so many streams. -/
def Op.wakesAmong (streams : Nat) : List Op → Bool
  | [] => false
  | op :: rest => op.wakes streams || wakesAmong (if op = .stream then streams + 1 else streams) rest

namespace Scene

/-- A stream that was drawn for is not at its beginning. -/
theorem streams_hand (streams : List Course) (i : Nat) (drawn : Draw × Tower) :
    (hand streams i drawn).2.streams[i]? ≠ some .fresh := by
  rcases drawn with ⟨fault | item, left⟩ <;> simp only [hand, List.getElem?_set] <;> split <;> simp_all

/-- A tower that was started stays so while a stream is asked that was begun. -/
theorem started_advance {n i : Nat} {scene left : Scene} {told : Draw}
    (busy : scene.tower.pass.started = true ∧ scene.streams[i]? ≠ some .fresh)
    (ends : scene.advance i n = some (told, left)) :
    left.tower.pass.started = true ∧ left.streams[i]? ≠ some .fresh := by
  cases n with
  | zero => cases ends
  | succ n =>
    rw [advance] at ends
    split at ends
    · cases ends
      exact busy
    · cases ends
      exact busy
    · obtain ⟨drawn, asked, same⟩ := Option.map_eq_some_iff.mp ends
      have tower := tower_hand scene.streams i drawn
      have past := streams_hand scene.streams i drawn
      rw [same] at tower past
      refine ⟨?_, past⟩
      rw [tower]
      exact (Tower.started_next asked).elim id fun kept => kept.1.trans busy.1
    · rename_i there
      exact absurd there busy.2

/-- An operation that asks for an element starts a tower that is at its beginning, if its streams are. -/
theorem started_of_wakes {multi : Bool} {n : Nat} {op : Op} {scene left : Scene} {answer : Except Fault (Answer Item)}
    (begun : scene.tower.pass = {}) (rested : scene.tower.Rested) (unbegun : ∀ course ∈ scene.streams, course = .fresh)
    (wakes : op.wakes scene.streams.length = true) (noSize : op ≠ .size) (noFlag : op ≠ .multiValue)
    (ends : scene.perform multi n op = some (answer, left)) : left.tower.pass.started = true := by
  have restart : scene.tower.restart = (none, scene.tower) := by rw [Tower.restart, begun]; rfl
  have forced : ∀ {ended : Except Fault (List Item)} {tower : Tower}, scene.tower.force n = some (ended, tower) →
      tower.pass.started = true := by
    intro ended tower forces
    rw [Tower.force, restart] at forces
    exact rested.started_gather forces
  have advanced : ∀ {i k : Nat} {told : Draw} {last : Scene}, i < scene.streams.length →
      scene.advance i k = some (told, last) → last.tower.pass.started = true ∧ last.streams[i]? ≠ some .fresh := by
    intro i k told last inside ends
    cases k with
    | zero => cases ends
    | succ k =>
      have there : scene.streams[i]? = some .fresh := by
        rw [List.getElem?_eq_getElem inside, unbegun _ (List.getElem_mem inside)]
      rw [advance, there] at ends
      simp only [restart] at ends
      obtain ⟨drawn, asked, same⟩ := Option.map_eq_some_iff.mp ends
      have tower := tower_hand scene.streams i drawn
      have past := streams_hand scene.streams i drawn
      rw [same] at tower past
      exact ⟨tower ▸ rested.started_next asked, past⟩
  cases op with
  | rewind | stream => cases wakes
  | size => exact absurd rfl noSize
  | multiValue => exact absurd rfl noFlag
  | next =>
    obtain ⟨⟨told, tower⟩, asked, same⟩ := Option.map_eq_some_iff.mp ends
    cases same
    exact rested.started_next asked
  | peek =>
    obtain ⟨⟨told, tower⟩, asked, same⟩ := Option.map_eq_some_iff.mp ends
    cases same
    rw [Tower.peek, begun] at asked
    obtain ⟨⟨drawn, between⟩, drawn', same⟩ := Option.map_eq_some_iff.mp asked
    have started := rested.started_next drawn'
    cases drawn <;> cases same
    · exact started
    · simpa using started
  | force | collect =>
    obtain ⟨⟨told, tower⟩, forces, same⟩ := Option.map_eq_some_iff.mp ends
    cases same
    exact forced forces
  | pull i =>
    have inside : i < scene.streams.length := by simpa [Op.wakes] using wakes
    rw [perform, List.getElem?_eq_getElem inside] at ends
    obtain ⟨⟨told, last⟩, asked, same⟩ := Option.map_eq_some_iff.mp ends
    cases same
    exact (advanced inside asked).1
  | drain i =>
    have inside : i < scene.streams.length := by simpa [Op.wakes] using wakes
    rw [perform, List.getElem?_eq_getElem inside] at ends
    obtain ⟨⟨told, last⟩, gathers, same⟩ := Option.map_eq_some_iff.mp ends
    cases same
    cases n with
    | zero => cases gathers
    | succ n =>
      rw [gatherBy] at gathers
      rcases asked : scene.advance i n with _ | ⟨fault | item, between⟩ <;> rw [asked] at gathers
      · cases gathers
      · cases gathers
        exact (advanced inside asked).1
      · exact (gatherBy_keeps (P := fun state : Scene => state.tower.pass.started = true ∧ state.streams[i]? ≠ some .fresh)
          (fun _ _ _ _ busy ends => started_advance busy ends) n (advanced inside asked) gathers).1

/-- An operation that lets a tower at its beginning sleep leaves it there. -/
theorem perform_asleep {multi : Bool} (n : Nat) {op : Op} {scene : Scene} (fresh : scene.tower.Fresh)
    (sleeps : op.wakes scene.streams.length = false) :
    scene.perform multi n op = some (.ok .nothing, { scene with
      streams := if op = .stream then scene.streams ++ [.fresh] else scene.streams }) := by
  cases op with
  | rewind =>
    rw [perform, fresh.rewind]
    rfl
  | stream => rfl
  | pull i | drain i =>
    have outside : scene.streams.length ≤ i := by simpa [Op.wakes] using sleeps
    rw [perform, List.getElem?_eq_none outside]
    rfl
  | _ => cases sleeps

/-- Operations that let a tower at its beginning sleep leave it there. -/
theorem play_asleep {multi : Bool} {n : Nat} {ops : List Op} {scene left : Scene} {seen : List Outcome}
    (fresh : scene.tower.Fresh) (sleep : Op.wakesAmong scene.streams.length ops = false)
    (ends : scene.play multi n ops = some (seen, left)) : left.tower = scene.tower := by
  induction ops generalizing scene seen with
  | nil =>
    cases ends
    rfl
  | cons op rest ih =>
    rw [Op.wakesAmong, Bool.or_eq_false_iff] at sleep
    rw [play, perform_asleep n fresh sleep.1] at ends
    simp only at ends
    split at ends
    · cases ends
    · rename_i outcomes last played
      cases ends
      refine @ih ⟨scene.tower, if op = .stream then scene.streams ++ [.fresh] else scene.streams⟩ _ fresh ?_ played
      rw [← sleep.2]
      split <;> simp

end Scene

namespace Store

open Session

variable {D : Item → Prop} {aside : Option CursorId} {multi : Bool} {held stood : Store → Tower → Prop}
  {own : CursorId → Prop} {p : SequenceId}

/-- A pipeline that is woken is related to its tower as one that can be asked at every depth, if the wider relation is the
narrower one for all towers that were started. -/
theorem Tracks.woken (tracks : Tracks D multi own p held stood)
    (busy : ∀ store (tower : Tower), held store tower → tower.pass.started = true → stood store tower) {n : Nat} {op : Op}
    {session : Session} {scene : Scene} (follows : session.FollowsAs held own p scene) (begun : scene.tower.pass = {})
    (rested : scene.tower.Rested) (unbegun : ∀ course ∈ scene.streams, course = .fresh)
    (wakes : op.wakes scene.streams.length = true) (deep : 4 * scene.tower.height + 2 ≤ n) :
    session.ComesTo (FollowsAs stood own p) (session.perform n p op)
      ((scene.perform multi n op).map fun asked => (Scene.outcome asked.1 asked.2, asked.2)) := by
  have performed := tracks.perform op follows deep
  rcases asked : scene.perform multi n op with _ | ⟨answer, left⟩ <;> rw [asked] at performed
  · exact performed
  · obtain ⟨after, ends, follows', grows⟩ := performed
    refine ⟨after, ends, { follows' with holds := ?_ }, grows⟩
    by_cases size : op = .size
    · subst size
      obtain ⟨last, reports, stands, -⟩ := tracks.size follows.holds (n := n) (by omega)
      cases asked
      have here : after.store = last := by
        rw [Session.perform, Op.run, Run.from?_bind, reports] at ends
        cases told : scene.tower.size <;> rw [told] at ends <;>
          exact congrArg Session.store (Prod.mk.inj (Option.some.inj ends)).2.symm
      rw [here]
      exact stands
    · by_cases flag : op = .multiValue
      · subst flag
        obtain ⟨last, reports, stands, -⟩ := tracks.flag follows.holds (n := n) (by omega)
        cases asked
        have here : after.store = last := by
          rw [Session.perform, Op.run, Run.from?_bind_ok reports] at ends
          exact congrArg Session.store (Prod.mk.inj (Option.some.inj ends)).2.symm
        rw [here]
        exact stands
      · exact busy _ _ follows'.holds (Scene.started_of_wakes begun rested unbegun wakes size flag asked)

/-- An operation that lets a pipeline sleep that was not built leaves it as it is. -/
theorem sequence_asleep {n : Nat} {op : Op} {session after : Session} {seen : Outcome} {steps : ListId} {input : Value}
    (passes : session.store.Passes D p {}) (form : (session.store.sequence p).body = .pipeline steps input .null)
    (sleeps : op.wakes session.streams.length = false) (ends : session.perform (n + 1) p op = some (seen, after)) :
    after.store.sequence p = session.store.sequence p := by
  cases op with
  | rewind =>
    obtain ⟨last, rewinds, spares, -⟩ := rewind_unbuilt passes form n
    rw [Session.perform, Op.run, Run.from?_bind_ok rewinds] at ends
    cases ends
    exact (spares [p]).same p List.mem_cons_self
  | stream =>
    cases ends
    rfl
  | pull i | drain i =>
    have outside : session.streams.length ≤ i := by simpa [Op.wakes] using sleeps
    rw [Session.perform, Op.run, List.getElem?_eq_none outside] at ends
    cases ends
    rfl
  | _ => cases sleeps

section Branch

variable {first : Store} {base : SequenceId} {ids : List SequenceId} {steps : ListId} {rules : List Rule}
  {below start : Tower} {n : Nat}

/-- An operation that lets a budding pipeline sleep leaves it budding. -/
theorem perform_budding (apart : p ∉ ids) (returns : below.restart = (none, start)) (fresh : start.Fresh) {op : Op}
    {session : Session} {scene : Scene}
    (follows : session.FollowsAs (Budding D aside multi first base p ids steps rules below start)
      (fun k => (first.cursor k).isStream = false) p scene)
    (sleeps : op.wakes scene.streams.length = false) (deep : 4 * scene.tower.height + 2 ≤ n) :
    session.ComesTo (FollowsAs (Budding D aside multi first base p ids steps rules below start)
      (fun k => (first.cursor k).isStream = false) p) (session.perform n p op)
      ((scene.perform multi n op).map fun asked => (Scene.outcome asked.1 asked.2, asked.2)) := by
  have performed := (tracks_branch apart returns fresh).perform op
    { follows with holds := .inr follows.holds } deep
  rcases asked : scene.perform multi n op with _ | ⟨answer, left⟩ <;> rw [asked] at performed
  · exact performed
  · obtain ⟨after, ends, follows', grows⟩ := performed
    refine ⟨after, ends, { follows' with holds := ?_ }, grows⟩
    obtain ⟨n, rfl⟩ : ∃ k, n = k + 1 := ⟨n - 1, by omega⟩
    have buds := follows.holds.buds
    have same := sequence_asleep buds.passes buds.form (follows.many ▸ sleeps) ends
    rcases follows'.holds with ⟨layers, -, stands, -⟩ | budding
    · exact absurd (same ▸ buds.form) stands.built
    · exact budding

/-- Operations in turn on a budding pipeline leave it budding unless one of them wakes it, and grown then. -/
theorem play_budding (apart : p ∉ ids) (returns : below.restart = (none, start)) (fresh : start.Fresh) (ops : List Op)
    {session : Session} {scene : Scene}
    (follows : session.FollowsAs (Budding D aside multi first base p ids steps rules below start)
      (fun k => (first.cursor k).isStream = false) p scene)
    (unbegun : ∀ course ∈ scene.streams, course = .fresh) (deep : 4 * scene.tower.height + 2 ≤ n) :
    session.ComesTo (FollowsAs (if Op.wakesAmong scene.streams.length ops then Grown D aside multi first p ids rules.length
        else Budding D aside multi first base p ids steps rules below start)
      (fun k => (first.cursor k).isStream = false) p) (session.play n p ops) (scene.play multi n ops) := by
  induction ops generalizing session scene with
  | nil => exact ⟨session, rfl, follows, .refl _⟩
  | cons op rest ih =>
    have begun : scene.tower.Fresh := by
      rw [follows.holds.tower]
      exact ⟨rfl, Tower.fresh_filters fresh⟩
    have height : ∀ {answer : Except Fault (Answer Item)} {left : Scene}, scene.perform multi n op = some (answer, left) →
        left.tower.height = scene.tower.height := fun asked =>
      Scene.perform_keeps (Tower.steady_height scene.tower.height) rfl asked
    rw [Op.wakesAmong]
    cases wakes : op.wakes scene.streams.length with
    | true =>
      simp only [Bool.true_or, if_true]
      have woken := (tracks_branch apart returns fresh).woken (fun store tower related started => by
        rcases related with grown | budding
        · exact grown
        · rw [budding.tower] at started
          cases started) { follows with holds := .inr follows.holds } begun.pass (by
            rw [follows.holds.tower]
            exact fun _ => rfl) unbegun wakes deep
      refine ComesTo.cons woken fun after left answer asked follows' =>
        (tracks_grown first p ids rules.length).play rest follows' ?_
      rw [height asked]
      exact deep
    | false =>
      simp only [Bool.false_or]
      refine ComesTo.cons (perform_budding apart returns fresh follows wakes deep) fun after left answer asked follows' => ?_
      rw [Scene.perform_asleep n begun wakes] at asked
      cases asked
      have many : (if op = .stream then scene.streams ++ [Course.fresh] else scene.streams).length =
          if op = .stream then scene.streams.length + 1 else scene.streams.length := by
        split <;> simp
      have played := ih follows' (fun course member => by
        split at member
        · exact (List.mem_append.mp member).elim (unbegun course) fun new => List.mem_singleton.mp new
        · exact unbegun course member) deep
      rwa [many] at played

end Branch

end Store

end FirstSeen
