import FirstSeen.Proofs.History.Beginning
import FirstSeen.Proofs.History.Keeping
import FirstSeen.Proofs.Tower.Flowing
import FirstSeen.Proofs.Tower.Refusing

/-!
# One-shot sources are walked through once

A pipeline over an iterator whose elements can all be judged hands out, whoever asks, what its stages keep of
these elements: each once, in order, and none of them is lost. Once it was started it refuses to begin again,
and so does each stream that would have to begin it again.

The invariant is that what was handed out, with the element that was peeked at, is what the tower has pulled,
and that the tower is either untouched or started from top to ground.
-/

set_option autoImplicit false

namespace FirstSeen

/-! ## What is handed out -/

/-- The elements that an operation hands out: those that it answers, unless it only peeks. -/
def Op.handed {α : Type} : Op → Except Fault (Answer α) → List α
  | .peek, _ => []
  | _, .ok (.element a) => [a]
  | _, .ok (.elements as) => as
  | _, _ => []

/-- The elements that were handed out by operations with these outcomes, in order. -/
def handedOut (ops : List Op) (outcomes : List Outcome) : List Value :=
  (List.zipWith (fun op outcome => op.handed outcome.answer) ops outcomes).flatten

theorem Op.handed_map {α β : Type} (f : α → β) (op : Op) (answer : Except Fault (Answer α)) :
    op.handed (answer.map (Answer.map f)) = (op.handed answer).map f := by
  rcases answer with fault | _ | a | as | v | b <;> cases op <;> rfl

/-- An operation that does not only peek hands out the element that it answers. -/
theorem Op.handed_element {α : Type} {op : Op} (hands : op ≠ .peek) (told : Except Fault α) :
    op.handed (told.map .element) = told.toOption.toList := by
  cases told <;> cases op <;> first | rfl | exact absurd rfl hands

/-- An operation that does not only peek hands out the elements that it answers. -/
theorem Op.handed_elements {α : Type} {op : Op} (hands : op ≠ .peek) (ended : Except Fault (List α)) :
    op.handed (ended.map .elements) = ended.toOption.getD [] := by
  cases ended <;> cases op <;> first | rfl | exact absurd rfl hands

namespace Tower

/-- Whether a tower that came from an untouched one has handed out some elements: with the one that was
peeked at, which there is none of at the end, they are those that it pulled. The tower is untouched or was
started from top to ground. -/
structure HandedOut (source : Tape) (rules : List Rule) (refusal : Fault) (start tower : Tower)
    (handed : List Item) : Prop where
  carries : ∃ items, Carries source items rules tower (handed ++ tower.pass.peeked.toList)
  unpeeked : tower.pass.exhausted = true → tower.pass.peeked = none
  begun : tower = start ∨ tower.Begun refusal

variable {source : Tape} {rules : List Rule} {refusal : Fault} {start tower : Tower} {handed : List Item}
  (free : source.ErrorFree) (sifted : source.SiftedBy rules) (fresh : start.Fresh)
  (poised : start.Poised refusal)

include poised in
/-- A tower that was started was started from top to ground. -/
theorem HandedOut.allBegun (out : HandedOut source rules refusal start tower handed)
    (started : tower.pass.started = true) : tower.Begun refusal := by
  rcases out.begun with rfl | begun
  · rw [poised.pass] at started
    cases started
  · exact begun

include free sifted poised in
/-- Asking for an element hands it out, or is at the end. -/
theorem HandedOut.next {n : Nat} {left : Tower} {told : Draw}
    (out : HandedOut source rules refusal start tower handed) (ends : next n tower = some (told, left)) :
    HandedOut source rules refusal start left (handed ++ told.toOption.toList) ∧
      left.pass.peeked = none ∧ ∀ fault, told = .error fault → fault = .ended := by
  have begun : left.Begun refusal :=
    next_begun (out.begun.imp_left fun same => same ▸ poised) ends
  obtain ⟨⟨items, carries⟩, idle, -⟩ := out
  cases peeked : tower.pass.peeked with
  | some item =>
    cases n with
    | zero => cases ends
    | succ n =>
      rw [Tower.next, peeked] at ends
      cases ends
      rw [peeked] at carries
      refine ⟨⟨⟨items, ?_⟩, by simp, .inr begun⟩, by simp, fun fault same => by cases same⟩
      simpa [Except.toOption] using carries.withPass { tower.pass with peeked := none } rfl
  | none =>
    rw [peeked, Option.toList_none, List.append_nil] at carries
    obtain ⟨unpeeked, items', carried⟩ := next_carried free sifted peeked carries ends
    refine ⟨⟨⟨items', ?_⟩, fun _ => unpeeked, .inr begun⟩, unpeeked, fun fault same => ?_⟩
    · rw [unpeeked, Option.toList_none, List.append_nil]
      cases told with
      | ok item => exact carried.2
      | error fault => simpa [Except.toOption] using carried.2.2
    · subst same
      exact carried.1

include free sifted poised in
/-- Looking ahead hands out nothing. -/
theorem HandedOut.peek {n : Nat} {left : Tower} {told : Draw}
    (out : HandedOut source rules refusal start tower handed) (ends : tower.peek n = some (told, left)) :
    HandedOut source rules refusal start left handed := by
  rw [Tower.peek] at ends
  split at ends
  · cases ends
    exact out
  · rename_i peeked
    obtain ⟨⟨drawn, between⟩, asked, same⟩ := Option.map_eq_some_iff.mp ends
    have begun : between.Begun refusal := next_begun (out.begun.imp_left fun same => same ▸ poised) asked
    obtain ⟨items, carries⟩ := out.carries
    rw [peeked, Option.toList_none, List.append_nil] at carries
    obtain ⟨unpeeked, items', carried⟩ := next_carried free sifted peeked carries asked
    cases drawn with
    | error fault =>
      cases same
      exact ⟨⟨items', by simpa [unpeeked] using carried.2.2⟩, fun _ => unpeeked, .inr begun⟩
    | ok item =>
      cases same
      refine ⟨⟨items', ?_⟩, fun spent => ?_, .inr (begun.withPass begun.started)⟩
      · simpa using carried.2.withPass { between.pass with peeked := some item } rfl
      · simp [carried.1] at spent

include fresh poised in
/-- Beginning again is refused once the tower was started, and does nothing before. -/
theorem HandedOut.rewind (out : HandedOut source rules refusal start tower handed) :
    tower.rewind = (if tower.pass.started then some refusal else none, tower) := by
  rcases out.begun with rfl | begun
  · rw [fresh.rewind, poised.pass]
    rfl
  · rw [begun.rewind, begun.started]
    rfl

include fresh poised in
theorem HandedOut.restart (out : HandedOut source rules refusal start tower handed) :
    tower.restart = (if tower.pass.started then some refusal else none, tower) := by
  rw [Tower.restart]
  split
  · rename_i started
    rw [out.rewind fresh poised, if_pos started]
  · rfl

include free sifted fresh poised in
/-- All elements are refused once the tower was started, and else are all handed out. -/
theorem HandedOut.force {n : Nat} {left : Tower} {ended : Except Fault (List Item)}
    (out : HandedOut source rules refusal start tower handed) (ends : tower.force n = some (ended, left)) :
    HandedOut source rules refusal start left (handed ++ ended.toOption.getD []) := by
  rw [Tower.force, out.restart fresh poised] at ends
  split at ends
  · rename_i refused
    cases ends
    simpa [Except.toOption] using (Prod.mk.inj refused).2 ▸ out
  · rename_i granted
    obtain ⟨more, rfl, out'⟩ := gatherBy_collects (HandedOut source rules refusal start)
      (HandedOut source rules refusal start)
      (fun _ _ _ _ _ out asked => (out.next free sifted poised asked).1)
      (fun _ _ _ _ _ out asked => by
        obtain ⟨out', -, ended⟩ := out.next free sifted poised asked
        exact ⟨ended _ rfl, by simpa [Except.toOption] using out'⟩)
      n ((Prod.mk.inj granted).2 ▸ out) ends
    simpa [Except.toOption] using out'

end Tower

namespace Scene

open Tower

variable {source : Tape} {rules : List Rule} {refusal : Fault} {start : Tower} {handed : List Item}
  (free : source.ErrorFree) (sifted : source.SiftedBy rules) (fresh : start.Fresh)
  (poised : start.Poised refusal)

include free sifted poised in
/-- What is drawn for a stream is handed out, and the stream is begun then. -/
theorem hand_handedOut {n i : Nat} {tower : Tower} {streams : List Course} {left : Scene} {told : Draw}
    (out : HandedOut source rules refusal start tower handed)
    (ends : (tower.next n).map (hand streams i) = some (told, left)) :
    HandedOut source rules refusal start left.tower (handed ++ told.toOption.toList) ∧
      left.streams[i]? ≠ some .fresh ∧ ∀ fault, told = .error fault → fault = .ended := by
  have begun : ∀ course, course ≠ .fresh → (streams.set i course)[i]? ≠ some .fresh := by
    intro course other same
    rw [List.getElem?_set_self'] at same
    cases found : streams[i]? with
    | none => simp [found] at same
    | some before =>
      rw [found] at same
      exact other (Option.some.inj same)
  obtain ⟨⟨drawn, between⟩, asked, same⟩ := Option.map_eq_some_iff.mp ends
  obtain ⟨out', -, ended⟩ := out.next free sifted poised asked
  cases drawn with
  | ok item =>
    cases same
    exact ⟨out', begun .drawing (by simp), fun fault same => by cases same⟩
  | error fault =>
    obtain rfl := ended fault rfl
    cases same
    exact ⟨out', begun .spent (by simp), fun fault same => by cases same; rfl⟩

include free sifted fresh poised in
/-- Asking a stream hands out what it gives. A stream that was begun fails at the end only, and a stream that
gives something is begun. -/
theorem advance_handedOut {n i : Nat} {scene left : Scene} {told : Draw}
    (out : HandedOut source rules refusal start scene.tower handed)
    (ends : scene.advance i n = some (told, left)) :
    HandedOut source rules refusal start left.tower (handed ++ told.toOption.toList) ∧
      (scene.streams[i]? ≠ some .fresh →
        left.streams[i]? ≠ some .fresh ∧ ∀ fault, told = .error fault → fault = .ended) ∧
      ∀ item, told = .ok item → left.streams[i]? ≠ some .fresh := by
  cases n with
  | zero => cases ends
  | succ n =>
    rw [advance] at ends
    cases found : scene.streams[i]? with
    | none =>
      simp only [found] at ends
      cases ends
      refine ⟨by simpa [Except.toOption] using out, fun _ => ⟨by simp [found], fun fault same => ?_⟩, ?_⟩
      · exact (Except.error.inj same).symm
      · exact fun item same => by cases same
    | some course =>
      cases course with
      | spent =>
        simp only [found] at ends
        cases ends
        refine ⟨by simpa [Except.toOption] using out, fun _ => ⟨by simp [found], fun fault same => ?_⟩, ?_⟩
        · exact (Except.error.inj same).symm
        · exact fun item same => by cases same
      | drawing =>
        simp only [found] at ends
        obtain ⟨out', begun, ended⟩ := hand_handedOut free sifted poised out ends
        exact ⟨out', fun _ => ⟨begun, ended⟩, fun _ _ => begun⟩
      | fresh =>
        simp only [found, out.restart fresh poised] at ends
        split at ends
        · rename_i refused
          obtain ⟨-, rfl⟩ := Prod.mk.inj refused
          cases ends
          exact ⟨by simpa [Except.toOption] using out, fun other => absurd rfl other,
            fun item same => by cases same⟩
        · rename_i granted
          obtain ⟨out', begun, -⟩ := hand_handedOut free sifted poised ((Prod.mk.inj granted).2 ▸ out) ends
          exact ⟨out', fun other => absurd rfl other, fun _ _ => begun⟩

include free sifted fresh poised in
/-- Draining a stream hands out what it gives, if it gives anything. -/
theorem drain_handedOut {n i : Nat} {scene left : Scene} {ended : Except Fault (List Item)}
    (out : HandedOut source rules refusal start scene.tower handed)
    (ends : gatherBy (advance i) n scene [] = some (ended, left)) :
    HandedOut source rules refusal start left.tower (handed ++ ended.toOption.getD []) := by
  -- A stream that was begun gives everything up to the end.
  have begun : ∀ (n : Nat) (state : Scene) (handed earlier : List Item), state.streams[i]? ≠ some .fresh →
      HandedOut source rules refusal start state.tower handed →
      gatherBy (advance i) n state earlier = some (ended, left) →
      ∃ more, ended = .ok (earlier.reverse ++ more) ∧
        HandedOut source rules refusal start left.tower (handed ++ more) := by
    intro n state handed earlier other out ends
    refine gatherBy_collects
      (fun state handed => state.streams[i]? ≠ some .fresh ∧
        HandedOut source rules refusal start state.tower handed)
      (fun state handed => HandedOut source rules refusal start state.tower handed)
      ?_ ?_ n ⟨other, out⟩ ends
    · rintro n state handed item between ⟨-, out⟩ asked
      obtain ⟨out', -, begun⟩ := advance_handedOut free sifted fresh poised out asked
      exact ⟨begun item rfl, out'⟩
    · rintro n state handed fault between ⟨other, out⟩ asked
      obtain ⟨out', stops, -⟩ := advance_handedOut free sifted fresh poised out asked
      exact ⟨(stops other).2 fault rfl, by simpa [Except.toOption] using out'⟩
  cases n with
  | zero => cases ends
  | succ n =>
    rw [gatherBy] at ends
    rcases drawn : advance i n scene with _ | ⟨told, between⟩
    · simp [drawn] at ends
    · obtain ⟨out', -, other⟩ := advance_handedOut free sifted fresh poised out drawn
      rw [drawn] at ends
      cases told with
      | error fault =>
        cases ends
        by_cases signals : fault.isEnd <;> simpa [Except.toOption, signals] using out'
      | ok item =>
        obtain ⟨more, rfl, out''⟩ := begun n between _ _ (other item rfl) out' ends
        simpa [Except.toOption] using out''

include free sifted fresh poised in
/-- What an operation hands out comes after what was handed out before. -/
theorem perform_handedOut {multi : Bool} {n : Nat} {op : Op} {scene left : Scene}
    {answer : Except Fault (Answer Item)} (out : HandedOut source rules refusal start scene.tower handed)
    (ends : scene.perform multi n op = some (answer, left)) :
    HandedOut source rules refusal start left.tower (handed ++ op.handed answer) := by
  have unchanged : HandedOut source rules refusal start scene.tower (handed ++ []) := by
    rwa [List.append_nil]
  cases op with
  | next =>
    obtain ⟨⟨told, tower⟩, asked, same⟩ := Option.map_eq_some_iff.mp ends
    cases same
    rw [Op.handed_element (by simp)]
    exact (out.next free sifted poised asked).1
  | peek =>
    obtain ⟨⟨told, tower⟩, asked, same⟩ := Option.map_eq_some_iff.mp ends
    cases same
    rw [Op.handed, List.append_nil]
    exact out.peek free sifted poised asked
  | rewind =>
    rw [perform, out.rewind fresh poised] at ends
    split at ends <;> rename_i rewinds <;> obtain ⟨-, rfl⟩ := Prod.mk.inj rewinds <;> cases ends <;>
      exact unchanged
  | force | collect =>
    obtain ⟨⟨ended, tower⟩, asked, same⟩ := Option.map_eq_some_iff.mp ends
    cases same
    rw [Op.handed_elements (by simp)]
    exact out.force free sifted fresh poised asked
  | size =>
    cases ends
    cases scene.tower.size <;> exact unchanged
  | multiValue | stream =>
    cases ends
    exact unchanged
  | pull i =>
    rw [perform] at ends
    split at ends
    · cases ends
      exact unchanged
    · obtain ⟨⟨told, between⟩, asked, same⟩ := Option.map_eq_some_iff.mp ends
      cases same
      rw [Op.handed_element (by simp)]
      exact (advance_handedOut free sifted fresh poised out asked).1
  | drain i =>
    rw [perform] at ends
    split at ends
    · cases ends
      exact unchanged
    · obtain ⟨⟨ended, between⟩, asked, same⟩ := Option.map_eq_some_iff.mp ends
      cases same
      rw [Op.handed_elements (by simp)]
      exact drain_handedOut free sifted fresh poised out asked

include free sifted fresh poised in
/-- What operations in turn hand out comes, in time order, after what was handed out before. -/
theorem play_handedOut {multi : Bool} {n : Nat} {ops : List Op} {scene last : Scene} {outcomes : List Outcome}
    (out : HandedOut source rules refusal start scene.tower handed)
    (ends : scene.play multi n ops = some (outcomes, last)) :
    ∃ all, HandedOut source rules refusal start last.tower all ∧
      all.map Item.contents = handed.map Item.contents ++ handedOut ops outcomes := by
  induction ops generalizing scene handed outcomes with
  | nil =>
    cases ends
    exact ⟨handed, out, by simp [handedOut]⟩
  | cons op rest ih =>
    rw [play] at ends
    rcases performed : scene.perform multi n op with _ | ⟨answer, between⟩
    · simp [performed] at ends
    · have out' := perform_handedOut free sifted fresh poised out performed
      rcases played : between.play multi n rest with _ | ⟨others, final⟩
      · simp [performed, played] at ends
      · simp only [performed, played, Option.some.injEq, Prod.mk.injEq] at ends
        obtain ⟨rfl, rfl⟩ := ends
        obtain ⟨all, out'', same⟩ := ih out' played
        refine ⟨all, out'', ?_⟩
        rw [same, List.map_append, List.append_assoc, ← Op.handed_map]
        rfl

end Scene

namespace Tower

/-- A tower that was started from top to ground stays so. -/
theorem steady_begun (refusal : Fault) : Steady (Begun refusal) where
  next _ _ _ _ begun asked := next_begun (.inr begun) asked
  ahead _ _ _ _ begun _ asked :=
    have begun' := next_begun (.inr begun) asked
    begun'.withPass begun'.started
  rewind tower begun := by
    rw [begun.rewind]
    exact begun

end Tower

/-! ## The conservation -/

/-- Whether an operation begins a pass again: a rewind, taking all elements, or asking a stream that was not
begun. -/
def Op.Restarts (session : Session) (p : SequenceId) (op : Op) : Prop :=
  op = .rewind ∨ op = .force ∨ op = .collect ∨
    ∃ i, (op = .pull i ∨ op = .drain i) ∧ i < session.streams.length ∧ session.Unbegun p i

/-- What would begin a pass again fails with the refusal of the tower, and changes nothing but that a stream
that was asked is over. -/
theorem Scene.restarts_refused {multi : Bool} {n : Nat} {op : Op} {scene : Scene} {refusal : Fault}
    (begun : scene.tower.Begun refusal) (notEnd : refusal.isEnd = false) (deep : 1 < n)
    (restarts : op = .rewind ∨ op = .force ∨ op = .collect ∨
      ∃ i, (op = .pull i ∨ op = .drain i) ∧ scene.streams[i]? = some .fresh) :
    ∃ left, scene.perform multi n op = some (.error refusal, left) ∧ left.tower = scene.tower := by
  have restart : scene.tower.restart = (some refusal, scene.tower) := by
    rw [Tower.restart, if_pos begun.started, begun.rewind]
  have force : scene.tower.force n = some (.error refusal, scene.tower) := by
    rw [Tower.force, restart]
  have advance : ∀ i m, scene.streams[i]? = some .fresh →
      scene.advance i (m + 1) = some (.error refusal, ⟨scene.tower, scene.streams.set i .spent⟩) := by
    intro i m fresh
    simp only [Scene.advance, fresh, restart, Run.insteadOfEnd, notEnd, Bool.false_eq_true, if_false]
  obtain ⟨m, rfl⟩ : ∃ m, n = m + 2 := ⟨n - 2, by omega⟩
  rcases restarts with rfl | rfl | rfl | ⟨i, rfl | rfl, fresh⟩
  · exact ⟨scene, by simp only [perform, begun.rewind], rfl⟩
  · exact ⟨scene, by simp only [perform, force]; rfl, rfl⟩
  · exact ⟨scene, by simp only [perform, force]; rfl, rfl⟩
  · refine ⟨⟨scene.tower, scene.streams.set i .spent⟩, ?_, rfl⟩
    simp only [perform, fresh, advance i _ fresh]
    rfl
  · refine ⟨⟨scene.tower, scene.streams.set i .spent⟩, ?_, rfl⟩
    simp only [perform, fresh, gatherBy, advance i m fresh, notEnd]
    rfl

/-- A new pipeline over an iterator has handed out nothing. -/
theorem Store.handedOut_towerOf (store : Store) (steps : ListId) (id : CursorId) (multi : Bool) :
    Tower.HandedOut (store.tapeOf (store.cursor id)) ((store.list steps).map (store.ruleOfStep multi))
      (store.originOf (.object (.cursor id))).refusal (store.towerOf steps (.object (.cursor id)) multi)
      (store.towerOf steps (.object (.cursor id)) multi) [] := by
  have untouched : (Tower.ground {} (store.originOf (.object (.cursor id)))).Fresh := ⟨rfl, rfl⟩
  have idle : (Tower.filters ((store.list steps).map (store.ruleOfStep multi))
      (.ground {} (store.originOf (.object (.cursor id))))).pass = {} :=
    (Tower.fresh_filters untouched).pass
  have ground : Tower.Carries (store.tapeOf (store.cursor id)) [] []
      (.ground {} (store.originOf (.object (.cursor id)))) [] :=
    .ground rfl (fun _ => rfl) fun spent => by cases spent
  exact ⟨⟨[], .passage (by rw [idle]) (fun spent => by cases spent) (Tower.carries_filters _ rfl ground)⟩,
    fun _ => rfl, .inl rfl⟩

/-- For any history on a pipeline over an iterator whose elements can all be judged: what was handed out, in time
order, is a beginning of what the stages keep of what the iterator gives, and all of it once the pipeline is
exhausted. Once the pipeline is started it stays so, and whatever would begin a pass again fails because the
iterator cannot be rewound. -/
theorem one_shot_walked_once {store : Store} {p : SequenceId} {steps : ListId} {id : CursorId} {multi : Bool}
    (new : store.NewPipeline p steps (.object (.cursor id)) multi)
    (free : (store.tapeOf (store.cursor id)).ErrorFree)
    (sifted : (store.tapeOf (store.cursor id)).SiftedBy ((store.list steps).map (store.ruleOfStep multi)))
    {n : Nat} (deep : 4 * (store.list steps).length + 10 ≤ n) {history : List Op} {outcomes : List Outcome}
    {session : Session} (played : (Session.mk store []).play n p history = some (outcomes, session)) :
    (∃ enough, ∀ k, enough ≤ k → ∀ kept,
      Rule.siftAll ((store.list steps).map (store.ruleOfStep multi))
          ((store.tapeOf (store.cursor id)).elements k) = .ok kept →
        handedOut history outcomes <+: kept.map Item.contents ∧
        ((session.store.sequence p).exhausted = true →
          handedOut history outcomes = kept.map Item.contents)) ∧
    ((session.store.sequence p).started = true →
      (∀ op : Op, op.Restarts session p → ∃ exhausted after, session.perform n p op =
        some (⟨.error (.cannotRewind "IterableSequence"
          ((store.cursor id).typeName ++ " is a one-shot iterator")), true, exhausted⟩, after)) ∧
      ∀ op seen after, session.perform n p op = some (seen, after) → seen.started = true) := by
  have fresh := store.fresh_towerOf steps (.object (.cursor id)) multi
  have height := store.height_towerOf steps (.object (.cursor id)) multi
  have poised : (store.towerOf steps (.object (.cursor id)) multi).Poised
      (store.originOf (.object (.cursor id))).refusal := ⟨rfl, Tower.poised_filters ⟨rfl, rfl, rfl⟩⟩
  have follows := new.follows
  have nothing := store.handedOut_towerOf steps id multi
  generalize store.towerOf steps (.object (.cursor id)) multi = start at fresh height poised follows nothing
  obtain ⟨last, told, follows'⟩ := (Session.play_follows history follows (by simp only; omega)).some played
  have high : last.tower.height = start.height := Scene.play_keeps (Tower.steady_height _) rfl told
  obtain ⟨all, out, same⟩ := Scene.play_handedOut free sifted fresh poised nothing told
  rw [List.map_nil, List.nil_append] at same
  have passes := follows'.holds.passes
  refine ⟨?_, fun started => ?_⟩
  · obtain ⟨items, carries⟩ := out.carries
    obtain ⟨final, reaches, spent⟩ := carries.reached
    refine ⟨items.length, fun k enough kept sifts => ?_⟩
    obtain ⟨more, rfl⟩ := Nat.exists_eq_add_of_le enough
    rw [reaches.elements] at sifts
    obtain ⟨first, sifted', before⟩ := Rule.siftAll_append sifts
    obtain rfl := Except.ok.inj (carries.sifted.symm.trans sifted')
    rw [← same]
    refine ⟨((List.prefix_append all _).trans before).map _, fun exhausted => ?_⟩
    rw [passes.exhausted] at exhausted
    rw [(spent exhausted).elements, List.append_nil, carries.sifted, out.unpeeked exhausted,
      Option.toList_none, List.append_nil] at sifts
    rw [Except.ok.inj sifts]
  · rw [passes.started] at started
    have begun := out.allBegun poised started
    refine ⟨fun op restarts => ?_, fun op seen after performed => ?_⟩
    · have restarts' : op = .rewind ∨ op = .force ∨ op = .collect ∨
          ∃ i, (op = .pull i ∨ op = .drain i) ∧ last.streams[i]? = some .fresh := by
        refine restarts.imp_right (.imp_right (.imp_right ?_))
        rintro ⟨i, asks, inside, unbegun⟩
        refine ⟨i, asks, ?_⟩
        rw [follows'.unbegun unbegun, List.getElem?_replicate, if_pos (follows'.many ▸ inside)]
      obtain ⟨left, refused, kept⟩ : ∃ left, last.perform multi n op = some (.error _, left) ∧
          left.tower = last.tower := Scene.restarts_refused begun rfl (by omega) restarts'
      have comes := Session.perform_follows op follows' (n := n) (by omega)
      rw [refused] at comes
      obtain ⟨after, ends, -⟩ := comes
      refine ⟨left.tower.pass.exhausted, after, ends.trans ?_⟩
      rw [Scene.outcome, kept, begun.started]
      rfl
    · obtain ⟨left, ended, -⟩ := (Session.perform_follows op follows' (by omega)).some performed
      obtain ⟨⟨answer, scene⟩, asked, same⟩ := Option.map_eq_some_iff.mp ended
      cases same
      exact (Scene.perform_keeps (Tower.steady_begun _) begun asked).started

/-- A pipeline over an iterator that gives `1, 2, 1`, asked by a stream, directly, and by looking ahead. -/
theorem one_shot_walked_once_iterator :
    ∃ outcomes session exhausted after,
      (Session.mk (.sample (.object (.cursor ⟨0⟩))) []).play 14 ⟨0⟩ [.stream, .pull 0, .next, .peek] =
        some (outcomes, session) ∧
      handedOut [.stream, .pull 0, .next, .peek] outcomes = [.int 1, .int 2] ∧
      session.perform 14 ⟨0⟩ .force = some (⟨.error (.cannotRewind "IterableSequence"
        "iterator is a one-shot iterator"), true, exhausted⟩, after) := by
  have evaluated : ((Session.mk (.sample (.object (.cursor ⟨0⟩))) []).play 14 ⟨0⟩
      [.stream, .pull 0, .next, .peek]).map (fun played =>
        ((played.2.store.sequence ⟨0⟩).started, (played.2.store.sequence ⟨0⟩).exhausted)) =
      some (true, true) := by decide +kernel
  obtain ⟨⟨outcomes, session⟩, played, flags⟩ := Option.map_eq_some_iff.mp evaluated
  obtain ⟨started, exhausted⟩ := Prod.mk.inj flags
  let store : Store := .sample (.object (.cursor ⟨0⟩))
  let one : Item := ⟨.int 1, false, some (.int 1)⟩
  let two : Item := ⟨.int 2, false, some (.int 2)⟩
  have free : (store.tapeOf (store.cursor ⟨0⟩)).ErrorFree := by
    intro i fault there
    obtain ⟨event, found, tells⟩ := Option.map_eq_some_iff.mp there
    obtain ⟨v, -, rfl⟩ := Option.map_eq_some_iff.mp found
    cases tells
  obtain ⟨last, reaches, ended⟩ : ∃ last, (store.tapeOf (store.cursor ⟨0⟩)).Reaches [one, two, one] last ∧
      last.Ended := ⟨_, ⟨rfl, rfl, rfl, rfl⟩, rfl⟩
  have sifts : Rule.siftAll ((store.list ⟨0⟩).map (store.ruleOfStep false)) [one, two, one] =
      .ok [one, two] := rfl
  obtain ⟨⟨enough, conserved⟩, refused⟩ := one_shot_walked_once
    (Store.newPipeline_sample Store.raw_sample_iterator) free
    (Tape.sifted_of_ended reaches ended sifts) (by decide) played
  have walked : (store.tapeOf (store.cursor ⟨0⟩)).elements (3 + enough) = [one, two, one] := by
    rw [show 3 = [one, two, one].length from rfl, reaches.elements, ended.elements, List.append_nil]
  have all := conserved (3 + enough) (Nat.le_add_left _ _) [one, two] (by rw [walked]; exact sifts)
  obtain ⟨exhausted', after, fails⟩ := (refused started).1 .force (.inr (.inl rfl))
  exact ⟨outcomes, session, exhausted', after, played, all.2 exhausted, fails⟩

end FirstSeen
