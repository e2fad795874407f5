import FirstSeen.Proofs.History.Following
import FirstSeen.Proofs.Merging
import FirstSeen.Proofs.Tower.Sieving

/-!
# All that is gathered in the end

A run that takes all elements of something *yields* a result if it ends with it whenever enough calls are allowed: the
contents of all elements, or the fault that came first. A tower *gathers* a result in the same sense. A run yields what a
tower gathers if its draws mirror those of the tower; the passage of a pipeline and the stream of one mirror the tower
below them, though a stream puts its own end in the place of the one that it met.
-/

set_option autoImplicit false

namespace FirstSeen

/-- A draw as far as what is gathered depends on it: one end is as good as another. -/
def Draw.seen (told : Draw) : Draw := told.mapError fun fault => if fault.isEnd then .ended else fault

/-- Draws that are seen to be the same, of states that stay related, gather the same. -/
theorem gatherBy_seen {σ τ : Type} {draw : Nat → σ → Option (Draw × σ)} {draw' : Nat → τ → Option (Draw × τ)}
    (rel : σ → τ → Prop) (more : Nat)
    (each : ∀ n state other told left, rel state other → draw n state = some (told, left) →
      ∃ told' left', draw' (n + more) other = some (told', left') ∧ Draw.seen told' = Draw.seen told ∧
        (told.isOk → rel left left'))
    (n : Nat) {state left : σ} {other : τ} {items : List Item} {ended : Except Fault (List Item)}
    (related : rel state other) (ends : gatherBy draw n state items = some (ended, left)) :
    ∃ left', gatherBy draw' (n + more) other items = some (ended, left') := by
  induction n generalizing state other items with
  | zero => cases ends
  | succ n ih =>
    rw [gatherBy] at ends
    rw [Nat.add_right_comm, gatherBy]
    rcases drawn : draw n state with _ | ⟨fault | item, between⟩ <;> rw [drawn] at ends
    · cases ends
    · obtain ⟨told', between', drawn', alike, -⟩ := each n state other _ _ related drawn
      rw [drawn']
      rcases told' with fault' | item
      · have signals : (if fault'.isEnd then Fault.ended else fault') = if fault.isEnd then .ended else fault :=
          Except.error.inj alike
        obtain ⟨rfl, -⟩ := Prod.mk.inj (Option.some.inj ends)
        refine ⟨between', congrArg some (Prod.ext ?_ rfl)⟩
        have ended : Fault.ended.isEnd = true := rfl
        by_cases last : fault.isEnd <;> by_cases last' : fault'.isEnd <;>
          simp only [last, last', if_true, if_false, Bool.false_eq_true] at signals ⊢
        · exact absurd (signals ▸ ended) last'
        · exact absurd (signals ▸ ended) last
        · rw [signals]
      · cases alike
    · obtain ⟨told', between', drawn', alike, stays⟩ := each n state other _ _ related drawn
      rw [drawn']
      rcases told' with fault' | item'
      · cases alike
      · obtain rfl : item' = item := Except.ok.inj alike
        exact ih (stays rfl) ends

namespace Tower

/-- What a tower gives in the end: the contents of all its elements, or the fault that comes first. -/
def Gathers (tower : Tower) (result : Except Fault (List Value)) : Prop :=
  ∃ n ended left, gatherBy next n tower [] = some (ended, left) ∧ ended.map (List.map Item.contents) = result

/-- Whether draws from a state gather what a tower gathers, given some more calls. -/
structure Mirrors {σ : Type} (draw : Nat → σ → Option (Draw × σ)) (state : σ) (tower : Tower) : Prop where
  sinks : ∀ n ended left, gatherBy draw n state [] = some (ended, left) →
    ∃ left', gatherBy next n tower [] = some (ended, left')
  rises : ∃ more, ∀ n m ended left, n + more ≤ m → gatherBy next n tower [] = some (ended, left) →
    ∃ left', gatherBy draw m state [] = some (ended, left')

/-- Draws that are seen to be the same as those of a tower, in both directions, mirror it. -/
theorem mirrors_of_seen {σ : Type} {draw : Nat → σ → Option (Draw × σ)} {state : σ} {tower : Tower}
    (rel : σ → Tower → Prop) (more : Nat) (related : rel state tower)
    (down : ∀ n state tower told left, rel state tower → draw n state = some (told, left) →
      ∃ told' left', next n tower = some (told', left') ∧ Draw.seen told' = Draw.seen told ∧ (told.isOk → rel left left'))
    (up : ∀ n tower state told left, rel state tower → next n tower = some (told, left) →
      ∃ told' left', draw (n + more) state = some (told', left') ∧ Draw.seen told' = Draw.seen told ∧
        (told.isOk → rel left' left)) : Mirrors draw state tower where
  sinks n ended left ends := gatherBy_seen rel 0 down n related ends
  rises := by
    refine ⟨more, fun n m ended left le ends => ?_⟩
    obtain ⟨k, rfl⟩ : ∃ k, m = k + more := ⟨m - more, by omega⟩
    exact gatherBy_seen (flip rel) more up k related (gather_mono (by omega) ends)

/-- A tower mirrors itself. -/
theorem mirrors_self (tower : Tower) : Mirrors next tower tower :=
  mirrors_of_seen Eq 0 rfl
    (fun _ _ _ told left same ends => ⟨told, left, same ▸ ends, rfl, fun _ => rfl⟩)
    fun _ _ _ told left same ends => ⟨told, left, same ▸ ends, rfl, fun _ => rfl⟩

/-- A passage on top of a tower that nobody peeked at mirrors it. -/
theorem mirrors_passage {tower : Tower} (unpeeked : tower.pass.peeked = none) :
    Mirrors next (passage tower.pass tower) tower :=
  mirrors_of_seen (flip Topped) 2 ⟨rfl, unpeeked⟩
    (fun _ _ _ told _ topped ends => by
      obtain ⟨rfl, idle⟩ := topped
      obtain ⟨below, asked, rfl, idle'⟩ := next_topped idle ends
      exact ⟨told, below, asked, rfl, fun _ => ⟨rfl, idle'⟩⟩)
    fun _ _ _ told _ topped ends => by
      obtain ⟨rfl, idle⟩ := topped
      obtain ⟨above, idle'⟩ := next_here idle ends
      exact ⟨told, _, above, rfl, fun _ => ⟨rfl, idle'⟩⟩

/-- What is handed to a stream is seen to be what the tower told. -/
theorem seen_hand (streams : List Course) (i : Nat) (told : Draw) (left : Tower) :
    Draw.seen (Scene.hand streams i (told, left)).1 = Draw.seen told := by
  rcases told with fault | item
  · simp only [Scene.hand, Draw.seen, Except.mapError]
    split
    · rfl
    · simp only [*]
  · rfl

/-- The only stream of a tower that was not started mirrors it. -/
theorem mirrors_stream {tower : Tower} (unstarted : tower.pass.started = false) :
    Mirrors (Scene.advance 0) ⟨tower, [.fresh]⟩ tower := by
  let rel (scene : Scene) (tower : Tower) : Prop := scene.tower = tower ∧
    (scene.streams = [.drawing] ∨ scene.streams = [.fresh] ∧ tower.pass.started = false)
  -- While the stream is not over, asking it asks the tower, with one call more.
  have asked : ∀ n scene tower, rel scene tower →
      ∃ course, Scene.advance 0 (n + 1) scene = (tower.next n).map (Scene.hand [course] 0) := by
    rintro n ⟨tower, streams⟩ _ ⟨rfl, drawing | ⟨fresh, unstarted⟩⟩
    · obtain rfl : streams = [.drawing] := drawing
      exact ⟨.drawing, rfl⟩
    · obtain rfl : streams = [.fresh] := fresh
      have unstarted : tower.pass.started = false := unstarted
      exact ⟨.fresh, by simp [Scene.advance, restart, unstarted]⟩
  have stays : ∀ course told left, (Draw.seen told).isOk →
      rel (Scene.hand [course] 0 (told, left)).2 left := by
    rintro course (fault | item) left ok
    · cases ok
    · exact ⟨rfl, .inl rfl⟩
  refine mirrors_of_seen rel 1 ⟨rfl, .inr ⟨rfl, unstarted⟩⟩
    (fun n scene tower told left related ends => ?_) fun n tower scene told left related ends => ?_
  · cases n with
    | zero => cases ends
    | succ n =>
      obtain ⟨course, same⟩ := asked n scene tower related
      obtain ⟨⟨told', left'⟩, drawn, handed⟩ := Option.map_eq_some_iff.mp (same ▸ ends)
      have alike : Draw.seen told = Draw.seen told' := by rw [← seen_hand [course] 0 told' left', handed]
      refine ⟨told', left', next_mono (Nat.le_succ n) drawn, alike.symm, fun ok => ?_⟩
      have ok' : (Draw.seen told').isOk := by
        rw [← alike]
        cases told with
        | ok item => rfl
        | error fault => cases ok
      simpa only [handed] using stays course told' left' ok'
  · obtain ⟨course, same⟩ := asked n scene tower related
    refine ⟨_, _, by rw [same, ends]; rfl, seen_hand [course] 0 told left, fun ok => stays course told left ?_⟩
    cases told with
    | ok item => rfl
    | error fault => cases ok

end Tower

namespace Store

variable {D : Item → Prop} {aside : Option CursorId} {multi : Bool}

/-- Whether a run, given enough calls, ends with the contents of all elements of something or with a fault. -/
def Yields (store : Store) (run : Calls → Run (List Value)) (result : Except Fault (List Value)) : Prop :=
  ∃ enough, ∀ n, enough ≤ n → ∃ ended after, (run (calls n)).from? store = (ended, after) ∧
    ended.map (List.map after.contents) = result.mapError Halt.fault

/-- A run that begins with another one yields what the rest of it yields then. -/
theorem yields_bind {α : Type} {store after : Store} {begin' : Run α} {run : Calls → α → Run (List Value)} {a : α}
    {result : Except Fault (List Value)} (begins : begin'.from? store = (.ok a, after)) :
    store.Yields (fun c => begin' >>= run c) result ↔ after.Yields (fun c => run c a) result := by
  simp only [Yields, Run.from?_bind_ok begins]

/-- What agrees with a list of elements, or a fault, has its contents. -/
theorem contents_of_agrees {store : Store} {ended : Except Halt (List Value)} {told : Except Fault (List Item)}
    (agrees : Agrees (store.ShowsAll D) ended told) :
    ended.map (List.map store.contents) = (told.map (List.map Item.contents)).mapError Halt.fault := by
  rcases ended with halt | values <;> rcases told with fault | items
  · obtain rfl : halt = .fault fault := agrees
    rfl
  · exact agrees.elim
  · exact agrees.elim
  · exact congrArg Except.ok (contents_of_showsAll agrees)

/-- A run that gathers as draws do which mirror a tower yields what the tower gathers, and nothing else. -/
theorem yields_iff_gathers {σ : Type} {draw : Nat → σ → Option (Draw × σ)} {state : σ} {tower : Tower}
    {store : Store} {run : Calls → Run (List Value)} {result : Except Fault (List Value)} (deep : Nat)
    (rel : Store → σ → Prop) (mirrors : Tower.Mirrors draw state tower)
    (ends : ∀ n, deep ≤ n → EndsLike (fun last => last.ShowsAll D) rel ((run (calls n)).from? store)
      (gatherBy draw n state [])) :
    store.Yields run result ↔ tower.Gathers result := by
  constructor
  · rintro ⟨enough, yields⟩
    obtain ⟨ended, after, ran, same⟩ := yields (max enough deep) (Nat.le_max_left ..)
    have likewise := ends (max enough deep) (Nat.le_max_right ..)
    rw [ran] at likewise
    rcases gathered : gatherBy draw (max enough deep) state [] with _ | ⟨told, left⟩ <;> rw [gathered] at likewise
    · obtain rfl : ended = .error .outOfFuel := likewise
      rcases result with fault | values <;> cases same
    · obtain ⟨left', below⟩ := mirrors.sinks _ _ _ gathered
      refine ⟨_, told, left', below, ?_⟩
      have contents := (contents_of_agrees likewise.1).symm.trans same
      rcases told with fault | items <;> rcases result with fault' | values
      · exact congrArg Except.error (Halt.fault.inj (Except.error.inj contents))
      · cases contents
      · cases contents
      · exact congrArg Except.ok (Except.ok.inj contents)
  · rintro ⟨n, told, left, gathered, rfl⟩
    obtain ⟨more, rises⟩ := mirrors.rises
    refine ⟨max (n + more) deep, fun m le => ?_⟩
    obtain ⟨left', above⟩ := rises n m told left (by omega) gathered
    have likewise := ends m (by omega)
    rw [above] at likewise
    exact ⟨_, _, rfl, contents_of_agrees likewise.1⟩

/-- All elements of a sequence at its beginning that can be asked are those that its tower gathers. -/
theorem Acts.force {store : Store} {id : SequenceId} {ids : List SequenceId} {tower : Tower} {n : Nat}
    (acts : store.Acts D aside multi n id ids tower) (unstarted : (store.sequence id).started = false) :
    EndsLike (fun last => last.ShowsAll D) (fun last left => last.Awake D aside multi id left ∧ store.Grows last)
      (((calls (n + 1)).force id).from? store) (gatherBy Tower.next (n + 1) tower []) := by
  obtain ⟨more, -, asked⟩ := acts.next
  have drains : ((calls (n + 1)).force id).from? store = ((calls (n + 1)).gather (.sequence id) []).from? store := by
    rw [Calls.force, Run.from?_bind_ok (Run.from?_sequence ..), unstarted]
    rfl
  have draws : ∀ n store tower, store.Awake D aside multi id tower →
      EndsLike (fun after v item => after.Shows D item v)
        (fun after left => after.Awake D aside multi id left ∧ store.Grows after)
        (((calls n).draw (.sequence id)).from? store) (tower.next n) := fun n store tower awake =>
    (next_awake n awake).further fun _ next => ⟨next.1, next.2.grows⟩
  rw [drains]
  refine gather_step _ (asked.awake.further fun _ next => ⟨next.1, next.2.grows⟩)
    (fun after left awake grows v item shows' => ?_) (fun _ _ awake => awake) .nil
  exact gather_likewise _ draws n awake (.cons shows' .nil)

end Store

end FirstSeen
