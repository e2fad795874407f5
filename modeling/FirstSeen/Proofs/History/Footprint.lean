import FirstSeen.Proofs.History.Returning
import FirstSeen.Proofs.Tower.Branching
import FirstSeen.Proofs.Tower.Confining

/-!
# What a pipeline touches

Whatever is asked of a pipeline over data whose openings repeat, and of its streams, is *confined* to what is the
pipeline's own: its sequences, with those that are made when it is built, its streams, and the iterator that it holds.
-/

set_option autoImplicit false

namespace FirstSeen

namespace Store

/-- A store in which a run has moved: it touched nothing but its own, made what it has more, and left each iterator that
it does not hold playing what it played. -/
structure Confined (D : Item → Prop) (ids more : List SequenceId) (own : CursorId → Prop) (before after : Store) : Prop
    extends before.Touches ids own after where
  widens : before.Widens ids more
  plays : ∀ k tape, before.Plays D k tape → ¬ before.HeldBy ids k → after.Plays D k tape ∧ ¬ after.HeldBy more k
  calls : ∀ id, before.callsOf id ≤ after.callsOf id

/-- Whether a sequence, with these sequences below it, stands as a tower or rests before it. -/
def Counts (D : Item → Prop) (aside : Option CursorId) (multi : Bool) (id : SequenceId) (ids : List SequenceId)
    (store : Store) (tower : Tower) : Prop :=
  store.Stands D aside multi id ids tower ∨ store.Rests D aside multi id ids tower ∧ tower.pass = {}

variable {D : Item → Prop} {aside : Option CursorId} {multi : Bool} {id : SequenceId} {ids more : List SequenceId}
  {own : CursorId → Prop} {store after : Store} {tower other : Tower} {k : CursorId} {tape : Tape}

/-! ## Counting as a tower -/

namespace Counts

theorem passes (counts : store.Counts D aside multi id ids tower) : store.Passes D id tower.pass :=
  counts.elim Stands.passes fun rests => rests.1.passes

theorem spared (counts : store.Counts D aside multi id ids tower) (spares : ∀ ids, store.Spares ids after) :
    after.Counts D aside multi id ids tower :=
  counts.imp (fun stands => stands.spared (spares ids)) fun rests => ⟨rests.1.spared (spares ids), rests.2⟩

theorem acts (counts : store.Counts D aside multi id ids tower) {n : Nat} (deep : 4 * tower.height ≤ n) :
    store.Acts D aside multi n id ids tower :=
  counts.elim (fun stands => stands.acts (by omega)) fun rests => rests.1.acts rests.2 deep

theorem setAside (counts : store.Counts D none multi id ids tower) (repeats : tower.Repeats)
    (plays : store.Plays D k tape) (apart : ¬ store.HeldBy ids k) :
    store.Counts D (some k) multi id ids (tower.keeping tape) :=
  counts.imp (fun stands => stands.setAside repeats plays apart) fun rests =>
    ⟨rests.1.setAside repeats plays, by rw [Tower.pass_keeping, rests.2]⟩

theorem plays (counts : store.Counts D (some k) multi id ids tower) : store.Plays D k tower.origin.kept :=
  counts.elim Stands.plays fun rests => rests.1.plays

/-- What is kept aside by a sequence is not held by it. -/
theorem not_heldBy (counts : store.Counts D none multi id ids tower)
    (counts' : store.Counts D (some k) multi id more other) (repeats : other.Repeats) : ¬ store.HeldBy ids k := by
  rcases counts with stands | ⟨rests, -⟩
  · rcases counts' with stands' | ⟨rests', -⟩
    · rw [stands.ids_eq stands']
      exact stands'.not_heldBy repeats
    · -- A sequence that was built does not rest.
      obtain ⟨steps, input, form⟩ := rests'.form
      exact absurd form stands.built
  · exact rests.not_heldBy

theorem plays_held (counts : store.Counts D none multi id ids tower) (held : store.HeldBy ids k) :
    ∃ tape, store.Plays D k tape :=
  counts.elim (fun stands => stands.plays_held held) fun rests => absurd held rests.1.not_heldBy

theorem inside (counts : store.Counts D aside multi id ids tower) : ∀ other ∈ ids, other.index < store.sequences.size :=
  counts.elim Stands.inside fun rests => rests.1.inside

theorem mem (counts : store.Counts D aside multi id ids tower) : id ∈ ids :=
  counts.elim Stands.mem fun rests => rests.1.mem

theorem onward (counts : store.Counts D none multi id ids tower) (repeats : tower.Repeats)
    (undisturbed : store.Undisturbed D ids after) : after.Counts D none multi id ids tower :=
  counts.imp (fun stands => stands.onward repeats undisturbed) fun rests =>
    ⟨rests.1.onward repeats undisturbed, rests.2⟩

end Counts

/-! ## Runs beside a confined one -/

section Beside

variable {others : List SequenceId} (confined : store.Confined D ids more own after)
  (inside : ∀ id ∈ others, id.index < store.sequences.size) (apart : ∀ id ∈ others, id ∉ ids)
  (free : ∀ k, store.HeldBy others k → ¬ store.HeldBy ids k)
include confined inside apart free

/-- Sequences that share nothing with those of a run are not moved by it. -/
theorem Confined.undisturbed : store.Undisturbed D others after :=
  ⟨confined.grows, confined.size, confined.calls,
    fun id member => confined.others id (apart id member) (inside id member),
    fun k tape held plays => (confined.plays k tape plays (free k held)).1⟩

/-- Sequences that share no iterator with those of a run share none with it later. -/
theorem Confined.parted (playing : ∀ k, store.HeldBy others k → ∃ tape, store.Plays D k tape) :
    ∀ k, after.HeldBy others k → ¬ after.HeldBy more k := by
  intro k held
  rw [heldBy_congr fun id member => confined.others id (apart id member) (inside id member)] at held
  obtain ⟨tape, plays⟩ := playing k held
  exact (confined.plays k tape plays (free k held)).2

end Beside

/-! ## Asking -/

/-- Whether a sequence counts as a tower with the sequences that it had and new ones, and only these were touched
since. -/
def Counted (D : Item → Prop) (aside : Option CursorId) (multi : Bool) (id : SequenceId) (ids : List SequenceId)
    (own : CursorId → Prop) (store first : Store) (tower : Tower) : Prop :=
  ∃ more, first.Widens ids more ∧ first.Touches more own store ∧ store.Counts D aside multi id more tower

/-- Whether a sequence stands as a tower with the sequences that it had and new ones, and only these were touched
since. -/
def Stood (D : Item → Prop) (aside : Option CursorId) (multi : Bool) (id : SequenceId) (ids : List SequenceId)
    (own : CursorId → Prop) (store first : Store) (tower : Tower) : Prop :=
  ∃ more, first.Widens ids more ∧ first.Touches more own store ∧ store.Stands D aside multi id more tower

/-- What was made and touched later, by a sequence that stands then. -/
theorem Stood.further {first : Store} (widens : first.Widens ids more) (touches : first.Touches more own store)
    {most : List SequenceId} (widens' : store.Widens more most) (works : store.Works most after)
    (stands : after.Stands D aside multi id most tower) : after.Stood D aside multi id ids own first tower :=
  ⟨most, widens.trans widens' touches.size, (touches.mono widens'.kept).trans works.touches, stands⟩

/-- Whatever is asked of a sequence touches only its own. -/
theorem tracks_touching (first : Store) (id : SequenceId) (ids : List SequenceId) (own : CursorId → Prop) :
    Tracks D multi (fun k => own k ∨ (first.cursor k).isStream = false) id
      (fun store tower => store.Counted D aside multi id ids own first tower)
      (fun store tower => store.Stood D aside multi id ids own first tower) where
  holds := fun ⟨more, widens, touches, stands⟩ => ⟨more, widens, touches, .inl stands⟩
  passes := fun ⟨_, _, _, counts⟩ => counts.passes
  new := by
    rintro store tower ⟨more, widens, touches, counts⟩
    by_contra foreign
    obtain ⟨foreign, stream⟩ := not_or.mp foreign
    have stream : (first.cursor ⟨store.cursors.size⟩).isStream := by simpa using stream
    rw [← touches.streams _ stream foreign] at stream
    exact Nat.lt_irrefl _ (inside_of_isStream stream)
  spared := fun ⟨more, widens, touches, counts⟩ spares still => ⟨more, widens,
    touches.spared spares fun k stream foreign => still k (by simp [stream, foreign]), counts.spared spares⟩
  stays := fun ⟨more, widens, touches, stands⟩ spares still => ⟨more, widens,
    touches.spared spares fun k stream foreign => still k (by simp [stream, foreign]), stands.spared (spares more)⟩
  next := by
    rintro n store tower ⟨more, widens, touches, counts⟩ deep
    obtain ⟨most, widens', asked⟩ := (counts.acts deep).next
    exact asked.like.further fun left ⟨stands, works⟩ => ⟨.further widens touches widens' works stands, works.keeps⟩
  draws := by
    rintro n store tower ⟨more, widens, touches, stands⟩
    exact (next_stands n stands).like.further fun left ⟨stands', works⟩ =>
      ⟨.further widens touches (.refl store more) works stands', works.keeps⟩
  ahead := by
    rintro store tower v item ⟨more, widens, touches, stands⟩ shows'
    exact .further widens touches (.refl store more) (works_updated stands.mem) (stands.ahead shows')
  rewind := by
    rintro n store tower ⟨more, widens, touches, stands | ⟨rests, begun⟩⟩ deep
    · obtain ⟨after, ends, stands', works⟩ := rewind_stands stands deep
      exact ⟨after, ends, ⟨more, widens, touches.trans works.touches, .inl stands'⟩, works.keeps⟩
    · obtain ⟨n, rfl⟩ : ∃ k, n = k + 1 := ⟨n - 1, by have := tower.height_pos; omega⟩
      obtain ⟨steps, input, form⟩ := rests.form
      obtain ⟨after, ends, spares, cursors⟩ := rewind_unbuilt (begun ▸ rests.passes) form n
      have still : ∀ k, after.cursor k = store.cursor k := fun k => by simp only [Store.cursor, cursors]
      rw [(rests.fresh begun).rewind]
      exact ⟨after, ends, ⟨more, widens, touches.spared spares fun k _ _ => still k,
        .inr ⟨rests.spared (spares more), begun⟩⟩, (spares more).grows, fun k _ => still k⟩
  flag := by
    rintro n store tower ⟨more, widens, touches, counts⟩ deep
    obtain ⟨most, after, widens', asked, stands, works⟩ := (counts.acts deep).flag
    exact ⟨after, asked, .further widens touches widens' works stands, works.keeps⟩
  size := by
    rintro n store tower ⟨more, widens, touches, counts⟩ deep
    obtain ⟨most, after, widens', asked, stands, works⟩ := (counts.acts deep).size
    exact ⟨after, asked, .further widens touches widens' works stands, works.keeps⟩

/-- No call is uncounted in a store that remains. -/
theorem Remains.callsOf (remains : store.Remains after) (id : SourceId) : store.callsOf id ≤ after.callsOf id := by
  simp only [Store.callsOf, Store.source, remains.grows.sources]
  exact remains.calls _

end Store

namespace Session

variable {D : Item → Prop} {multi : Bool} {p : SequenceId} {ids : List SequenceId} {session : Session} {scene : Scene}

/-- What comes of an operation on a pipeline is what comes of it on its scene, and the pipeline is confined to its own
thereby. Streams that it has then and had not before were no streams. -/
theorem perform_confined {n : Nat} (op : Op)
    (follows : session.FollowsAs (fun store => store.Counts D none multi p ids) (fun _ => True) p scene)
    (repeats : scene.tower.Repeats) (deep : 4 * scene.tower.height + 2 ≤ n) :
    session.ComesTo (fun after left => ∃ more,
        after.FollowsAs (fun store => store.Counts D none multi p more) (fun _ => True) p left ∧
        session.store.Confined D ids more (· ∈ session.streams) after.store ∧
        ∀ k ∈ after.streams, k ∈ session.streams ∨ (session.store.cursor k).isStream = false)
      (session.perform n p op)
      ((scene.perform multi n op).map fun asked => (Scene.outcome asked.1 asked.2, asked.2)) := by
  let own (k : CursorId) : Prop := k ∈ session.streams ∨ (session.store.cursor k).isStream = false
  -- The pipeline follows its scene with anything kept aside that it does not hold.
  have touching : ∀ {aside : Option CursorId} {tower : Tower}, session.store.Counts D aside multi p ids tower →
      session.FollowsAs (fun store tower =>
        store.Counted D aside multi p ids (· ∈ session.streams) session.store tower) own p ⟨tower, scene.streams⟩ :=
    fun counts => ⟨⟨ids, .refl session.store ids, .refl ids _ session.store, counts⟩, follows.many, follows.apart,
      fun _ member => .inl member, follows.courses⟩
  have performed := (Store.tracks_touching session.store p ids (· ∈ session.streams)).perform op
    (touching follows.holds) deep
  rcases told : scene.perform multi n op with _ | ⟨answer, left⟩ <;> rw [told] at performed
  · exact performed
  · obtain ⟨after, ends, follows', grows⟩ := performed
    obtain ⟨more, widens, touches, counts⟩ := follows'.holds
    have led : Store.Led multi .abstract ⟨0⟩ .null p session.store after.store := led_perform ends
    refine ⟨after, ends, ⟨more, { follows' with holds := counts, own := fun _ _ => trivial },
      ⟨widens.touches touches, widens, fun k tape plays apart => ?_, led.1.callsOf⟩, follows'.own⟩, grows⟩
    have performed := (Store.tracks_touching session.store p ids (· ∈ session.streams)).perform op
      (touching (follows.holds.setAside repeats plays apart)) (by simpa using deep)
    obtain ⟨left', told', follows''⟩ := performed.some ends
    obtain ⟨⟨answer', last⟩, asked, same⟩ := Option.map_eq_some_iff.mp told'
    obtain rfl : last = left' := congrArg Prod.snd same
    obtain ⟨more', -, -, aside⟩ := follows''.holds
    have keeps := Scene.perform_keeps (Tower.steady_keepsAside tape) (repeats.keepsAside tape) asked
    exact ⟨keeps.2 ▸ aside.plays, counts.not_heldBy aside keeps.1⟩

end Session

end FirstSeen
