import FirstSeen.Proofs.Deepening
import FirstSeen.Proofs.History.Grove
import FirstSeen.Proofs.History.Interleaving
import FirstSeen.Proofs.History.Yielding
import FirstSeen.Proofs.Tower.Branching
import FirstSeen.Proofs.Tower.Restarting
import FirstSeen.Proofs.Tower.Tracing

/-!
# Sequences that are lent to runs

A pipeline without an input can be run on a sequence: collected, or drawn from as a stream. Each run takes the sequence
back to its beginning if it was started, and puts its own layers upon it. A stream that was begun keeps its layers, and
goes on drawing through them from wherever the sequence is then, whoever else has asked it in the meantime.

So after any errands a lent sequence is somewhere between its beginning and its end, and the streams stand on it. Nothing
else was touched, and the sequence can be taken back and is at its beginning unless it was started.
-/

set_option autoImplicit false

namespace FirstSeen

/-! ## Errands -/

/-- What may happen to a sequence that is lent to runs. The streams on it are numbered. -/
inductive Errand where
  /-- The sequence is asked. -/
  | ask (op : Op)
  /-- A pipeline is collected on the sequence. -/
  | collect (u : SequenceId)
  /-- A stream of a pipeline on the sequence is made. -/
  | stream (u : SequenceId)
  /-- A stream is asked for its next element. It is consumed by asking it again and again. -/
  | pull (i : Nat)

namespace Errand

/-- The pipeline that is run. -/
def pipeline? : Errand → Option SequenceId
  | collect u | stream u => some u
  | ask _ | pull _ => none

/-- What is run for an errand. It gives the streams that there are then. -/
def run (c : Calls) (s : SequenceId) (streams : List CursorId) : Errand → Run (List CursorId)
  | ask op => do
    let _ ← op.run c s []
    return streams
  | collect u => do
    let _ ← c.collect u (.ofSequence s)
    return streams
  | stream u => do return streams ++ [← Run.newStream u (.ofSequence s)]
  | pull i =>
    match streams[i]? with
    | some k => do
      let _ ← c.advance k
      return streams
    | none => return streams

end Errand

namespace Session

/-- Runs an errand on a sequence, unless it is out of fuel. Of a fault nothing but the store is left. -/
def serve (n : Nat) (s : SequenceId) (errand : Errand) (session : Session) : Option Session :=
  match (errand.run (calls n) s session.streams).from? session.store with
  | (.error .outOfFuel, _) => none
  | (.error (.fault _), after) => some ⟨after, session.streams⟩
  | (.ok streams, after) => some ⟨after, streams⟩

/-- Runs errands in turn. -/
def serveAll (n : Nat) (s : SequenceId) : List Errand → Session → Option Session
  | [], session => some session
  | errand :: rest, session => (session.serve n s errand).bind (serveAll n s rest)

end Session

namespace Calls

/-- What may be asked of a sequence ends as it does with wider operations. -/
theorem widens_op (op : Op) (p : SequenceId) (streams : List CursorId) : Widens (op.run · p streams) := by
  intro c wider within
  cases op with
  | next => exact (within.next p).bind fun _ => Run.within_refl _
  | peek => exact (within.peek p).bind fun _ => Run.within_refl _
  | rewind => exact (within.rewind p).bind fun _ => Run.within_refl _
  | force => exact (within.force p).bind fun _ => Run.within_refl _
  | collect => exact (within.collect p .null).bind fun _ => Run.within_refl _
  | size => exact (within.size p).bind fun _ => Run.within_refl _
  | multiValue => exact (within.isMulti p).bind fun _ => Run.within_refl _
  | stream => exact Run.within_refl _
  | pull i =>
    simp only [Op.run]
    split
    · exact (within.advance _).bind fun _ => Run.within_refl _
    · exact Run.within_refl _
  | drain i =>
    simp only [Op.run]
    split
    · exact (within.listOf _).bind fun _ => Run.within_refl _
    · exact Run.within_refl _

/-- An errand ends as it does with wider operations. -/
theorem widens_errand (errand : Errand) (s : SequenceId) (streams : List CursorId) :
    Widens (errand.run · s streams) := by
  intro c wider within
  cases errand with
  | ask op => exact (widens_op op s [] c wider within).bind fun _ => Run.within_refl _
  | collect u => exact (within.collect u (.ofSequence s)).bind fun _ => Run.within_refl _
  | stream u => exact Run.within_refl _
  | pull i =>
    simp only [Errand.run]
    split
    · exact (within.advance _).bind fun _ => Run.within_refl _
    · exact Run.within_refl _

end Calls

namespace Store

variable {D : Item → Prop} {aside : Option CursorId} {multi : Bool}

/-! ## Building on a sequence -/

/-- Whether a sequence is a pipeline without an input that covers these leaves. -/
structure Serves (D : Item → Prop) (multi : Bool) (store : Store) (u : SequenceId) (leaves : List Value) : Prop where
  inside : u.index < store.sequences.size
  form : ∃ steps kept, (store.sequence u).body = .pipeline steps .null kept ∧ steps.index < store.lists.size ∧
    store.Covers D multi (store.list steps) leaves

/-- A pipeline goes on serving while no pipeline changes. -/
theorem Serves.later {store after : Store} {u : SequenceId} {leaves : List Value}
    (serves : store.Serves D multi u leaves) (grows : store.Grows after)
    (size : store.sequences.size ≤ after.sequences.size)
    (same : ∀ p : SequenceId, p.index < store.sequences.size → (store.sequence p).body.kind = .pipeline →
      after.sequence p = store.sequence p) : after.Serves D multi u leaves := by
  obtain ⟨inside, steps, kept, form, listed, covers⟩ := serves
  have there := same u inside (by rw [form]; rfl)
  obtain ⟨more, lists⟩ := grows.lists
  refine ⟨Nat.lt_of_lt_of_le inside size, steps, kept, there ▸ form, by rw [lists, Array.size_append]; omega, ?_⟩
  rw [grows.list listed]
  exact covers.later grows size same

/-- The rules of a pipeline stay as they are while the store grows. -/
theorem Serves.rules {store after : Store} {u : SequenceId} {leaves : List Value}
    (serves : store.Serves D multi u leaves) (grows : store.Grows after) :
    leaves.map (after.ruleOfStep multi) = leaves.map (store.ruleOfStep multi) := by
  obtain ⟨-, steps, kept, -, -, covers⟩ := serves
  exact List.map_congr_left fun leaf member => (grows.soundStep (covers.sound leaf member)).2

/-- A sequence that stands alone is no pipeline. -/
theorem Stands.not_pipeline {store : Store} {s : SequenceId} {tower : Tower}
    (stands : store.Stands D aside multi s [s] tower) : (store.sequence s).body.kind ≠ .pipeline := by
  generalize alone : [s] = ids at stands
  cases stands with
  | ground passes flag backs =>
    have ground := backs.ground
    cases form : (store.sequence s).body <;> simp [form, Body.isGround, Body.kind] at ground ⊢
  | passage passes body bound apart rest =>
    obtain ⟨-, rfl⟩ := List.cons.inj alone
    exact absurd rest.mem List.not_mem_nil
  | filter passes flag body sound data rule_eq apart rest =>
    obtain ⟨-, rfl⟩ := List.cons.inj alone
    exact absurd rest.mem List.not_mem_nil

/-- What is done with a sequence that stands alone changes no pipeline. -/
theorem Stands.works_pipelines {store after : Store} {s : SequenceId} {tower : Tower}
    (stands : store.Stands D aside multi s [s] tower) (works : store.Works [s] after) {p : SequenceId}
    (inside : p.index < store.sequences.size) (form : (store.sequence p).body.kind = .pipeline) :
    after.sequence p = store.sequence p :=
  works.others p (fun member => stands.not_pipeline (List.mem_singleton.mp member ▸ form)) inside

/-- A sequence that can be taken back to its beginning is taken back in the same way at each depth that is enough. -/
theorem Stands.restarted {store : Store} {id : SequenceId} {ids : List SequenceId} {tower start : Tower}
    (stands : store.Stands D aside multi id ids tower) (restarts : tower.restart = (none, start)) :
    ∃ begun, (∀ n, tower.height ≤ n →
      (if (store.sequence id).started then (calls n).rewind id else pure ()).from? store = (.ok (), begun)) ∧
      begun.Stands D aside multi id ids start ∧ store.Works ids begun := by
  obtain ⟨begun, begins, ⟨stands', works⟩, -⟩ := (tracks_stands store id ids).restart ⟨stands, .refl ids store⟩
    (n := tower.height) (Nat.le_refl _)
  rw [restarts] at begins stands'
  refine ⟨begun, fun n deep => ?_, stands', works⟩
  have within : (if (store.sequence id).started then (calls tower.height).rewind id else pure ()).Within
      (if (store.sequence id).started then (calls n).rewind id else pure ()) :=
    ((Calls.within_calls deep).rewind id).ite (Run.within_refl _)
  exact within.ends (.ok ()) begins

/-- A pipeline that is run on a sequence takes it back if it was started, and applies its steps. -/
theorem from?_buildFor_sequence {c : Calls} {store : Store} {u s : SequenceId} {steps : ListId} {kept : Value}
    (form : (store.sequence u).body = .pipeline steps .null kept) :
    (c.buildFor u (.ofSequence s)).from? store =
      ((if (store.sequence s).started then c.rewind s else pure ()) >>= fun _ => do
        c.applyAll (← Run.list steps) (.ofSequence s)).from? store := by
  have given : (Run.toSequence (.ofSequence s) (.bool (store.sequence u).multiValue)).from? store = (.ok s, store) := rfl
  rw [from?_buildFor_given form rfl, Calls.build, Run.from?_bind_ok given, Run.from?_bind_ok (Run.from?_sequence ..)]
  split <;> rfl

/-- A pipeline that is run on a sequence takes it back to its beginning and puts new layers upon it, given enough calls. -/
theorem Serves.builds {store : Store} {u s : SequenceId} {leaves : List Value} {tower start : Tower}
    (serves : store.Serves D multi u leaves) (stands : store.Stands D aside multi s [s] tower)
    (restarts : tower.restart = (none, start)) :
    ∃ depth, ∀ n, depth ≤ n → ∃ top layers built,
      ((calls n).buildFor u (.ofSequence s)).from? store = (.ok (.ofSequence top), built) ∧
      built.Stands D aside multi top (layers ++ [s]) (.filters (leaves.map (store.ruleOfStep multi)) start) ∧
      (Tower.filters (leaves.map (store.ruleOfStep multi)) start).beneath layers.length = start ∧
      (∀ layer ∈ layers, store.sequences.size ≤ layer.index) ∧ store.Works [s] built := by
  obtain ⟨begun, begins, stands', works⟩ := stands.restarted restarts
  have rules := serves.rules works.grows
  obtain ⟨inside, steps, kept, form, listed, covers⟩ := serves
  have covers' := covers.later works.grows works.size fun p => stands.works_pipelines works
  obtain ⟨depth, applied⟩ := covers'.applied aside
  refine ⟨depth + tower.height + start.height, fun n deep => ?_⟩
  obtain ⟨top, layers, built, ends, enlarges, new, stands''⟩ :=
    applied begun s [s] start n (Enlarges.refl begun).retains stands' (by omega)
  rw [rules] at stands''
  have many : layers.length = (leaves.map (store.ruleOfStep multi)).length := by
    have alone := stands'.length
    have all := stands''.length
    rw [List.length_append, Tower.height_filters, ← alone] at all
    exact Nat.add_right_cancel all
  refine ⟨top, layers, built, ?_, stands'', by rw [many, Plot.beneath_filters],
    fun layer member => Nat.le_trans works.size (new layer member), works.trans (enlarges.works [s])⟩
  rw [from?_buildFor_sequence form, Run.from?_bind_ok (begins n (by omega)), Run.from?_bind_ok (Run.from?_list ..),
    works.grows.list listed]
  exact ends

/-! ## What a lent sequence is -/

variable (D aside multi) in
/-- Whether a stream of a pipeline on a lent sequence was not begun, or has layers of its own on the sequence. -/
inductive Borrows (store first : Store) (s : SequenceId) (k : CursorId) : List SequenceId → Prop
  | fresh {u : SequenceId} {leaves : List Value} (here : store.cursor k = .streaming u (.ofSequence s) .fresh)
      (serves : first.Serves D multi u leaves) : Borrows store first s k []
  | begun {u out : SequenceId} {layers : List SequenceId} {scene : Scene}
      (streams : store.Streams D aside multi k u (.ofSequence s) out (layers ++ [s]) scene) : Borrows store first s k layers

variable (D aside multi) in
/-- Whether a sequence stands alone, can be taken back to its beginning, and is there unless it was started. -/
def Lendable (s : SequenceId) (start : Tower) (store : Store) : Prop :=
  ∃ tower, store.Stands D aside multi s [s] tower ∧ Tower.Returns start tower ∧ Tower.CameFrom start tower

variable (D aside multi) in
/-- Whether a sequence is lent to streams, which have these layers on it, and nothing else was touched since a store. -/
structure Lent (first : Store) (s : SequenceId) (start : Tower) (layers : CursorId → List SequenceId)
    (session : Session) : Prop where
  ground : (first.sequence s).body.kind ≠ .pipeline
  touches : first.Touches [s] (fun _ => True) session.store
  lendable : session.store.Lendable D aside multi s start
  borrows : ∀ k ∈ session.streams, session.store.Borrows D aside multi first s k (layers k)
  new : ∀ k ∈ session.streams, ∀ layer ∈ layers k, first.sequences.size ≤ layer.index
  apart : ∀ k ∈ session.streams, ∀ other ∈ session.streams, other ≠ k → ∀ layer ∈ layers k, layer ∉ layers other

section Borrowing

variable {first store after : Store} {s : SequenceId} {k : CursorId} {layers ids : List SequenceId}
  {own : CursorId → Prop} {base : Tower}

/-- A stream that was left alone has its layers on what the chain below them has become. -/
theorem Streams.graft {u out : SequenceId} {d : Value} {scene : Scene}
    (streams : store.Streams D aside multi k u d out (layers ++ [s]) scene) (below : after.Stands D aside multi s [s] base)
    (grows : store.Grows after) (size : store.sequences.size ≤ after.sequences.size)
    (same : ∀ layer ∈ layers, after.sequence layer = store.sequence layer) (still : after.cursor k = store.cursor k) :
    after.Streams D aside multi k u d out (layers ++ [s]) { scene with tower := scene.tower.graft layers.length base } := by
  cases streams with
  | drawing here stands => exact .drawing (still ▸ here) (stands.graft below grows size same)
  | spent here stands => exact .spent (still ▸ here) (stands.graft below grows size same)

/-- Below the layers of a stream there is its sequence. -/
theorem Streams.beneath {u out : SequenceId} {d : Value} {scene : Scene}
    (streams : store.Streams D aside multi k u d out (layers ++ [s]) scene) :
    store.Stands D aside multi s [s] (scene.tower.beneath layers.length) ∧ layers.length < scene.tower.height := by
  cases streams <;> exact Stands.beneath ‹_›

theorem Borrows.isStream (borrows : store.Borrows D aside multi first s k layers) : (store.cursor k).isStream := by
  cases borrows with
  | fresh here serves =>
    rw [here]
    rfl
  | begun streams => cases streams <;> rename_i here stands <;> rw [here] <;> rfl

/-- The layers of a stream stand on the sequence. -/
theorem Borrows.layered (borrows : store.Borrows D aside multi first s k layers) :
    ∀ layer ∈ layers, layer ≠ s ∧ layer.index < store.sequences.size := by
  cases borrows with
  | fresh here serves => simp
  | begun streams =>
    have standing : ∃ id tower, store.Stands D aside multi id (layers ++ [s]) tower := by
      cases streams <;> exact ⟨_, _, ‹_›⟩
    obtain ⟨id, tower, stands⟩ := standing
    intro layer member
    refine ⟨fun same => ?_, stands.inside layer (List.mem_append_left _ member)⟩
    exact (List.nodup_append.mp stands.nodup).2.2 layer member s (List.mem_singleton.mpr rfl) same

/-- A stream that was left alone has its layers on what the sequence has become. -/
theorem Borrows.moved (borrows : store.Borrows D aside multi first s k layers) (touches : store.Touches ids own after)
    (below : after.Stands D aside multi s [s] base) (free : ¬ own k) (apart : ∀ layer ∈ layers, layer ∉ ids) :
    after.Borrows D aside multi first s k layers := by
  have still := touches.streams k borrows.isStream free
  have layered := borrows.layered
  have same : ∀ layer ∈ layers, after.sequence layer = store.sequence layer := fun layer member =>
    touches.others layer (apart layer member) (layered layer member).2
  cases borrows with
  | fresh here serves => exact .fresh (still ▸ here) serves
  | begun streams => exact .begun (streams.graft below touches.grows touches.size same still)

/-- What was added since does not count as touched. -/
theorem Touches.beyond (touches : first.Touches [s] (fun _ => True) store) (next : store.Touches (layers ++ [s]) own after)
    (new : ∀ layer ∈ layers, first.sequences.size ≤ layer.index) : first.Touches [s] (fun _ => True) after := by
  refine ⟨touches.grows.trans next.grows, Nat.le_trans touches.size next.size, fun other different inside => ?_,
    fun _ _ free => absurd trivial free⟩
  have untouched : other ∉ layers ++ [s] := fun member => (List.mem_append.mp member).elim
    (fun member => absurd inside (Nat.not_lt.mpr (new other member))) different
  rw [next.others other untouched (Nat.lt_of_lt_of_le inside touches.size), touches.others other different inside]

end Borrowing

/-! ## What an errand leaves -/

section Leaving

variable {first after : Store} {session : Session} {s u : SequenceId} {start : Tower} {layers : CursorId → List SequenceId}
  {leaves : List Value}

/-- What is new in a store was not among its streams. -/
theorem Lent.unused (lent : Lent D aside multi first s start layers session) :
    ⟨session.store.cursors.size⟩ ∉ session.streams := fun member =>
  absurd (inside_of_isStream (lent.borrows _ member).isStream) (Nat.lt_irrefl _)

/-- Pipelines serve as they did. -/
theorem Lent.serves (lent : Lent D aside multi first s start layers session) (serves : first.Serves D multi u leaves) :
    session.store.Serves D multi u leaves :=
  serves.later lent.touches.grows lent.touches.size fun p inside form => lent.touches.others p
    (fun member => lent.ground (List.mem_singleton.mp member ▸ form)) inside

/-- A lent sequence stays lent when one stream, or none, is asked with layers of its own. -/
theorem Lent.step {k : CursorId} {streams : List CursorId} (lent : Lent D aside multi first s start layers session)
    (own : List SequenceId) (touches : session.store.Touches (own ++ [s]) (· = k) after)
    (lendable : after.Lendable D aside multi s start) (among : ∀ other ∈ streams, other ∈ session.streams ∨ other = k)
    (borrows : k ∈ streams → after.Borrows D aside multi first s k own)
    (new : ∀ layer ∈ own, (k ∈ session.streams ∧ layer ∈ layers k) ∨ session.store.sequences.size ≤ layer.index) :
    Lent D aside multi first s start (Function.update layers k own) ⟨after, streams⟩ := by
  obtain ⟨tower, stands, -⟩ := id lendable
  have old : ∀ other ∈ streams, other ≠ k → other ∈ session.streams := fun other member different =>
    (among other member).resolve_right different
  -- The layers of the other streams are none of those that were touched.
  have apart : ∀ other ∈ session.streams, other ≠ k → ∀ layer ∈ layers other, layer ∉ own := by
    intro other member different layer here there
    rcases new layer there with ⟨member', shared⟩ | outside
    · exact lent.apart other member k member' different.symm layer here shared
    · exact absurd ((lent.borrows other member).layered layer here).2 (Nat.not_lt.mpr outside)
  have late : ∀ layer ∈ own, first.sequences.size ≤ layer.index := fun layer member =>
    (new layer member).elim (fun ⟨member', here⟩ => lent.new k member' layer here) (Nat.le_trans lent.touches.size)
  refine ⟨lent.ground, lent.touches.beyond touches late, lendable, fun other member => ?_,
    fun other member layer here => ?_, fun one member other member' different layer here => ?_⟩
  · by_cases same : other = k
    · subst same
      rw [Function.update_self]
      exact borrows member
    · rw [Function.update_of_ne same]
      have there := lent.borrows other (old other member same)
      refine there.moved touches stands same fun layer here beneath => ?_
      exact (List.mem_append.mp beneath).elim (apart other (old other member same) same layer here)
        fun bottom => (there.layered layer here).1 (List.mem_singleton.mp bottom)
  · by_cases same : other = k
    · subst same
      rw [Function.update_self] at here
      exact late layer here
    · rw [Function.update_of_ne same] at here
      exact lent.new other (old other member same) layer here
  · by_cases same : one = k
    · subst same
      rw [Function.update_self] at here
      rw [Function.update_of_ne different]
      exact fun there => apart other (old other member' different) different layer there here
    · rw [Function.update_of_ne same] at here
      by_cases same' : other = k
      · subst same'
        rw [Function.update_self]
        exact apart one (old one member same) same layer here
      · rw [Function.update_of_ne same']
        exact lent.apart one (old one member same) other (old other member' same') different layer here

/-- A lent sequence stays lent when no stream is asked, and layers on it are given up again. -/
theorem Lent.onward (lent : Lent D aside multi first s start layers session) (own : List SequenceId)
    (works : session.store.Works (own ++ [s]) after) (lendable : after.Lendable D aside multi s start)
    (new : ∀ layer ∈ own, session.store.sequences.size ≤ layer.index) :
    ∃ layers, Lent D aside multi first s start layers ⟨after, session.streams⟩ :=
  ⟨_, lent.step (k := ⟨session.store.cursors.size⟩) own works.touches lendable (fun _ member => .inl member)
    (fun member => absurd member lent.unused) fun layer member => .inr (new layer member)⟩

end Leaving

end Store

/-! ## Serving -/

namespace Session

variable {n m : Nat} {s : SequenceId} {errand : Errand} {session after : Session}

/-- Of an errand that asks for one thing, and makes no stream, the store is left that this leaves. -/
theorem serve_left {α : Type} (operation : Run α)
    (form : errand.run (calls n) s session.streams = (do let _ ← operation; return session.streams))
    (served : session.serve n s errand = some after) :
    after = ⟨(operation.from? session.store).2, session.streams⟩ ∧
      (operation.from? session.store).1 ≠ .error .outOfFuel := by
  rw [serve, form, Run.from?_bind] at served
  rcases result : operation.from? session.store with ⟨(fault | _) | answer, left⟩ <;> rw [result] at served <;>
    cases served <;> exact ⟨rfl, by simp⟩

/-- What is left of an errand is left of it at any greater depth. -/
theorem serve_deepen (served : session.serve n s errand = some after) (deep : n ≤ m) :
    session.serve m s errand = some after := by
  rcases Calls.widens_errand errand s session.streams _ _ (Calls.within_calls deep) session.store with short | same
  · rw [serve] at served
    rcases result : (errand.run (calls n) s session.streams).from? session.store with ⟨ended, left⟩
    rw [result] at served short
    obtain rfl : ended = .error .outOfFuel := short
    cases served
  · rw [serve, same]
    exact served

end Session

namespace Store

variable {D : Item → Prop} {aside : Option CursorId} {multi : Bool}

/-- What was not out of fuel ended as a step did. -/
theorem EndsLike.ended {α β σ : Type} {tells : Store → α → β → Prop} {rel : Store → σ → Prop}
    {ending : Except Halt α × Store} {told : Option (Except Fault β × σ)} (ends : EndsLike tells rel ending told)
    (enough : ending.1 ≠ .error .outOfFuel) : ∃ answer left, told = some (answer, left) ∧ rel ending.2 left := by
  rcases told with _ | ⟨answer, left⟩
  · exact absurd ends enough
  · exact ⟨answer, left, rfl, ends.2⟩

section Errands

variable {first : Store} {session after : Session} {s u : SequenceId} {start : Tower} {layers : CursorId → List SequenceId}
  {leaves : List Value} {n : Nat} (fresh : start.Fresh) (lent : Lent D aside multi first s start layers session)
include fresh lent

omit lent in
/-- A sequence that is lent is back at its beginning when a pipeline is run on it. -/
theorem Lendable.restart {store : Store} (lendable : store.Lendable D aside multi s start) :
    ∃ tower, store.Stands D aside multi s [s] tower ∧ tower.restart = (none, start) ∧
      Tower.Returns start start ∧ Tower.CameFrom start start := by
  obtain ⟨tower, stands, returns, came⟩ := lendable
  have restarts : tower.restart = (none, start) := came.restart fun _ => by rw [returns.rewind]
  have begun := ((Tower.steady_returns start).and (Tower.steady_cameFrom fresh)).restart ⟨returns, came⟩
  rw [restarts] at begun
  exact ⟨tower, stands, restarts, begun⟩

/-- A lent sequence may be asked itself. -/
theorem Lent.asked {op : Op} (served : session.serve n s (.ask op) = some after) :
    ∃ layers, Lent D aside multi first s start layers after := by
  have steady := (Tower.steady_returns start).and (Tower.steady_cameFrom fresh)
  obtain ⟨tower, stands, kept⟩ := lent.lendable
  let deep := max n (4 * start.height + 2)
  obtain ⟨rfl, enough⟩ := Session.serve_left (op.run (calls deep) s []) rfl
    (Session.serve_deepen served (Nat.le_max_left ..))
  have visits : ∃ seen, session.store.visit deep ⟨s, [op]⟩ =
      some (seen, ((op.run (calls deep) s []).from? session.store).2) := by
    simp only [visit, Session.play, Session.perform]
    rcases result : (op.run (calls deep) s []).from? session.store with ⟨halt | answer, left⟩
    · rw [result] at enough
      cases halt with
      | outOfFuel => exact absurd rfl enough
      | fault fault => exact ⟨_, rfl⟩
    · exact ⟨_, rfl⟩
  obtain ⟨seen, visits⟩ := visits
  obtain ⟨other, stands', -, kept', works⟩ := stands.visited_keeps steady (by
    rw [kept.1.height]
    exact Nat.le_max_right ..) kept visits
  exact lent.onward [] works ⟨other, stands', kept'⟩ (by simp)

/-- A pipeline may be collected on a lent sequence. -/
theorem Lent.collected (serves : first.Serves D multi u leaves) (served : session.serve n s (.collect u) = some after) :
    ∃ layers, Lent D aside multi first s start layers after := by
  have steady := (Tower.steady_returns start).and (Tower.steady_cameFrom fresh)
  obtain ⟨tower, stands, restarts, begun⟩ := lent.lendable.restart fresh
  obtain ⟨depth, builds⟩ := (lent.serves serves).builds stands restarts
  obtain ⟨m, le, deep, deep'⟩ : ∃ m, n ≤ m ∧ depth ≤ m ∧ 4 * (leaves.length + start.height) + 1 ≤ m :=
    ⟨n + depth + (4 * (leaves.length + start.height) + 1), by omega, by omega, by omega⟩
  obtain ⟨top, own, built, ends, stands', bottom, new, works⟩ := builds m deep
  obtain ⟨rfl, enough⟩ := Session.serve_left ((calls m).collect u (.ofSequence s)) rfl
    (Session.serve_deepen served le)
  have collects : ((calls m).collect u (.ofSequence s)).from? session.store = ((calls m).force top).from? built := by
    rw [Calls.collect]
    exact Run.from?_bind_ok ends
  rw [collects] at enough ⊢
  obtain ⟨answer, left, told, ⟨stands'', works'⟩, -⟩ := ((tracks_stands built top (own ++ [s])).force
    ⟨stands', .refl _ built⟩ (by simpa using deep')).ended enough
  have kept := (steady.beneath own.length).force (bottom.symm ▸ begun) told
  exact lent.onward _ ((works.mono (by simp)).trans works') ⟨_, stands''.beneath.1, kept⟩ new

omit fresh in
/-- A stream on a lent sequence may be made. -/
theorem Lent.streamed (serves : first.Serves D multi u leaves) (served : session.serve n s (.stream u) = some after) :
    ∃ layers, Lent D aside multi first s start layers after := by
  let made : Store := { session.store with cursors := session.store.cursors.push (.streaming u (.ofSequence s) .fresh) }
  let k : CursorId := ⟨session.store.cursors.size⟩
  obtain rfl : (⟨made, session.streams ++ [k]⟩ : Session) = after := Option.some.inj served
  have spares := spares_push session.store (.streaming u (.ofSequence s) .fresh)
  obtain ⟨tower, stands, kept⟩ := lent.lendable
  have touches : session.store.Touches ([] ++ [s]) (· = k) made := (Touches.refl _ _ _).spared spares fun _ stream _ =>
    cursor_push_of_lt (inside_of_isStream stream)
  exact ⟨_, lent.step (k := k) [] touches ⟨tower, stands.spared (spares _), kept⟩
    (fun other member => (List.mem_append.mp member).imp_right List.mem_singleton.mp)
    (fun _ => .fresh (cursor_push ..) serves) (by simp)⟩

omit fresh in
/-- A stream on a lent sequence goes on being one when it is asked, with the sequence below its layers. -/
theorem Lent.moved {k : CursorId} {out : SequenceId} {own : List SequenceId} {left : Store} {scene : Scene}
    (member : k ∈ session.streams) (streams : left.Streams D aside multi k u (.ofSequence s) out (own ++ [s]) scene)
    (kept : Tower.Returns start (scene.tower.beneath own.length) ∧ Tower.CameFrom start (scene.tower.beneath own.length))
    (touches : session.store.Touches (own ++ [s]) (· = k) left)
    (new : ∀ layer ∈ own, layer ∈ layers k ∨ session.store.sequences.size ≤ layer.index) :
    ∃ layers, Lent D aside multi first s start layers ⟨left, session.streams⟩ :=
  ⟨_, lent.step _ touches ⟨_, streams.beneath.1, kept⟩ (fun _ member => .inl member) (fun _ => .begun streams)
    fun layer here => (new layer here).imp_left fun here => ⟨member, here⟩⟩

/-- A stream that has layers of its own may be drawn from. -/
theorem Lent.drawn {k : CursorId} {out : SequenceId} {own : List SequenceId} {scene : Scene}
    (member : k ∈ session.streams) (held : layers k = own)
    (streams : session.store.Streams D aside multi k u (.ofSequence s) out (own ++ [s]) scene)
    (enough : (((calls n).advance k).from? session.store).1 ≠ .error .outOfFuel) :
    ∃ layers, Lent D aside multi first s start layers
      ⟨(((calls n).advance k).from? session.store).2, session.streams⟩ := by
  have steady := (Tower.steady_returns start).and (Tower.steady_cameFrom fresh)
  -- What is below the layers is wherever the sequence is.
  obtain ⟨base, below, kept⟩ := lent.lendable
  have streams' := streams.graft below (.refl _) (Nat.le_refl _) (fun _ _ => rfl) rfl
  obtain ⟨answer, left, told, streams'', touches⟩ := (advance_streams n streams').ended enough
  have kept' := Scene.advance_keeps (steady.beneath own.length) (by rwa [Tower.beneath_graft streams.beneath.2]) told
  exact lent.moved member streams'' kept' touches fun layer here => .inl (held ▸ here)

/-- A stream that was not begun may be drawn from: it puts layers of its own on the sequence, which is taken back first. -/
theorem Lent.begun {k : CursorId} (member : k ∈ session.streams)
    (here : session.store.cursor k = .streaming u (.ofSequence s) .fresh) (serves : first.Serves D multi u leaves) :
    ∃ depth, ∀ m, depth ≤ m → (((calls (m + 1)).advance k).from? session.store).1 ≠ .error .outOfFuel →
      ∃ layers, Lent D aside multi first s start layers
        ⟨(((calls (m + 1)).advance k).from? session.store).2, session.streams⟩ := by
  have steady := (Tower.steady_returns start).and (Tower.steady_cameFrom fresh)
  let running := session.store.withStream k u (.ofSequence s) .running
  have stream : (session.store.cursor k).isStream := by rw [here]; rfl
  have spares := spares_withStream u (.ofSequence s) .running stream
  obtain ⟨base, below, restarts, begun⟩ := lent.lendable.restart fresh
  have serves' : running.Serves D multi u leaves :=
    (lent.serves serves).later (spares []).grows (Nat.le_refl _) fun _ _ _ => rfl
  obtain ⟨depth, builds⟩ := serves'.builds (below.spared (spares _)) restarts
  refine ⟨depth, fun m deep enough => ?_⟩
  obtain ⟨out, own, built, ends, stands, bottom, new, works⟩ := builds m deep
  obtain ⟨answer, left, told, streams, touches⟩ := (advance_begins m here rfl ends (works.mono (by simp)) stands
    (Tower.fresh_filters fresh).pass).ended enough
  have kept := Scene.advance_keeps (steady.beneath own.length) (bottom.symm ▸ begun) told
  exact lent.moved member streams kept touches fun layer here => .inr (new layer here)

/-- A stream on a lent sequence may be asked. -/
theorem Lent.pulled {i : Nat} (served : session.serve n s (.pull i) = some after) :
    ∃ layers, Lent D aside multi first s start layers after := by
  rcases found : session.streams[i]? with _ | k
  · -- There is no such stream.
    rw [Session.serve, Errand.run, found] at served
    cases served
    exact ⟨layers, lent⟩
  have member := List.mem_of_getElem? found
  have form : ∀ m, Errand.run (calls m) s session.streams (.pull i) =
      (do let _ ← (calls m).advance k; return session.streams) := fun m => by rw [Errand.run, found]
  have borrows := lent.borrows k member
  generalize held : layers k = own at borrows
  cases borrows with
  | begun streams =>
    obtain ⟨rfl, enough⟩ := Session.serve_left _ (form n) served
    exact lent.drawn fresh member held streams enough
  | fresh here serves =>
    obtain ⟨depth, begins⟩ := lent.begun fresh member here serves
    have deep := Session.serve_deepen served (Nat.le_succ_of_le (Nat.le_max_left n depth))
    obtain ⟨rfl, enough⟩ := Session.serve_left _ (form (max n depth + 1)) deep
    exact begins _ (Nat.le_max_right ..) enough

/-- A lent sequence stays lent through an errand. -/
theorem Lent.served {errand : Errand}
    (serves : ∀ u, errand.pipeline? = some u → ∃ leaves, first.Serves D multi u leaves)
    (served : session.serve n s errand = some after) : ∃ layers, Lent D aside multi first s start layers after := by
  cases errand with
  | ask op => exact lent.asked fresh served
  | collect u =>
    obtain ⟨leaves, serves⟩ := serves u rfl
    exact lent.collected fresh serves served
  | stream u =>
    obtain ⟨leaves, serves⟩ := serves u rfl
    exact lent.streamed serves served
  | pull i => exact lent.pulled fresh served

/-- A lent sequence stays lent through errands in turn. -/
theorem Lent.servedAll {errands : List Errand}
    (serves : ∀ errand ∈ errands, ∀ u, errand.pipeline? = some u → ∃ leaves, first.Serves D multi u leaves)
    (served : session.serveAll n s errands = some after) : ∃ layers, Lent D aside multi first s start layers after := by
  induction errands generalizing session layers with
  | nil =>
    cases served
    exact ⟨layers, lent⟩
  | cons errand rest ih =>
    rw [List.forall_mem_cons] at serves
    obtain ⟨between, one, others⟩ := Option.bind_eq_some_iff.mp served
    obtain ⟨layers', lent'⟩ := lent.served fresh serves.1 one
    exact ih lent' serves.2 others

end Errands

end Store

end FirstSeen
