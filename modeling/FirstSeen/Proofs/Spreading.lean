import FirstSeen.Proofs.Assembling
import FirstSeen.Proofs.History.Concluding
import FirstSeen.Proofs.History.Simulating
import FirstSeen.Proofs.Tower.Agreeing

/-!
# Elements that are taken apart

To take elements apart for the key functions of a pipeline is to spread them in the key functions, and nothing else. On
data that are tuples, a pipeline that takes them apart cannot be told from one that does not, and has key functions that
take a tuple and give its items to those of the first one: however the steps of either are joined and nested, operations in
turn have the same outcomes. And the flag of the first pipeline is that of each of its stages.
-/

set_option autoImplicit false

namespace FirstSeen

/-! ## Spreading -/

/-- The items of the only argument, as an element that is taken apart gives them to a key function. -/
def KeyFunction.spread : List Value → Except Fault (List Value)
  | [v] => (Item.made v).arguments true
  | arguments => .error (.keyArity 1 arguments.length)

/-- The function of one argument that gives its items to a key function. -/
def KeyFunction.spreading (key : KeyFunction) : KeyFunction where
  respond nameOf earlier arguments := do
    key.respond nameOf (earlier.filterMap fun given => (spread given).toOption) (← spread arguments)

/-- Whether an element is a tuple, and an object of its own if there is no room for its items. -/
def Item.IsTuple (item : Item) : Prop :=
  ∃ items : List Value, item.contents = .tuple items ∧ (Run.roomLimit ≤ items.length → item.boxed = true)

/-- A tuple is spread as it is taken apart. -/
theorem Item.IsTuple.spread {item : Item} (tuple : item.IsTuple) :
    KeyFunction.spread [item.contents] = item.arguments true := by
  obtain ⟨contents, boxed, held⟩ := item
  obtain ⟨items, rfl, own⟩ := tuple
  have room : (Item.made (.tuple items)).roomFault? = (Item.mk (.tuple items) boxed held).roomFault? := by
    by_cases long : Run.roomLimit ≤ items.length
    · obtain rfl : boxed = true := own long
      cases items with
      | nil => exact absurd long (by decide)
      | cons first rest => rfl
    · have short : ¬ Value.wordLimit ≤ items.length := by
        have : Run.roomLimit ≤ Value.wordLimit := by decide
        omega
      simp [Item.roomFault?, Item.made, Value.length?, long, short]
  simp only [KeyFunction.spread, Item.arguments, room]
  rfl

namespace Store

variable {store : Store} {step step' : Value}

/-- Whether a key function answers to one argument as another one does to its items, or both are none. -/
def SpreadKey (store : Store) (key key' : Value) : Prop :=
  key = .null ∧ key' = .null ∨
    ∃ k k', key = .object (.key k) ∧ key' = .object (.key k') ∧
      (store.key k').respond = (store.key k).spreading.respond

/-- Whether two steps remove duplicates with one limit, and the key function of the second one spreads its argument for that
of the first one. -/
def Spreads (store : Store) (step step' : Value) : Prop :=
  ∃ s s' key key' limit, step = .object (.step s) ∧ step' = .object (.step s') ∧
    store.step s = .distinct key limit ∧ store.step s' = .distinct key' limit ∧ store.SpreadKey key key'

/-- A key function that answers purely to the items of elements does so to the elements if it spreads them. -/
theorem SpreadKey.sound {key key' : Value} (spreads : store.SpreadKey key key')
    (sound : store.SoundKey Item.Plain true key) : store.SoundKey Item.Plain false key' := by
  rcases spreads with ⟨-, rfl⟩ | ⟨k, k', rfl, rfl, responds⟩
  · exact .inl rfl
  · obtain same | ⟨id, same, answers⟩ := sound
    · cases same
    · cases same
      refine .inr ⟨k', rfl, fun item plain arguments given => ?_⟩
      obtain rfl : [item.contents] = arguments := Except.ok.inj given
      have answer : ∀ nameOf earlier, (store.key k').respond nameOf earlier [item.contents] = (do
          (store.key k).respond nameOf (earlier.filterMap fun given => (KeyFunction.spread given).toOption)
            (← KeyFunction.spread [item.contents])) := fun nameOf earlier => by rw [responds]; rfl
      rw [AnswersPurely, KeyFunction.answer]
      simp only [answer]
      rcases spread : KeyFunction.spread [item.contents] with fault | arguments
      · exact ⟨fun _ _ _ => rfl, fun _ answered => by cases answered⟩
      · obtain ⟨pure', own⟩ := answers (Item.made item.contents) plain arguments spread
        exact ⟨fun nameOf earlier named => pure' nameOf _ named, own⟩

/-- A step that spreads elements for sound keys is sound for whole elements. -/
theorem Spreads.sound (spreads : store.Spreads step step') (sound : store.SoundStep Item.Plain true step) :
    store.SoundStep Item.Plain false step' := by
  obtain ⟨s, s', key, key', limit, rfl, rfl, found, found', keys⟩ := spreads
  simp only [SoundStep, found, found'] at sound ⊢
  exact ⟨keys.sound sound.1, sound.2⟩

/-- A step that spreads tuples judges them as the other one does when it takes them apart. -/
theorem Spreads.agrees (spreads : store.Spreads step step') :
    (store.ruleOfStep true step).AgreesOn Item.IsTuple (store.ruleOfStep false step') := by
  obtain ⟨s, s', key, key', limit, rfl, rfl, found, found', keys⟩ := spreads
  simp only [ruleOfStep, found, found']
  refine ⟨fun item tuple => ?_, rfl, rfl⟩
  have same : store.answerTo false key' item = store.answerTo true key item := by
    rcases keys with ⟨rfl, rfl⟩ | ⟨k, k', rfl, rfl, responds⟩
    · rfl
    · calc store.answerTo false (.object (.key k')) item
        _ = (store.key k').respond Value.plainName #[] [item.contents] := rfl
        _ = (do (store.key k).answer (← KeyFunction.spread [item.contents])) := by rw [responds]; rfl
        _ = store.answerTo true (.object (.key k)) item := by rw [tuple.spread]; rfl
  simp only [ruleOf, same]

/-- The towers of steps that spread tuples, one by one, agree on data that are tuples. -/
theorem agree_of_spreads {leaves leaves' : List Value} {d : Value} (tuples : (store.originOf d).Within Item.IsTuple)
    (spreads : List.Forall₂ store.Spreads leaves leaves') :
    Tower.Agree Item.IsTuple (store.stagesOn true leaves d) (store.stagesOn false leaves' d) := by
  have rules : List.Forall₂ (Rule.AgreesOn Item.IsTuple) (leaves.map (store.ruleOfStep true))
      (leaves'.map (store.ruleOfStep false)) := by
    rw [List.forall₂_map_left_iff, List.forall₂_map_right_iff]
    exact spreads.imp fun _ _ => Spreads.agrees
  exact .filters rules (.ground (fun _ same => by cases same) ⟨tuples, fun _ same => by cases same⟩)

theorem sound_of_spreads {leaves leaves' : List Value} (spreads : List.Forall₂ store.Spreads leaves leaves')
    (sound : ∀ leaf ∈ leaves, store.SoundStep Item.Plain true leaf) :
    ∀ leaf ∈ leaves', store.SoundStep Item.Plain false leaf := by
  induction spreads with
  | nil => simp
  | cons first _ ih =>
    rw [List.forall_mem_cons] at sound ⊢
    exact ⟨first.sound sound.1, ih sound.2⟩

end Store

/-! ## What is seen -/

/-- Whether elements are taken apart is seen only if it is asked for. -/
theorem Scene.play_flag {ops : List Op} (multi multi' : Bool) (n : Nat) (scene : Scene)
    (unasked : ∀ op ∈ ops, op ≠ .multiValue) : scene.play multi n ops = scene.play multi' n ops := by
  induction ops generalizing scene with
  | nil => rfl
  | cons op rest ih =>
    rw [List.forall_mem_cons] at unasked
    have same : scene.perform multi n op = scene.perform multi' n op := by
      cases op with
      | multiValue => exact absurd rfl unasked.1
      | _ => rfl
    rw [Scene.play, Scene.play, same]
    simp only [ih _ unasked.2]

namespace Store

variable {D : Item → Prop} {aside : Option CursorId} {multi multi' : Bool} {many many' n : Nat} {store store' : Store}
  {p q stage : SequenceId} {tower tower' : Tower} {ops : List Op} {outcomes : List Outcome} {left : Session}

/-- Dormant pipelines conclude alike if the same is seen of their towers. -/
theorem Dormant.concludes_congr (dormant : store.Dormant D aside multi many p tower)
    (dormant' : store'.Dormant D aside multi' many' q tower')
    (same : ∀ n, ((Scene.mk tower []).play multi n ops).map Prod.fst = ((Scene.mk tower' []).play multi' n ops).map Prod.fst) :
    (Session.mk store []).Concludes p ops outcomes ↔ (Session.mk store' []).Concludes q ops outcomes := by
  refine Session.concludes_congr fun m (deep : max (4 * tower.height + many + 2) (4 * tower'.height + many' + 2) ≤ m) => ?_
  rw [(dormant.plays (Nat.le_trans (Nat.le_max_left ..) deep) ops).seen, same m,
    (dormant'.plays (Nat.le_trans (Nat.le_max_right ..) deep) ops).seen]

/-- Wherever the operations on a dormant pipeline have led, every stage that its chain leads to has its flag. -/
theorem Dormant.stage_flag (dormant : store.Dormant D aside multi many p tower)
    (played : (Session.mk store []).play n p ops = some (outcomes, left)) (leads : left.store.LeadsTo p stage) :
    ∃ after, Calls.Comes (fun c => c.isMulti stage) left.store (.ok multi) after := by
  have deep : n ≤ max n (4 * tower.height + many + 2) := Nat.le_max_left ..
  obtain ⟨scene, -, follows⟩ :=
    (dormant.plays (Nat.le_max_right n _) ops).some (Session.play_deepen deep played)
  rcases follows.holds with ⟨ids, stands⟩ | asleep
  · obtain ⟨ids', tower', stands', -⟩ := stands.leads leads
    exact ⟨left.store, tower'.height, isMulti_stands stands' (Nat.le_refl _)⟩
  · obtain ⟨steps, input, form⟩ := asleep.form
    obtain rfl := leads.unbuilt form
    obtain ⟨after, ends, -⟩ := (tracks_dormant many stage).flag (.inr asleep) (Nat.le_refl _)
    exact ⟨after, _, ends⟩

end Store

/-! ## The theorem -/

/-- On data that are tuples, a pipeline that takes elements apart has the outcomes that one has whose key functions spread
whole elements, whatever is asked of them and however each was put together from its steps. And wherever the operations on
the first pipeline have led, the flag of every stage in its chain is up. -/
theorem taken_apart_like_spread {store : Store} {d : Value} {tree other : Expression} (raw : store.Raw d)
    (tuples : (store.originOf d).Within Item.IsTuple) (bound : tree.BoundTo d) (bound' : other.BoundTo d)
    (apart : tree.flag = true) (whole : other.flag = false)
    (sound : ∀ leaf ∈ tree.leaves, store.SoundStep Item.Plain true leaf)
    (spreads : List.Forall₂ store.Spreads tree.leaves other.leaves) :
    ∃ p q made made', tree.make.from? store = (.ok (.ofSequence p), made) ∧
      other.make.from? store = (.ok (.ofSequence q), made') ∧
      (∀ ops outcomes, (∀ op ∈ ops, op ≠ .multiValue) →
        ((Session.mk made []).Concludes p ops outcomes ↔ (Session.mk made' []).Concludes q ops outcomes)) ∧
      ∀ n ops outcomes left stage, (Session.mk made []).play n p ops = some (outcomes, left) →
        left.store.LeadsTo p stage → ∃ after, Calls.Comes (fun c => c.isMulti stage) left.store (.ok true) after := by
  obtain ⟨p, made, many, makes, dormant⟩ := Expression.make_dormant raw bound (apart ▸ sound)
  obtain ⟨q, made', many', makes', dormant'⟩ :=
    Expression.make_dormant raw bound' (whole ▸ Store.sound_of_spreads spreads sound)
  rw [apart] at dormant
  rw [whole] at dormant'
  refine ⟨p, q, made, made', makes, makes', fun ops outcomes unasked => ?_, fun n ops outcomes left stage played leads =>
    dormant.stage_flag played leads⟩
  have agree : Tower.Layered (Tower.Agree Item.IsTuple) true (.passage {} (store.stagesOn true tree.leaves d))
      (.passage {} (store.stagesOn false other.leaves d)) := .passage (.base (Store.agree_of_spreads tuples spreads))
  refine dormant.concludes_congr dormant' fun n => ?_
  rw [Scene.play_flag false true n _ unasked]
  exact Scene.matches_seen Tower.simulates_agree Tower.simulates_agree_back (fun _ _ _ _ => trivial)
    (Scene.matches_begun (fun _ => True) agree)

namespace Store

/-- The key function of two arguments that gives the first one, if that is a number. -/
def firstOfTwo : KeyFunction where
  respond _ _ arguments :=
    match arguments with
    | [.int n, _] => .ok (.int n)
    | _ => .error (.keyArity 2 arguments.length)

/-- A store with a list of tuples of different lengths, a step for items and one for whole tuples, and a step without a key
function. -/
def tuples : Store where
  data := #[.tuple [.int 1, .int 2], .tuple [.int 3], .tuple [.int 1, .int 4]]
  lists := #[[.object (.datum ⟨0⟩), .object (.datum ⟨1⟩), .object (.datum ⟨2⟩)]]
  keys := #[firstOfTwo, firstOfTwo.spreading]
  steps := #[.distinct (.object (.key ⟨0⟩)) (.int 10000), .distinct (.object (.key ⟨1⟩)) (.int 10000),
    .distinct .null (.int 10000)]

/-- A pipeline of a step that is joined with a list of steps, and bound to the list of tuples. -/
def tupleTree (step : Value) (flag : Bool) : Expression :=
  .group [.join (.part step) (.group [.part (.object (.step ⟨2⟩))] .null false)] (.object (.list ⟨0⟩)) flag

theorem boundTo_tupleTree (step : Value) (flag : Bool) : (tupleTree step flag).BoundTo (.object (.list ⟨0⟩)) := by
  simp [tupleTree, Expression.BoundTo, Expression.Unbound]

theorem raw_tuples : tuples.Raw (.object (.list ⟨0⟩)) := by
  refine ⟨.inl rfl, fun _ => ?_, fun given => (by cases given), fun _ found => (by cases found)⟩
  intro ref held
  obtain rfl := List.mem_singleton.mp (show ref ∈ [Ref.list ⟨0⟩] from held)
  refine ⟨Nat.one_pos, fun item member => ?_⟩
  have among : item ∈ [Value.object (.datum ⟨0⟩), .object (.datum ⟨1⟩), .object (.datum ⟨2⟩)] := member
  simp only [List.mem_cons, List.not_mem_nil, or_false] at among
  rcases among with rfl | rfl | rfl
  all_goals
    intro ref held
    obtain rfl := List.mem_singleton.mp held
    exact ⟨by decide, rfl, dataTo_of_refs_nil rfl⟩

theorem within_tuples : (tuples.originOf (.object (.list ⟨0⟩))).Within Item.IsTuple := by
  refine ⟨fun n tape opens i item told => ?_, by rintro _ _ ⟨⟩⟩
  cases opens
  rcases i with _ | _ | _ | i <;> cases told <;> exact ⟨_, rfl, fun _ => rfl⟩

theorem sound_tuples : ∀ leaf ∈ (tupleTree (.object (.step ⟨0⟩)) true).leaves, tuples.SoundStep Item.Plain true leaf := by
  intro leaf member
  have among : leaf ∈ [Value.object (.step ⟨0⟩), .object (.step ⟨2⟩)] := member
  have limit : tuples.IsData (.int 10000) := isData_of_refs_nil rfl
  simp only [List.mem_cons, List.not_mem_nil, or_false] at among
  rcases among with rfl | rfl
  · refine ⟨.inr ⟨⟨0⟩, rfl, fun item plain arguments given => ⟨fun _ _ _ => rfl, fun key answered => ?_⟩⟩, limit⟩
    have answered' : firstOfTwo.respond Value.plainName #[] arguments = .ok key := answered
    simp only [firstOfTwo] at answered'
    split at answered' <;> cases answered'
    rfl
  · exact ⟨.inl rfl, limit⟩

theorem spreads_tuples : List.Forall₂ tuples.Spreads (tupleTree (.object (.step ⟨0⟩)) true).leaves
    (tupleTree (.object (.step ⟨1⟩)) false).leaves :=
  .cons ⟨⟨0⟩, ⟨1⟩, _, _, _, rfl, rfl, rfl, rfl, .inr ⟨⟨0⟩, ⟨1⟩, rfl, rfl, rfl⟩⟩
    (.cons ⟨⟨2⟩, ⟨2⟩, _, _, _, rfl, rfl, rfl, rfl, .inl ⟨rfl, rfl⟩⟩ .nil)

end Store

/-- A key function of two arguments on the items of tuples, and on whole tuples: the pipelines that are made for either give
the first tuple, fail for the one of one item, and drop the last one. -/
theorem taken_apart_like_spread_tuples :
    ∃ p q made made' outcomes,
      (Store.tupleTree (.object (.step ⟨0⟩)) true).make.from? .tuples = (.ok (.ofSequence p), made) ∧
      (Store.tupleTree (.object (.step ⟨1⟩)) false).make.from? .tuples = (.ok (.ofSequence q), made') ∧
      (Session.mk made []).Concludes p [.next, .peek, .next, .rewind, .force] outcomes ∧
      (Session.mk made' []).Concludes q [.next, .peek, .next, .rewind, .force] outcomes ∧
      outcomes.map (fun seen => seen.answer.toOption.isSome) = [true, false, false, true, false] := by
  obtain ⟨p, q, made, made', makes, makes', same, -⟩ := taken_apart_like_spread Store.raw_tuples Store.within_tuples
    (Store.boundTo_tupleTree ..) (Store.boundTo_tupleTree ..) rfl rfl Store.sound_tuples Store.spreads_tuples
  have root : ((Store.tupleTree (.object (.step ⟨0⟩)) true).make.from? .tuples).1 = .ok (.ofSequence ⟨2⟩) := rfl
  have evaluated : ((Session.mk ((Store.tupleTree (.object (.step ⟨0⟩)) true).make.from? .tuples).2 []).play 14 ⟨2⟩
      [.next, .peek, .next, .rewind, .force]).map (fun played =>
        played.1.map fun seen => seen.answer.toOption.isSome) = some [true, false, false, true, false] := by decide +kernel
  rw [makes] at root evaluated
  cases root
  obtain ⟨⟨outcomes, left⟩, played, answered⟩ := Option.map_eq_some_iff.mp evaluated
  have concludes : (Session.mk made []).Concludes ⟨2⟩ [.next, .peek, .next, .rewind, .force] outcomes :=
    ⟨14, congrArg (Option.map Prod.fst) played⟩
  exact ⟨_, q, made, made', outcomes, makes, makes', concludes, (same _ outcomes (by decide)).mp concludes, answered⟩

end FirstSeen
