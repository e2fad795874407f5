import FirstSeen.Engine
import FirstSeen.Proofs.Outcome
import FirstSeen.Proofs.Value.Containers
import FirstSeen.Release

/-!
# Hidden objects

A set of objects is *hidden* in a store if no object outside of it leads into it: what lies outside holds no reference
to a hidden object, hands none out and makes none. Operations on what lies outside then never come to a hidden object.
They leave hidden sequences and iterators as they are, tell nothing of them, answer with nothing hidden, and the set stays
hidden. Nor do they depend on it: they do the same wherever hidden sequences are, and whatever was told before.

An object that is added lies outside. What a key function answers matters only where it serves as a factory, and what a
stage has seen is never handed out.
-/

set_option autoImplicit false

namespace FirstSeen

section

variable (hidden : Ref → Prop)

/-- Whether a value holds no reference to a hidden object. -/
def Value.Avoids (v : Value) : Prop := ∀ ref ∈ v.refs, ¬hidden ref

/-- Whether nothing hidden is handed out. -/
def Event.Avoids : Event → Prop
  | .value v | .made v => v.Avoids hidden
  | .fault _ => True

/-- Whether a script hands nothing hidden out. -/
def Script.Avoids (script : Script) : Prop := ∀ i event, script i = some event → event.Avoids hidden

/-- Whether a stream does not draw from what is hidden. -/
def StreamPhase.Avoids : StreamPhase → Prop
  | .delegating feed => ¬hidden feed.ref
  | .fresh | .running | .finished => True

/-- Whether an iterator leads to nothing hidden. -/
def Cursor.Avoids : Cursor → Prop
  | .walking _ script .. | .generating script .. => script.Avoids hidden
  | .listing list .. => ¬hidden (.list list)
  | .ranging .. => True
  | .streaming pipeline input phase => ¬hidden (.sequence pipeline) ∧ input.Avoids hidden ∧ phase.Avoids hidden

/-- Whether iterating a source leads to nothing hidden. -/
def Opening.Avoids : Opening → Prop
  | .walker script | .generator script | .indexed script => script.Avoids hidden
  | .refusal _ => True

/-- Whether what a source makes leads to nothing hidden. -/
def Product.Avoids : Product → Prop
  | .value v => v.Avoids hidden
  | .generator script _ | .walker _ script _ => script.Avoids hidden
  | .items all => ∀ v ∈ all, v.Avoids hidden
  | .shared cursor => ¬hidden (.cursor cursor)

/-- Whether a source leads to nothing hidden. -/
structure Source.Avoids (source : Source) : Prop where
  opening : ∀ opening, source.opening = some opening → opening.Avoids hidden
  product : ∀ product, source.product = some product → product.Avoids hidden

/-- Whether a key function, called as a factory, answers with nothing hidden. -/
def KeyFunction.Avoids (key : KeyFunction) : Prop :=
  ∀ nameOf earlier v, key.respond nameOf earlier [] = .ok v → v.Avoids hidden

/-- Whether a step leads to nothing hidden. -/
def Step.Avoids : Step → Prop
  | .distinct key _ => key.Avoids hidden
  | .returning v => v.Avoids hidden
  | .passing | .positional | .failing _ | .bare _ | .link => True

/-- Whether what a sequence draws from leads to nothing hidden. -/
def Body.Avoids : Body → Prop
  | .abstract => True
  | .iterable data feed => data.Avoids hidden ∧ ∀ f, feed = some f → ¬hidden f.ref
  | .produced factory _ feed => factory.Avoids hidden ∧ ∀ f, feed = some f → ¬hidden f.ref
  | .distinct supply key _ _ => ¬hidden (.sequence supply) ∧ key.Avoids hidden
  | .pipeline steps input output => ¬hidden (.list steps) ∧ input.Avoids hidden ∧ output.Avoids hidden
  | .scripted cursor => ¬hidden (.cursor cursor)

/-- Whether a sequence leads to nothing hidden. -/
structure SequenceState.Avoids (state : SequenceState) : Prop where
  body : state.body.Avoids hidden
  peeked : ∀ v, state.peeked = some v → v.Avoids hidden

/-- Whether a set of objects is hidden: no object outside leads into it, and objects that are still to be added do not
belong to it. -/
structure Store.Hides (store : Store) : Prop where
  sequence : ∀ id, ¬hidden (.sequence id) → (store.sequence id).Avoids hidden
  cursor : ∀ id, ¬hidden (.cursor id) → (store.cursor id).Avoids hidden
  datum : ∀ id, ¬hidden (.datum id) → (store.datum id).Avoids hidden
  list : ∀ id, ¬hidden (.list id) → ∀ v ∈ store.list id, v.Avoids hidden
  source : ∀ id, ¬hidden (.source id) → (store.source id).Avoids hidden
  key : ∀ id, ¬hidden (.key id) → (store.key id).Avoids hidden
  step : ∀ id, ¬hidden (.step id) → (store.step id).Avoids hidden
  sequenceThere : ∀ id, hidden (.sequence id) → id.index < store.sequences.size
  cursorThere : ∀ id, hidden (.cursor id) → id.index < store.cursors.size
  datumThere : ∀ id, hidden (.datum id) → id.index < store.data.size
  listThere : ∀ id, hidden (.list id) → id.index < store.lists.size

/-- Whether hidden sequences and iterators are as they were, and nothing more was told of such sequences. What stays as it is
in any case is as it was, too. -/
structure Store.Spared (store after : Store) : Prop where
  sequence : ∀ id, hidden (.sequence id) → after.sequence id = store.sequence id
  cursor : ∀ id, hidden (.cursor id) → after.cursor id = store.cursor id
  lines : ∀ wanted : Notice → Bool, (∀ notice, wanted notice = true → hidden (.sequence notice.subject)) →
    after.journal.toList.filter wanted = store.journal.toList.filter wanted
  datum : ∀ (i : Nat) (v : Value), store.data[i]? = some v → after.data[i]? = some v
  raising : after.raising = store.raising

/-- Whether two stores are the same but for where hidden sequences are, and for what was told. -/
structure Store.Beside (store other : Store) : Prop where
  same : other = { store with sequences := other.sequences, journal := other.journal }
  size : other.sequences.size = store.sequences.size
  sequence : ∀ id, ¬hidden (.sequence id) → other.sequence id = store.sequence id
  kind : ∀ id, (other.sequence id).body.kind = (store.sequence id).body.kind

/-- Whether a reading sees of hidden sequences only of what sort they are, and nothing of what was told. -/
def Store.Outward {α : Type} (f : Store → α) : Prop := ∀ store other : Store, store.Beside hidden other → f other = f store

/-- Whether a run does not come to what is hidden, and answers with something good: it leaves hidden sequences and
iterators as they are, and ends in the same way wherever they are. -/
def Run.Heeds {α : Type} (good : α → Prop) (run : Run α) : Prop :=
  ∀ store : Store, store.Hides hidden → (run.from? store).2.Hides hidden ∧ store.Spared hidden (run.from? store).2 ∧
    (∀ a, (run.from? store).1 = .ok a → good a) ∧
    ∀ other : Store, store.Beside hidden other →
      (run.from? other).1 = (run.from? store).1 ∧ (run.from? store).2.Beside hidden (run.from? other).2

end

variable {hidden : Ref → Prop}

/-! ## Values -/

namespace Value

instance [DecidablePred hidden] (v : Value) : Decidable (v.Avoids hidden) :=
  inferInstanceAs (Decidable (∀ ref ∈ v.refs, ¬hidden ref))

theorem avoids_of_refs_nil {v : Value} (plain : v.refs = []) : v.Avoids hidden := by
  intro ref held
  rw [plain] at held
  cases held

theorem avoids_object {ref : Ref} : (Value.object ref).Avoids hidden ↔ ¬hidden ref := by
  simp [Avoids, refs]

/-- What is iterated out of a value avoids what the value avoids. -/
theorem Avoids.items {v : Value} {items : List Value} (avoids : v.Avoids hidden) (given : v.items? = some items) :
    ∀ item ∈ items, item.Avoids hidden :=
  fun _ member ref held => avoids ref (refs_of_mem_items? given member held)

theorem avoids_items {wrap : List Value → Value} {items : List Value} (refs : (wrap items).refs = refsIn items)
    (each : ∀ item ∈ items, item.Avoids hidden) : (wrap items).Avoids hidden := by
  intro ref held
  rw [refs, refsIn_eq] at held
  obtain ⟨item, member, held⟩ := List.mem_flatMap.mp held
  exact each item member ref held

theorem avoids_dict {held : List (Value × Value)} :
    (Value.dict held).Avoids hidden ↔ ∀ e ∈ held, e.1.Avoids hidden ∧ e.2.Avoids hidden := by
  simp only [Avoids, refs, refsInEntries_eq, List.mem_flatMap, List.mem_append]
  constructor
  · exact fun avoids e member => ⟨fun ref there => avoids ref ⟨e, member, .inl there⟩,
      fun ref there => avoids ref ⟨e, member, .inr there⟩⟩
  · rintro each ref ⟨e, member, inKey | inValue⟩
    · exact (each e member).1 ref inKey
    · exact (each e member).2 ref inValue

end Value

namespace Script

theorem avoids_ofValues {items : List Value} (each : ∀ item ∈ items, item.Avoids hidden) :
    (ofValues items).Avoids hidden := by
  intro i event told
  obtain ⟨item, at_, rfl⟩ := Option.map_eq_some_iff.mp told
  exact each item (List.mem_of_getElem? at_)

theorem avoids_ofValue? {v : Value} {script : Script} (avoids : v.Avoids hidden) (given : ofValue? v = some script) :
    script.Avoids hidden := by
  unfold ofValue? at given
  split at given
  · intro i event told
    obtain rfl := Option.some.inj given
    obtain ⟨item, at_, rfl⟩ := Option.map_eq_some_iff.mp told
    obtain ⟨c, -, rfl⟩ := List.mem_map.mp (List.mem_of_getElem? at_)
    exact Value.avoids_of_refs_nil rfl
  · obtain ⟨items, listed, rfl⟩ := Option.map_eq_some_iff.mp given
    exact avoids_ofValues (avoids.items listed)

end Script

/-! ## Putting runs together -/

namespace Store

/-- Something is added at the end of an array. -/
theorem getD_push {α : Type} (all : Array α) (a fallback : α) (i : Nat) :
    (all.push a).getD i fallback = if i = all.size then a else all.getD i fallback := by
  simp only [Array.getD_eq_getD_getElem?, Array.getElem?_push]
  split <;> rfl

/-- Something in an array is changed, if it is there. -/
theorem getD_modify {α : Type} (all : Array α) (i : Nat) (f : α → α) (fallback : α) (j : Nat) :
    (all.modify i f).getD j fallback =
      if i = j ∧ j < all.size then f (all.getD j fallback) else all.getD j fallback := by
  simp only [Array.getD_eq_getD_getElem?, Array.getElem?_modify]
  by_cases same : i = j
  · by_cases there : j < all.size <;> simp [same, there]
  · simp [same]

theorem spared_refl (store : Store) : store.Spared hidden store :=
  ⟨fun _ _ => rfl, fun _ _ => rfl, fun _ _ => rfl, fun _ _ there => there, rfl⟩

theorem Spared.trans {store left after : Store} (first : store.Spared hidden left) (second : left.Spared hidden after) :
    store.Spared hidden after :=
  ⟨fun id known => (second.sequence id known).trans (first.sequence id known),
    fun id known => (second.cursor id known).trans (first.cursor id known),
    fun wanted known => (second.lines wanted known).trans (first.lines wanted known),
    fun i v there => second.datum i v (first.datum i v there), second.raising.trans first.raising⟩

/-- What is told of hidden sequences is told as often as before. -/
theorem Spared.told {store after : Store} (spared : store.Spared hidden after) (notice : Notice)
    (known : hidden (.sequence notice.subject)) : after.journal.count notice = store.journal.count notice := by
  have lines := spared.lines (· == notice) fun other same => beq_iff_eq.mp same ▸ known
  simp only [← Array.count_toList, List.count_eq_length_filter, lines]

/-- A set is hidden if no object that is there and lies outside leads into it. -/
theorem hides_of_each {store : Store}
    (sequence : ∀ i (there : i < store.sequences.size), ¬hidden (.sequence ⟨i⟩) → store.sequences[i].Avoids hidden)
    (cursor : ∀ i (there : i < store.cursors.size), ¬hidden (.cursor ⟨i⟩) → store.cursors[i].Avoids hidden)
    (datum : ∀ i (there : i < store.data.size), ¬hidden (.datum ⟨i⟩) → store.data[i].Avoids hidden)
    (list : ∀ i (there : i < store.lists.size), ¬hidden (.list ⟨i⟩) → ∀ v ∈ store.lists[i], v.Avoids hidden)
    (source : ∀ i (there : i < store.sources.size), ¬hidden (.source ⟨i⟩) → store.sources[i].Avoids hidden)
    (key : ∀ i (there : i < store.keys.size), ¬hidden (.key ⟨i⟩) → store.keys[i].Avoids hidden)
    (step : ∀ i (there : i < store.steps.size), ¬hidden (.step ⟨i⟩) → store.steps[i].Avoids hidden)
    (sequenceThere : ∀ id, hidden (.sequence id) → id.index < store.sequences.size)
    (cursorThere : ∀ id, hidden (.cursor id) → id.index < store.cursors.size)
    (datumThere : ∀ id, hidden (.datum id) → id.index < store.data.size)
    (listThere : ∀ id, hidden (.list id) → id.index < store.lists.size) : store.Hides hidden := by
  -- What is not there leads nowhere.
  have either : ∀ {α : Type} (all : Array α) (fallback : α) (P : α → Prop) (i : Nat),
      (∀ there : i < all.size, P all[i]) → P fallback → P (all.getD i fallback) := by
    intro α all fallback P i here elsewhere
    by_cases there : i < all.size
    · simpa [Array.getD_eq_getD_getElem?, there] using here there
    · simpa [Array.getD_eq_getD_getElem?, there] using elsewhere
  constructor
  case sequence =>
    exact fun id free => either _ _ (SequenceState.Avoids hidden) _ (fun there => sequence _ there free) ⟨trivial, nofun⟩
  case cursor =>
    exact fun id free => either _ _ (Cursor.Avoids hidden) _ (fun there => cursor _ there free) nofun
  case datum =>
    exact fun id free => either _ _ (Value.Avoids hidden) _ (fun there => datum _ there free) nofun
  case list =>
    exact fun id free => either _ _ (fun items : List Value => ∀ v ∈ items, v.Avoids hidden) _
      (fun there => list _ there free) nofun
  case source =>
    exact fun id free => either _ _ (Source.Avoids hidden) _ (fun there => source _ there free) ⟨nofun, nofun⟩
  case key =>
    exact fun id free => either _ _ (KeyFunction.Avoids hidden) _ (fun there => key _ there free) nofun
  case step =>
    exact fun id free => either _ _ (Step.Avoids hidden) _ (fun there => step _ there free) nofun
  all_goals assumption

/-! ## Readings that do not see what is hidden -/

theorem beside_refl (store : Store) : store.Beside hidden store := ⟨rfl, rfl, fun _ _ => rfl, fun _ => rfl⟩

/-- A reading is the same if it neither looks at sequences nor at what was told. -/
theorem outward_of_blind {α : Type} {f : Store → α} (blind : ∀ (store : Store) sequences journal,
    f { store with sequences := sequences, journal := journal } = f store) : Outward hidden f := by
  intro store other beside
  rw [beside.same]
  exact blind store _ _

theorem outward_contents (v : Value) : Outward hidden fun store => store.contents v := by
  apply outward_of_blind
  intro store sequences journal
  suffices same : ∀ depth v, contentsTo { store with sequences := sequences, journal := journal } depth v =
      store.contentsTo depth v from same _ v
  intro depth
  induction depth with
  | zero => exact fun _ => rfl
  | succ depth ih =>
    intro v
    rw [contentsTo, contentsTo, funext ih]
    rfl

theorem outward_plain (v : Value) : Outward hidden fun store => store.plain v := by
  apply outward_of_blind
  intro store sequences journal
  cases v with
  | object ref => cases ref <;> rfl
  | _ => rfl

theorem outward_isIterable (v : Value) : Outward hidden fun store => store.isIterable v := by
  apply outward_of_blind
  intro store sequences journal
  cases v with
  | object ref => cases ref <;> rfl
  | _ => rfl

theorem outward_isCallable (v : Value) : Outward hidden fun store => store.isCallable v := by
  apply outward_of_blind
  intro store sequences journal
  cases v with
  | object ref => cases ref <;> rfl
  | _ => rfl

theorem outward_canWalk (v : Value) : Outward hidden fun store => store.canWalk v := by
  intro store other beside
  have iterable := outward_isIterable v store other beside
  cases v with
  | object ref =>
    cases ref with
    | source id =>
      change (other.source id).opening.isSome = (store.source id).opening.isSome
      rw [beside.same]
      rfl
    | _ => exact iterable
  | _ => exact iterable

/-- The name of a type tells of a sequence only of what sort it is. -/
theorem outward_typeName (v : Value) : Outward hidden fun store => store.typeName v := by
  intro store other beside
  cases v with
  | object ref =>
    cases ref with
    | sequence id => exact congrArg SequenceKind.typeName (beside.kind id)
    | _ =>
      change other.typeName _ = store.typeName _
      rw [beside.same]
      rfl
  | _ => rfl

theorem outward_ownerName (v : Value) : Outward hidden fun store => store.ownerName v := by
  intro store other beside
  have sources : other.source = store.source := by
    rw [beside.same]
    rfl
  simp only [ownerName, outward_typeName v store other beside, sources]

theorem outward_shown (v : Value) : Outward hidden fun store => store.shown v := by
  intro store other beside
  have named : other.typeName = store.typeName := funext fun v => outward_typeName v store other beside
  simp only [shown, outward_contents v store other beside, named]

theorem outward_calleeName (v : Value) : Outward hidden fun store => store.calleeName v := by
  intro store other beside
  have sources : other.source = store.source := by
    rw [beside.same]
    rfl
  simp only [calleeName, asText, outward_plain v store other beside, outward_shown v store other beside, sources]

/-- Key functions see the types and contents of their arguments. -/
theorem outward_answerOf (id : KeyId) (arguments : List Value) :
    Outward hidden fun store => Run.answerOf store id arguments := by
  intro store other beside
  have named : other.typeName = store.typeName := funext fun v => outward_typeName v store other beside
  have held : other.contents = store.contents := funext fun v => outward_contents v store other beside
  have keys : other.key id = store.key id := by
    rw [beside.same]
    rfl
  simp only [Run.answerOf, named, held, keys]

/-- The contents of an object that lies outside, or of a value itself. -/
theorem Hides.plain {store : Store} (hides : store.Hides hidden) {v : Value} (avoids : v.Avoids hidden) :
    (store.plain v).Avoids hidden := by
  unfold Store.plain
  split
  · exact hides.datum _ (Value.avoids_object.mp avoids)
  · exact avoids

end Store

namespace Run

variable {α β : Type}

theorem heeds_pure {good : α → Prop} {a : α} (fine : good a) : (pure a : Run α).Heeds hidden good :=
  fun store hides => ⟨hides, store.spared_refl, fun b same => (by cases same; exact fine), fun _ beside => ⟨rfl, beside⟩⟩

theorem heeds_fail {good : α → Prop} (fault : Fault) : (fail fault : Run α).Heeds hidden good :=
  fun store hides => ⟨hides, store.spared_refl, fun _ same => (by cases same), fun _ beside => ⟨rfl, beside⟩⟩

theorem heeds_outOfFuel {good : α → Prop} : (throw .outOfFuel : Run α).Heeds hidden good :=
  fun store hides => ⟨hides, store.spared_refl, fun _ same => (by cases same), fun _ beside => ⟨rfl, beside⟩⟩

/-- What is read outside is good if it is in every store in which the set is hidden. -/
theorem heeds_view {good : α → Prop} {f : Store → α} (outward : Store.Outward hidden f)
    (fine : ∀ store : Store, store.Hides hidden → good (f store)) : (view f).Heeds hidden good :=
  fun store hides => ⟨hides, store.spared_refl, fun b same => (by cases same; exact fine store hides),
    fun other beside => ⟨congrArg Except.ok (outward store other beside), beside⟩⟩

/-- Nothing is asked of what is read. -/
theorem heeds_reading {f : Store → α} (outward : Store.Outward hidden f) : (view f).Heeds hidden fun _ => True :=
  heeds_view outward fun _ _ => trivial

/-- Nothing is asked of what is read, if it has to do with neither sequences nor what was told. -/
theorem heeds_looking {f : Store → α} (blind : ∀ (store : Store) sequences journal,
    f { store with sequences := sequences, journal := journal } = f store) : (view f).Heeds hidden fun _ => True :=
  heeds_reading (Store.outward_of_blind blind)

theorem Heeds.bind {good : α → Prop} {good' : β → Prop} {run : Run α} {next : α → Run β} (first : run.Heeds hidden good)
    (rest : ∀ a, good a → (next a).Heeds hidden good') : (run >>= next).Heeds hidden good' := by
  intro store hides
  obtain ⟨kept, spared, fine, blind⟩ := first store hides
  rcases ends : run.from? store with ⟨halt | a, left⟩ <;> rw [ends] at kept spared fine blind
  · rw [from?_bind_error ends]
    refine ⟨kept, spared, fun _ same => (by cases same), fun other beside => ?_⟩
    obtain ⟨same, beside'⟩ := blind other beside
    have ends' : run.from? other = (.error halt, (run.from? other).2) := Prod.ext same rfl
    rw [from?_bind_error ends']
    exact ⟨rfl, beside'⟩
  · rw [from?_bind_ok ends]
    obtain ⟨kept', spared', fine', blind'⟩ := rest a (fine a rfl) left kept
    refine ⟨kept', spared.trans spared', fine', fun other beside => ?_⟩
    obtain ⟨same, beside'⟩ := blind other beside
    have ends' : run.from? other = (.ok a, (run.from? other).2) := Prod.ext same rfl
    rw [from?_bind_ok ends']
    exact blind' _ beside'

theorem Heeds.onFault {good : α → Prop} {run : Run α} {handler : Fault → Run α} (first : run.Heeds hidden good)
    (handled : ∀ fault, (handler fault).Heeds hidden good) : (onFault run handler).Heeds hidden good := by
  intro store hides
  obtain ⟨kept, spared, fine, blind⟩ := first store hides
  -- The same handler is taken, or none, wherever hidden sequences are.
  have alike : ∀ other, store.Beside hidden other → run.from? other = ((run.from? store).1, (run.from? other).2) :=
    fun other beside => Prod.ext (blind other beside).1 rfl
  rw [from?_onFault]
  rcases ends : run.from? store with ⟨(fault | _) | a, left⟩ <;> rw [ends] at kept spared fine blind alike
  · obtain ⟨kept', spared', fine', blind'⟩ := handled fault left kept
    refine ⟨kept', spared.trans spared', fine', fun other beside => ?_⟩
    rw [from?_onFault, alike other beside]
    exact blind' _ (blind other beside).2
  · refine ⟨kept, spared, fun _ same => (by cases same), fun other beside => ?_⟩
    rw [from?_onFault, alike other beside]
    exact ⟨rfl, (blind other beside).2⟩
  · refine ⟨kept, spared, fine, fun other beside => ?_⟩
    rw [from?_onFault, alike other beside]
    exact ⟨rfl, (blind other beside).2⟩

theorem Heeds.imp {good good' : α → Prop} {run : Run α} (heeds : run.Heeds hidden good)
    (better : ∀ a, good a → good' a) : run.Heeds hidden good' := by
  intro store hides
  obtain ⟨kept, spared, fine, blind⟩ := heeds store hides
  exact ⟨kept, spared, fun a same => better a (fine a same), blind⟩

theorem Heeds.ite {good : α → Prop} {c : Prop} [Decidable c] {run other : Run α} (heeds : run.Heeds hidden good)
    (heeds' : other.Heeds hidden good) : (if c then run else other).Heeds hidden good := by
  split
  · exact heeds
  · exact heeds'

/-- What may fail before the rest. -/
theorem Heeds.unless {good : α → Prop} {c : Prop} [Decidable c] {fault : Fault} {rest : Run α}
    (heeds : rest.Heeds hidden good) :
    (if c then fail fault >>= fun _ : Unit => rest else rest).Heeds hidden good :=
  .ite ((heeds_fail fault).bind fun _ (_ : True) => heeds) heeds

theorem Heeds.map {good : α → Prop} {good' : β → Prop} {run : Run α} (heeds : run.Heeds hidden good) {f : α → β}
    (fine : ∀ a, good a → good' (f a)) : (f <$> run).Heeds hidden good' :=
  heeds.bind fun a held => heeds_pure (fine a held)

/-- A failure may look around first. -/
theorem heeds_failing {good : β → Prop} {f : Store → α} (outward : Store.Outward hidden f) (fault : α → Fault) :
    (view f >>= fun a => (fail (fault a) : Run β)).Heeds hidden good :=
  (heeds_reading outward).bind fun _ _ => heeds_fail _

theorem heeds_ofExcept {good : α → Prop} {result : Except Fault α} (fine : ∀ a, result = .ok a → good a) :
    (ofExcept result).Heeds hidden good := by
  cases result with
  | ok a => exact heeds_pure (fine a rfl)
  | error fault => exact heeds_fail fault

/-! ## Reading -/

theorem heeds_sequence {id : SequenceId} (outside : ¬hidden (.sequence id)) :
    (sequence id).Heeds hidden (SequenceState.Avoids hidden) :=
  heeds_view (fun _ _ beside => beside.sequence id outside) fun _ hides => hides.sequence id outside

theorem heeds_cursor {id : CursorId} (outside : ¬hidden (.cursor id)) : (cursor id).Heeds hidden (Cursor.Avoids hidden) :=
  heeds_view (Store.outward_of_blind fun _ _ _ => rfl) fun _ hides => hides.cursor id outside

theorem heeds_list {id : ListId} (outside : ¬hidden (.list id)) :
    (list id).Heeds hidden fun items => ∀ v ∈ items, v.Avoids hidden :=
  heeds_view (Store.outward_of_blind fun _ _ _ => rfl) fun _ hides => hides.list id outside

theorem heeds_plain {v : Value} (avoids : v.Avoids hidden) : (plain v).Heeds hidden (Value.Avoids hidden) :=
  heeds_view (Store.outward_plain v) fun _ hides => hides.plain avoids

theorem heeds_failMissing {good : α → Prop} (v : Value) (name : String) : (failMissing v name : Run α).Heeds hidden good :=
  heeds_failing (Store.outward_ownerName v) _

theorem heeds_sequenceFor (name : String) {v : Value} (avoids : v.Avoids hidden) :
    (sequenceFor name v).Heeds hidden fun id => ¬hidden (.sequence id) := by
  unfold sequenceFor
  split
  · exact heeds_pure (Value.avoids_object.mp avoids)
  · exact heeds_failMissing _ _

/-! ## Changing -/

/-- A change that touches no sequence, iterator, datum, list or step, leaves key functions and sources what they are, and
has nothing to do with what was told. -/
theorem heeds_modify {f : Store → Store} (blind : ∀ (store : Store) sequences journal,
      f { store with sequences := sequences, journal := journal } =
        { f store with sequences := sequences, journal := journal })
    (cursors : ∀ store, (f store).cursors = store.cursors) (data : ∀ store, (f store).data = store.data)
    (lists : ∀ store, (f store).lists = store.lists) (sources : ∀ store, (f store).sources = store.sources)
    (keys : ∀ store id, ((f store).key id).respond = (store.key id).respond)
    (steps : ∀ store, (f store).steps = store.steps) (raising : ∀ store, (f store).raising = store.raising) :
    (modify f : Run Unit).Heeds hidden fun _ => True := by
  intro store hides
  have sequences : ∀ store, (f store).sequences = store.sequences := fun store => by
    have same := congrArg Store.sequences (blind store store.sequences store.journal)
    exact same
  have journal : ∀ store, (f store).journal = store.journal := fun store => by
    have same := congrArg Store.journal (blind store store.sequences store.journal)
    exact same
  change (f store).Hides hidden ∧ store.Spared hidden (f store) ∧ _ ∧
    ∀ other, _ → _ ∧ (f store).Beside hidden (f other)
  refine ⟨⟨?_, ?_, ?_, ?_, ?_, ?_, ?_, ?_, ?_, ?_, ?_⟩, ⟨?_, ?_, ?_, ?_, raising store⟩, fun _ _ => trivial,
    fun other beside => ⟨rfl, ⟨?_, ?_, ?_, ?_⟩⟩⟩
  · simpa only [Store.sequence, sequences] using hides.sequence
  · simpa only [Store.cursor, cursors] using hides.cursor
  · simpa only [Store.datum, data] using hides.datum
  · simpa only [Store.list, lists] using hides.list
  · simpa only [Store.source, sources] using hides.source
  · simpa only [KeyFunction.Avoids, keys] using hides.key
  · simpa only [Store.step, steps] using hides.step
  · simpa only [sequences] using hides.sequenceThere
  · simpa only [cursors] using hides.cursorThere
  · simpa only [data] using hides.datumThere
  · simpa only [lists] using hides.listThere
  · exact fun id _ => by rw [Store.sequence, sequences, Store.sequence]
  · exact fun id _ => by rw [Store.cursor, cursors, Store.cursor]
  · exact fun notice _ => by rw [journal]
  · exact fun i v there => by rw [data, there]
  · rw [sequences, journal]
    exact (congrArg f beside.same).trans (blind store _ _)
  · rw [sequences, sequences, beside.size]
  · simpa only [Store.sequence, sequences] using beside.sequence
  · simpa only [Store.sequence, sequences] using beside.kind

theorem heeds_updateMeter (id : MeterId) (f : Meter → Meter) : (updateMeter id f).Heeds hidden fun _ => True :=
  heeds_modify (fun _ _ _ => rfl) (fun _ => rfl) (fun _ => rfl) (fun _ => rfl) (fun _ => rfl) (fun _ _ => rfl)
    (fun _ => rfl) fun _ => rfl

theorem heeds_updateMeter? (id : Option MeterId) (f : Meter → Meter) :
    (updateMeter? id f).Heeds hidden fun _ => True := by
  cases id with
  | none => exact heeds_pure trivial
  | some id => exact heeds_updateMeter id f

/-- Something may be told of what lies outside. -/
theorem heeds_tell {notice : Notice} (outside : ¬hidden (.sequence notice.subject)) :
    (tell notice).Heeds hidden fun _ => True := by
  intro store hides
  refine ⟨⟨hides.sequence, hides.cursor, hides.datum, hides.list, hides.source, hides.key, hides.step,
    hides.sequenceThere, hides.cursorThere, hides.datumThere, hides.listThere⟩,
    ⟨fun _ _ => rfl, fun _ _ => rfl, fun wanted known => ?_, fun _ _ there => there, rfl⟩, fun _ _ => trivial,
    fun other beside => ⟨rfl, ⟨?_, beside.size, beside.sequence, beside.kind⟩⟩⟩
  · have apart : wanted notice = false := Bool.eq_false_iff.mpr fun found => outside (known notice found)
    change (store.journal.push notice).toList.filter wanted = _
    simp [apart]
  · change ({ other with journal := other.journal.push notice } : Store) = _
    rw [beside.same]
    rfl

/-- A sequence outside takes another state that leads to nothing hidden. -/
theorem heeds_updateSequence {id : SequenceId} (outside : ¬hidden (.sequence id)) {f : SequenceState → SequenceState}
    (avoids : ∀ state : SequenceState, state.Avoids hidden → (f state).Avoids hidden) :
    (updateSequence id f).Heeds hidden fun _ => True := by
  intro store hides
  have there : ∀ (before : Store) (other : SequenceId), ((updateSequence id f).from? before).2.sequence other =
      if id.index = other.index ∧ other.index < before.sequences.size then f (before.sequence other)
      else before.sequence other :=
    fun before other => Store.getD_modify before.sequences id.index f default other.index
  refine ⟨⟨fun other free => ?_, hides.cursor, hides.datum, hides.list, hides.source, hides.key, hides.step, ?_,
    hides.cursorThere, hides.datumThere, hides.listThere⟩,
    ⟨fun other known => ?_, fun _ _ => rfl, fun _ _ => rfl, fun _ _ there => there, rfl⟩, fun _ _ => trivial,
    fun other beside => ⟨rfl, ⟨?_, ?_, fun id' free => ?_, fun id' => ?_⟩⟩⟩
  · rw [there]
    split
    · exact avoids _ (hides.sequence other free)
    · exact hides.sequence other free
  · simpa using hides.sequenceThere
  · rw [there, if_neg]
    rintro ⟨same, -⟩
    obtain rfl : id = other := by cases id; cases other; simp_all
    exact outside known
  · rw [from?_updateSequence, from?_updateSequence, beside.same]
  · simpa using beside.size
  · rw [there, there, beside.size, beside.sequence id' free]
  · rw [there, there, beside.size]
    split
    · rename_i here
      obtain rfl : id = id' := by cases id; cases id'; simp_all
      rw [beside.sequence id outside]
    · exact beside.kind id'

theorem heeds_setBody {id : SequenceId} (outside : ¬hidden (.sequence id)) {body : Body} (avoids : body.Avoids hidden) :
    (setBody id body).Heeds hidden fun _ => True :=
  heeds_updateSequence outside fun _ held => ⟨avoids, held.peeked⟩

/-- A new sequence lies outside. -/
theorem heeds_newSequence {state : SequenceState} (avoids : state.Avoids hidden) :
    (newSequence state).Heeds hidden fun id => ¬hidden (.sequence id) := by
  intro store hides
  have there : ∀ (before : Store) (id : SequenceId), ((newSequence state).from? before).2.sequence id =
      if id.index = before.sequences.size then state else before.sequence id :=
    fun before id => Store.getD_push before.sequences state default id.index
  refine ⟨⟨fun id free => ?_, hides.cursor, hides.datum, hides.list, hides.source, hides.key, hides.step,
    fun id known => ?_, hides.cursorThere, hides.datumThere, hides.listThere⟩,
    ⟨fun id known => ?_, fun _ _ => rfl, fun _ _ => rfl, fun _ _ there => there, rfl⟩, ?_,
    fun other beside => ⟨?_, ⟨?_, ?_, fun id free => ?_, fun id => ?_⟩⟩⟩
  · rw [there]
    split
    · exact avoids
    · exact hides.sequence id free
  · simpa using Nat.lt_succ_of_lt (hides.sequenceThere id known)
  · rw [there, if_neg (Nat.ne_of_lt (hides.sequenceThere id known))]
  · rintro id ⟨⟩ known
    exact Nat.lt_irrefl _ (hides.sequenceThere _ known)
  · rw [from?_newSequence, from?_newSequence, beside.size]
  · rw [from?_newSequence, from?_newSequence, beside.same]
  · simpa using beside.size
  · rw [there, there, beside.size, beside.sequence id free]
  · rw [there, there, beside.size]
    split
    · rfl
    · exact beside.kind id

/-- What has to do with neither sequences nor what was told does the same beside another store. -/
theorem beside_of_blind {run : Run α} {store other : Store} (blind : ∀ (store : Store) sequences journal,
      run.from? { store with sequences := sequences, journal := journal } =
        ((run.from? store).1, { (run.from? store).2 with sequences := sequences, journal := journal }))
    (beside : store.Beside hidden other) :
    (run.from? other).1 = (run.from? store).1 ∧ (run.from? store).2.Beside hidden (run.from? other).2 := by
  have kept : (run.from? store).2.sequences = store.sequences :=
    congrArg (fun ended => ended.2.sequences) (blind store store.sequences store.journal)
  have ends : run.from? other = ((run.from? store).1,
      { (run.from? store).2 with sequences := other.sequences, journal := other.journal }) :=
    (congrArg run.from? beside.same).trans (blind store _ _)
  rw [ends]
  refine ⟨rfl, rfl, ?_, ?_, ?_⟩
  · exact beside.size.trans (congrArg Array.size kept.symm)
  · intro id free
    rw [Store.sequence, Store.sequence, kept]
    exact beside.sequence id free
  · intro id
    rw [Store.sequence, Store.sequence, kept]
    exact beside.kind id

/-- An iterator outside is replaced. -/
theorem heeds_setCursor {id : CursorId} (outside : ¬hidden (.cursor id)) {cursor : Cursor}
    (avoids : cursor.Avoids hidden) : (setCursor id cursor).Heeds hidden fun _ => True := by
  intro store hides
  have there : ∀ other : CursorId, ((setCursor id cursor).from? store).2.cursor other =
      if id.index = other.index ∧ other.index < store.cursors.size then cursor else store.cursor other :=
    fun other => Store.getD_modify store.cursors id.index (fun _ => cursor) default other.index
  refine ⟨⟨hides.sequence, fun other free => ?_, hides.datum, hides.list, hides.source, hides.key, hides.step,
    hides.sequenceThere, ?_, hides.datumThere, hides.listThere⟩,
    ⟨fun _ _ => rfl, fun other known => ?_, fun _ _ => rfl, fun _ _ there => there, rfl⟩, fun _ _ => trivial,
    fun other beside => beside_of_blind (fun _ _ _ => rfl) beside⟩
  · rw [there]
    split
    · exact avoids
    · exact hides.cursor other free
  · simpa using hides.cursorThere
  · rw [there, if_neg]
    rintro ⟨same, -⟩
    obtain rfl : id = other := by cases id; cases other; simp_all
    exact outside known

/-- A new iterator lies outside. -/
theorem heeds_newCursor {cursor : Cursor} (avoids : cursor.Avoids hidden) :
    (newCursor cursor).Heeds hidden fun id => ¬hidden (.cursor id) := by
  intro store hides
  have there : ∀ id : CursorId, ((newCursor cursor).from? store).2.cursor id =
      if id.index = store.cursors.size then cursor else store.cursor id :=
    fun id => Store.getD_push store.cursors cursor default id.index
  refine ⟨⟨hides.sequence, fun id free => ?_, hides.datum, hides.list, hides.source, hides.key, hides.step,
    hides.sequenceThere, fun id known => ?_, hides.datumThere, hides.listThere⟩,
    ⟨fun _ _ => rfl, fun id known => ?_, fun _ _ => rfl, fun _ _ there => there, rfl⟩, ?_,
    fun other beside => beside_of_blind (fun _ _ _ => rfl) beside⟩
  · rw [there]
    split
    · exact avoids
    · exact hides.cursor id free
  · simpa using Nat.lt_succ_of_lt (hides.cursorThere id known)
  · rw [there, if_neg (Nat.ne_of_lt (hides.cursorThere id known))]
  · rintro id ⟨⟩ known
    exact Nat.lt_irrefl _ (hides.cursorThere _ known)

/-- A new datum lies outside. -/
theorem heeds_newDatum {v : Value} (avoids : v.Avoids hidden) :
    (newDatum v).Heeds hidden fun id => ¬hidden (.datum id) := by
  intro store hides
  have there : ∀ id : DatumId, ((newDatum v).from? store).2.datum id =
      if id.index = store.data.size then v else store.datum id :=
    fun id => Store.getD_push store.data v .null id.index
  refine ⟨⟨hides.sequence, hides.cursor, fun id free => ?_, hides.list, hides.source, hides.key, hides.step,
    hides.sequenceThere, hides.cursorThere, fun id known => ?_, hides.listThere⟩,
    ⟨fun _ _ => rfl, fun _ _ => rfl, fun _ _ => rfl, fun i w there => ?_, rfl⟩, ?_,
    fun other beside => beside_of_blind (fun _ _ _ => rfl) beside⟩
  · rw [there]
    split
    · exact avoids
    · exact hides.datum id free
  · simpa using Nat.lt_succ_of_lt (hides.datumThere id known)
  · obtain ⟨inside, -⟩ := Array.getElem?_eq_some_iff.mp there
    rw [from?_newDatum, Array.getElem?_push_lt inside, ← there, Array.getElem?_eq_getElem inside]
  · rintro id ⟨⟩ known
    exact Nat.lt_irrefl _ (hides.datumThere _ known)

/-- A new list lies outside. -/
theorem heeds_newList {items : List Value} (avoids : ∀ v ∈ items, v.Avoids hidden) :
    (newList items).Heeds hidden fun id => ¬hidden (.list id) := by
  intro store hides
  have there : ∀ id : ListId, ((newList items).from? store).2.list id =
      if id.index = store.lists.size then items else store.list id :=
    fun id => Store.getD_push store.lists items [] id.index
  refine ⟨⟨hides.sequence, hides.cursor, hides.datum, fun id free => ?_, hides.source, hides.key, hides.step,
    hides.sequenceThere, hides.cursorThere, hides.datumThere, fun id known => ?_⟩,
    ⟨fun _ _ => rfl, fun _ _ => rfl, fun _ _ => rfl, fun _ _ there => there, rfl⟩, ?_,
    fun other beside => beside_of_blind (fun _ _ _ => rfl) beside⟩
  · rw [there]
    split
    · exact avoids
    · exact hides.list id free
  · simpa using Nat.lt_succ_of_lt (hides.listThere id known)
  · rintro id ⟨⟩ known
    exact Nat.lt_irrefl _ (hides.listThere _ known)

theorem heeds_newObject {v : Value} (avoids : v.Avoids hidden) : (newObject v).Heeds hidden (Value.Avoids hidden) :=
  .ite (heeds_pure avoids) ((heeds_newDatum avoids).bind fun _ outside => heeds_pure (Value.avoids_object.mpr outside))

end Run

end FirstSeen
