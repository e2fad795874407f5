import FirstSeen.Proofs.Tower.Playing

/-!
# Distinct stages as rules

How a distinct stage judges elements, told without a store: `Store.ruleOf` is the rule of a stage with a
given key and limit. A key function is *sound* on a domain of elements if its answers to them are answers
to their contents alone, whatever was asked before, and are values of their own. The key that a stage
finds for an element that is shown to it is then the one that the rule says, and what it remembers is what
the rule says.
-/

set_option autoImplicit false

namespace FirstSeen

namespace Value

/-- The name of the type of a value that is no object of a store. -/
def plainName (v : Value) : String := v.typeName?.getD "object"

/-- Replacing references keeps how many items a value has, and replaces them in the items. -/
theorem items?_mapRefs {f : Ref → Value} {v : Value} (noObject : v.isObject = false) :
    (v.mapRefs f).items? = v.items?.map (List.map (mapRefs f)) ∧ (v.mapRefs f).length? = v.length? := by
  cases v with
  | object ref => simp [isObject] at noObject
  | list items | tuple items | set items | frozenset items =>
    simp [mapRefs, items?, length?, mapRefsIn_eq]
  | dict entries => simp [mapRefs, items?, length?, mapRefsInEntries_eq, Function.comp_def]
  | str text => simp [mapRefs, items?, length?, characters]
  | bytes content | bytearray content => simp [mapRefs, items?, length?, byteNumbers]
  | range start stop step => simp [mapRefs, items?, length?]
  | _ => simp [mapRefs, items?, length?]

theorem typeName?_mapRefs {f : Ref → Value} {v : Value} (noObject : v.isObject = false) :
    (v.mapRefs f).typeName? = v.typeName? := by
  cases v <;> first | rfl | simp [isObject] at noObject

end Value

namespace Item

/-- Why no room can be made for the items of an element, if it cannot. -/
def roomFault? (item : Item) : Option Fault :=
  if item.boxed then
    match item.contents.length? with
    | none => none
    | some n =>
      if Value.wordLimit ≤ n then some .rangeTooLong
      else if Run.roomLimit ≤ n then some .outOfMemory else none
  else none

/-- The arguments that a key function is given for an element: its items if elements are taken apart. -/
def arguments (multi : Bool) (item : Item) : Except Fault (List Value) :=
  if multi then
    match item.roomFault? with
    | some fault => .error fault
    | none =>
      match item.contents.items? with
      | some items => .ok items
      | none => .error (.notSpreadable "key()" item.contents.plainName)
  else .ok [item.contents]

end Item

/-- What a key function answers to arguments that are no objects of a store, if earlier calls and the
names of other types do not matter. -/
def KeyFunction.answer (key : KeyFunction) (arguments : List Value) : Except Fault Value :=
  key.respond Value.plainName #[] arguments

namespace Store

/-- Whether a key function answers to these arguments from them alone, with a value of its own. -/
def AnswersPurely (store : Store) (id : KeyId) (arguments : List Value) : Prop :=
  (∀ nameOf earlier, (∀ v, v.refs = [] → nameOf v = v.plainName) →
    (store.key id).respond nameOf earlier arguments = (store.key id).answer arguments) ∧
  ∀ k, (store.key id).answer arguments = .ok k → k.refs = []

/-- Whether a key function, after all that it was asked, answers so to these arguments, with a value of its own. -/
structure AnswersNow (store : Store) (id : KeyId) (arguments : List Value) (answer : Except Fault Value) : Prop where
  responds : (store.key id).respond store.typeName (store.key id).history arguments = answer
  own : ∀ k, answer = .ok k → k.refs = []

/-- Whether a key is none at all, or a key function that answers purely to all elements of a domain. -/
def SoundKey (D : Item → Prop) (store : Store) (multi : Bool) (key : Value) : Prop :=
  key = .null ∨ ∃ id, key = .object (.key id) ∧
    ∀ item, D item → ∀ arguments, item.arguments multi = .ok arguments →
      store.AnswersPurely id arguments

theorem SoundKey.form {D : Item → Prop} {store : Store} {multi : Bool} {key : Value}
    (sound : store.SoundKey D multi key) : key = .null ∨ ∃ id, key = .object (.key id) :=
  sound.imp_right fun ⟨id, form, _⟩ => ⟨id, form⟩

/-- What a key answers to an element. -/
def answerTo (store : Store) (multi : Bool) (key : Value) (item : Item) : Except Fault Value :=
  match key with
  | .object (.key id) => do (store.key id).answer (← item.arguments multi)
  | _ => .ok item.contents

/-- How a stage with this key and limit judges elements. -/
def ruleOf (store : Store) (multi : Bool) (key limit : Value) : Rule where
  keyOf item := (store.answerTo multi key item).mapError (Run.insteadOfEnd .keySignalledEnd)
  limit := store.contents limit
  raising := store.raising

variable {D : Item → Prop}

/-- The type of a value that is no object of the store has the name that it has everywhere. -/
theorem typeName_of_refs_nil (store : Store) {v : Value} (plain : v.refs = []) : store.typeName v = v.plainName := by
  cases v <;> first | rfl | simp [Value.refs] at plain

/-- What a key function answers from arguments alone it answers now. -/
theorem AnswersPurely.now {store : Store} {id : KeyId} {arguments : List Value}
    (pure' : store.AnswersPurely id arguments) :
    store.AnswersNow id arguments ((store.key id).answer arguments) :=
  ⟨pure'.1 store.typeName (store.key id).history fun _ => store.typeName_of_refs_nil, pure'.2⟩

/-! ## What stays -/

theorem AnswersPurely.later {before after : Store} {id : KeyId} {arguments : List Value}
    (h : before.AnswersPurely id arguments) (grows : before.Grows after) :
    after.AnswersPurely id arguments := by
  unfold AnswersPurely KeyFunction.answer at h ⊢
  rwa [grows.keys id]

theorem Grows.soundKey {before after : Store} (h : before.Grows after) {multi : Bool} {key : Value}
    (sound : before.SoundKey D multi key) : after.SoundKey D multi key := by
  refine sound.imp_right ?_
  rintro ⟨id, form, pure'⟩
  exact ⟨id, form, fun item domain arguments given => (pure' item domain arguments given).later h⟩

/-- A stage goes on judging as it did. -/
theorem Grows.ruleOf {before after : Store} (h : before.Grows after) {multi : Bool} {key limit : Value}
    (data : before.IsData limit) : after.ruleOf multi key limit = before.ruleOf multi key limit := by
  have answers : ∀ item, after.answerTo multi key item = before.answerTo multi key item := by
    intro item
    unfold answerTo KeyFunction.answer
    split
    · rw [h.keys]
    · rfl
  simp only [Store.ruleOf, answers, h.contents data, h.raising]

/-! ## The contents of an element -/

/-- What is iterated out of a value, its lists and unchanging objects being looked up. -/
def itemsHeld (store : Store) (v : Value) : Option (List Value) :=
  match v with
  | .object (.list id) => some (store.list id)
  | _ => (store.plain v).items?

/-- The contents of a value that is no reference tell its items, its length and its type. -/
theorem contentsTo_parts {store : Store} {depth : Nat} {v : Value} (noObject : v.isObject = false)
    (data : store.DataTo depth v) (bounded : depth ≤ store.data.size + store.lists.size + 1) :
    (store.contentsTo depth v).items? = v.items?.map (List.map store.contents) ∧
      (store.contentsTo depth v).length? = v.length? ∧
      (store.contentsTo depth v).typeName? = v.typeName? := by
  have deep := dataTo_mono bounded data
  rw [← deep.2, contentsTo]
  exact ⟨(Value.items?_mapRefs noObject).1, (Value.items?_mapRefs noObject).2, Value.typeName?_mapRefs noObject⟩

/-- The contents of data tell its items, its length if it is an unchanging object, and its type. -/
theorem contents_parts {store : Store} {v : Value} (data : store.IsData v) :
    (store.contents v).items? = (store.itemsHeld v).map (List.map store.contents) ∧
    (v.isDatum → (store.contents v).length? = (store.plain v).length?) ∧
    (store.contents v).plainName = store.typeName v := by
  cases v with
  | object ref =>
    have held := data ref (by simp [Value.refs])
    cases ref with
    | datum id =>
      obtain ⟨items, length, name⟩ := contentsTo_parts held.2.1 held.2.2 (by omega)
      refine ⟨items, fun _ => length, ?_⟩
      change ((store.contentsTo _ (store.datum id)).typeName?).getD "object" = _
      rw [name]
      rfl
    | list id =>
      refine ⟨?_, by simp [Value.isDatum], rfl⟩
      exact congrArg some
        (List.map_congr_left fun item member => (dataTo_succ (held.2 item member)).2.symm)
    | _ => exact held.elim
  | _ =>
    obtain ⟨items, length, name⟩ := contentsTo_parts (v := _) rfl data (Nat.le_refl _)
    exact ⟨items, by simp [Value.isDatum], by rw [Value.plainName, contents, name]; rfl⟩

/-! ## Asking a key function -/

/-- Making room for the items of an element fails as the element says. -/
theorem from?_makeRoom {store : Store} {item : Item} {id : DatumId}
    (shows' : store.Shows D item (.object (.datum id))) :
    (Run.makeRoom (.object (.datum id))).from? store = (ending item.roomFault?, store) := by
  have boxed : item.boxed = true := shows'.boxed.symm
  have length := (contents_parts shows'.data).2.1 rfl
  rw [shows'.contents] at length
  have asked : (Run.remainingOf (.object (.datum id))).from? store =
      match item.contents.length? with
      | none => (.ok .null, store)
      | some n => (Run.wordLength n).from? store := by
    rw [length]
    simp only [Run.remainingOf, Run.lengthOf, Run.from?_bind, Run.from?_plain]
    cases (store.plain (.object (.datum id))).length? <;> rfl
  rw [Run.makeRoom, Run.from?_bind, Run.from?_onFault, asked]
  simp only [Item.roomFault?, boxed, if_true]
  cases item.contents.length? with
  | none => rfl
  | some n =>
    simp only [Run.wordLength, Run.from?_ite]
    by_cases word : Value.wordLimit ≤ n
    · simp only [if_pos word]
      rfl
    · by_cases room : Run.roomLimit ≤ n
      · simp only [if_neg word, if_pos room, Value.ofNat, Run.from?_pure]
        rfl
      · simp only [if_neg word, if_neg room, Value.ofNat, Run.from?_pure]
        rfl

/-- The items of an element that is shown, or why there is no room for them. -/
theorem from?_itemsOf? {store : Store} {item : Item} {v : Value} (c : Calls)
    (shows' : store.Shows D item v) :
    (c.itemsOf? v).from? store =
      match item.roomFault? with
      | some fault => (.error (.fault fault), store)
      | none => (.ok (store.itemsHeld v), store) := by
  have unboxed : v.isDatum = false → item.roomFault? = none := by
    intro noDatum
    simp [Item.roomFault?, ← shows'.boxed, noDatum]
  cases v with
  | object ref =>
    have held := shows'.data ref (by simp [Value.refs])
    cases ref with
    | datum id =>
      rw [Calls.itemsOf?, Run.from?_bind, from?_makeRoom shows']
      cases item.roomFault? <;> rfl
    | list id =>
      rw [unboxed rfl]
      rfl
    | _ => exact held.elim
  | _ =>
    rw [unboxed rfl]
    rfl

/-- Whether a run found the key that was to be found: an object with these contents, or this fault. -/
def FindsKey (store : Store) (ended : Except Halt Value) (answer : Except Fault Value) : Prop :=
  match answer with
  | .ok k => ∃ w, ended = .ok w ∧ store.contents w = k
  | .error fault => ended = .error (.fault fault)

/-- A key function that is called answers as it does now. -/
theorem from?_callKey {store : Store} {id : KeyId} {arguments : List Value} {answer : Except Fault Value}
    (now : store.AnswersNow id (arguments.map store.contents) answer) :
    ∃ after, (Run.call (.object (.key id)) arguments).from? store = (answer.mapError Halt.fault, after) ∧
      store.Adds after := by
  refine ⟨{ store with
      keys := store.keys.modify id.index fun key =>
        { key with history := key.history.push (arguments.map store.contents) } }, ?_,
    ⟨⟨#[], by simp⟩, ⟨#[], by simp⟩, rfl, rfl, fun other => ?_, rfl, Nat.le_refl _⟩, rfl, rfl, rfl⟩
  · change (Run.callKey id arguments).from? store = _
    rw [Run.callKey, Run.from?_bind_ok (Run.from?_view ..)]
    simp only [Run.answerOf, now.responds]
    exact Run.from?_ofExcept _ _
  · simp only [Store.key, Array.getD_eq_getD_getElem?, Array.getElem?_modify]
    split
    · cases store.keys[other.index]? <;> rfl
    · rfl

/-- What a key function answers is found. -/
theorem call_finds {store : Store} {id : KeyId} {arguments : List Value} {answer : Except Fault Value}
    (now : store.AnswersNow id (arguments.map store.contents) answer) :
    ∃ ended after, (Run.call (.object (.key id)) arguments).from? store = (ended, after) ∧
      after.FindsKey ended answer ∧ store.Adds after := by
  obtain ⟨after, ends, adds⟩ := from?_callKey now
  refine ⟨_, after, ends, ?_, adds⟩
  cases answered : answer with
  | error fault => rfl
  | ok k => exact ⟨k, rfl, contents_of_refs_nil (now.own k answered)⟩

section Finding

variable {store : Store} {multi : Bool} {v : Value} {item : Item}

/-- A key function is asked for an element as its arguments say. -/
theorem callKeyOn_finds {id : KeyId} {answer : List Value → Except Fault Value} (c : Calls)
    (shows' : store.Shows D item v)
    (now : ∀ arguments, item.arguments multi = .ok arguments → store.AnswersNow id arguments (answer arguments)) :
    ∃ ended after, (c.callKeyOn (.object (.key id)) multi v).from? store = (ended, after) ∧
      after.FindsKey ended (item.arguments multi >>= answer) ∧ store.Adds after := by
  have contents := shows'.contents
  obtain ⟨items, -, name⟩ := contents_parts shows'.data
  rw [contents] at items name
  cases multi with
  | false =>
    have given : [v].map store.contents = [item.contents] := by simp [contents]
    have answers : store.AnswersNow id ([v].map store.contents) (answer [item.contents]) := by
      rw [given]
      exact now _ rfl
    exact call_finds answers
  | true =>
    have asked := from?_itemsOf? c shows'
    cases room : item.roomFault? with
    | some fault =>
      rw [room] at asked
      refine ⟨_, store, Run.from?_bind_error asked, ?_, .refl store⟩
      simp [Item.arguments, room, FindsKey, Bind.bind, Except.bind]
    | none =>
      rw [room] at asked
      cases spread : store.itemsHeld v with
      | none =>
        rw [spread] at asked items
        refine ⟨.error (.fault (.notSpreadable "key()" item.contents.plainName)), store, ?_, ?_,
          .refl store⟩
        · rw [name]
          exact Run.from?_bind_ok asked
        · simp only [Item.arguments, room, items]
          rfl
      | some all =>
        rw [spread] at asked items
        have given : item.arguments true = .ok (all.map store.contents) := by
          simp only [Item.arguments, room, items]
          rfl
        obtain ⟨ended, after, ends, finds, adds⟩ := call_finds (now _ given)
        refine ⟨ended, after, (Run.from?_bind_ok asked).trans ends, ?_, adds⟩
        rw [given]
        exact finds

/-- The key that a stage finds for an element is what its key function answers now, but that an end is another
fault. -/
theorem keyFor_answers {id : KeyId} {answer : List Value → Except Fault Value} (c : Calls)
    (shows' : store.Shows D item v)
    (now : ∀ arguments, item.arguments multi = .ok arguments → store.AnswersNow id arguments (answer arguments)) :
    ∃ ended after, (c.keyFor (.object (.key id)) multi v).from? store = (ended, after) ∧
      after.FindsKey ended ((item.arguments multi >>= answer).mapError (Run.insteadOfEnd .keySignalledEnd)) ∧
      store.Adds after := by
  obtain ⟨ended, after, ends, finds, adds⟩ := callKeyOn_finds c shows' now
  rw [Calls.keyFor, if_neg (by simp [Value.isNull]), Run.from?_onFault, ends]
  cases answered : item.arguments multi >>= answer with
  | error fault =>
    rw [answered] at finds
    obtain rfl : ended = .error (.fault fault) := finds
    exact ⟨_, after, rfl, rfl, adds⟩
  | ok k =>
    rw [answered] at finds
    obtain ⟨w, rfl, found⟩ := finds
    exact ⟨.ok w, after, rfl, ⟨w, rfl, found⟩, adds⟩

/-- The key that a stage finds for an element that is shown to it is the one that its rule says. -/
theorem keyFor_finds {key : Value} (c : Calls) (limit : Value) (sound : store.SoundKey D multi key)
    (shows' : store.Shows D item v) :
    ∃ ended after, (c.keyFor key multi v).from? store = (ended, after) ∧
      after.FindsKey ended ((store.ruleOf multi key limit).keyOf item) ∧ store.Adds after := by
  rcases sound with rfl | ⟨id, rfl, pure'⟩
  · exact ⟨.ok v, store, rfl, ⟨v, rfl, shows'.contents⟩, .refl store⟩
  · exact keyFor_answers c shows' fun arguments given => (pure' item shows'.domain arguments given).now

end Finding

/-! ## Remembering -/

/-- Telling what recording a key had to tell only writes into the journal. -/
theorem from?_tellSeen (id : SequenceId) (key : Value) (notices : List SeenNotice) (store : Store) :
    ∃ journal, (Run.tellSeen id key notices).from? store =
      (.ok (), { store with journal := journal }) := by
  induction notices generalizing store with
  | nil => exact ⟨store.journal, rfl⟩
  | cons notice rest ih =>
    cases notice with
    | listLookup =>
      obtain ⟨journal, ends⟩ := ih { store with
        journal := store.journal.push (.listLookup id (store.typeName key)) }
      exact ⟨journal, ends⟩
    | limitReached =>
      obtain ⟨journal, ends⟩ := ih { store with journal := store.journal.push (.limitReached id) }
      exact ⟨journal, ends⟩

/-- A stage remembers a key as recording its contents says. -/
theorem from?_remember {store : Store} {id supply : SequenceId} {keyFunction limit : Value}
    {seen : Seen} (key : Value) (body : (store.sequence id).body = .distinct supply keyFunction limit seen) :
    let recording := seen.record (store.contents limit) store.raising (store.contents key)
    ∃ journal, (Run.remember id key).from? store =
      (recording.outcome.mapError Halt.fault, { store with
        sequences := store.sequences.modify id.index fun state =>
          { state with body := .distinct supply keyFunction limit recording.seen },
        journal := journal }) := by
  intro recording
  obtain ⟨journal, ends⟩ := from?_tellSeen id key recording.notices { store with
    sequences := store.sequences.modify id.index fun state =>
      { state with body := .distinct supply keyFunction limit recording.seen } }
  refine ⟨journal, ?_⟩
  rw [Run.remember, Run.from?_bind_ok (Run.from?_sequence id store), body]
  simp only
  rw [Run.from?_bind_ok (Run.from?_contents ..), Run.from?_bind_ok (Run.from?_view ..),
    Run.from?_bind_ok (Run.from?_contents ..), Run.from?_bind_ok (Run.from?_setBody ..),
    Run.from?_bind_ok ends, Run.from?_ofExcept]

end Store

end FirstSeen
