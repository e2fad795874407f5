import FirstSeen.Proofs.History.Company
import FirstSeen.Proofs.History.Running
import FirstSeen.Proofs.Merging

/-!
# Acts

An *act* is a run in a store, told with its player and with the sequences that are its own. Whatever is asked of a run
comes to what comes of it for its player, and is confined to what is the run's own. So acts that share nothing leave each
other as they are, and go on sharing nothing.
-/

set_option autoImplicit false

namespace FirstSeen

namespace Store

variable {first store after : Store} {u : SequenceId} {d : Value}

/-! ## What a run was begun as -/

/-- Whether a run can be begun as this: with distinct steps whose keys are pure, on raw data that can be iterated
again. -/
structure Casts (store : Store) (role : Role) : Prop where
  sound : ∀ multi, ∀ step ∈ role.steps, store.SoundStep Item.Plain multi step
  raw : store.Raw role.data
  again : store.Restartable role.data

/-- Raw data that can be iterated again back their sequences for ever. -/
theorem Raw.backs_onward (raw : first.Raw d) (again : first.Restartable d) (grows : first.Grows store)
    (calls : ∀ id, first.callsOf id ≤ store.callsOf id) :
    store.Backs Item.Plain none (first.groundBody d) (first.originOf d) := by
  have repeats := raw.repeats again
  have feed : (first.groundBody d).feed = none := by
    rw [groundBody]
    split <;> rfl
  have aside : first.Backs Item.Plain none (first.groundBody d) ((first.originOf d).keeping (first.originOf d).kept) :=
    (backs_of_raw raw raw.within).setAside none repeats fun k found => by cases found
  refine aside.onward repeats grows calls fun k tape held => ?_
  rw [feed] at held
  cases held

/-- The chain of a run that can be begun repeats its openings. -/
theorem Casts.repeats_chain {role : Role} (casts : store.Casts role) : (role.chain store).Repeats :=
  Tower.repeats_filters (show (Tower.ground {} (store.originOf role.data)).Repeats from casts.raw.repeats casts.again)

/-- Whether a sequence is a pipeline of these steps on an input. -/
structure Embodies (store : Store) (p : SequenceId) (multi : Bool) (steps : List Value) (input : Value) : Prop where
  inside : p.index < store.sequences.size
  flag : (store.sequence p).multiValue = multi
  form : ∃ listed kept, (store.sequence p).body = .pipeline listed input kept ∧ listed.index < store.lists.size ∧
    store.list listed = steps

variable {p : SequenceId} {multi : Bool} {steps : List Value} {input : Value} {role : Role}

theorem Embodies.later (embodies : store.Embodies p multi steps input) (grows : store.Grows after)
    (size : store.sequences.size ≤ after.sequences.size)
    (flag : (after.sequence p).multiValue = (store.sequence p).multiValue)
    (shape : (after.sequence p).body.shape = (store.sequence p).body.shape) : after.Embodies p multi steps input := by
  obtain ⟨inside, flag', listed, kept, form, among, same⟩ := embodies
  obtain ⟨more, lists⟩ := grows.lists
  rw [form] at shape
  cases here : (after.sequence p).body <;> rw [here] at shape <;> cases shape
  exact ⟨Nat.lt_of_lt_of_le inside size, flag.trans flag', listed, _, here, by rw [lists, Array.size_append]; omega,
    (grows.list among).trans same⟩

/-- A pipeline without an input can be run on data as ever. -/
theorem Embodies.runnable (embodies : first.Embodies u role.multi role.steps .null) (casts : first.Casts role)
    (retains : first.Retains store) (calls : ∀ id, first.callsOf id ≤ store.callsOf id) :
    store.Runnable Item.Plain none role.multi u (role.steps.map (first.ruleOfStep role.multi)) role.data
      (first.originOf role.data) := by
  obtain ⟨inside, flag, listed, kept, form, among, same⟩ := embodies
  have here := retains.sequence inside
  have lists : first.Lists Item.Plain role.multi listed (role.steps.map (first.ruleOfStep role.multi)) :=
    ⟨among, by rw [same]; exact casts.sound role.multi, by rw [same]⟩
  exact ⟨by rw [here, flag], ⟨listed, kept, by rw [here, form], lists.later retains.grows⟩, casts.raw.bound,
    ⟨first.groundBody role.data, fun later grows => from?_toSequence casts.raw role.multi (retains.grows.trans grows),
      casts.raw.backs_onward casts.again retains.grows calls⟩, rfl⟩

end Store

/-! ## Acts -/

/-- The streams that are a run's own. -/
def Member.Owns : Member → CursorId → Prop
  | pipeline _ streams, k => k ∈ streams
  | call .., _ => False
  | stream k, other => other = k

/-- Whether a run in a store is where a player is, with these sequences of its own. A stream that was not begun yet, and
a call, have none. -/
inductive Enacts (first store : Store) : Member → Player → List SequenceId → Prop
  | pipeline {p : SequenceId} {streams : List CursorId} {ids : List SequenceId} {role : Role} {scene : Scene}
      (kind : role.kind = .pipeline)
      (follows : (Session.mk store streams).FollowsAs (fun store => store.Counts Item.Plain none role.multi p ids)
        (fun _ => True) p scene)
      (repeats : scene.tower.Repeats) (high : scene.tower.height = role.steps.length + 2)
      (embodies : store.Embodies p role.multi role.steps role.data) :
      Enacts first store (.pipeline p streams) ⟨role, scene⟩ ids
  | call {u : SequenceId} {role : Role} (kind : role.kind = .call)
      (embodies : first.Embodies u role.multi role.steps .null) :
      Enacts first store (.call u role.data) ⟨role, ⟨role.chain first, []⟩⟩ []
  | fresh {u : SequenceId} {k : CursorId} {role : Role} (kind : role.kind = .stream)
      (embodies : first.Embodies u role.multi role.steps .null) (here : store.cursor k = .streaming u role.data .fresh) :
      Enacts first store (.stream k) ⟨role, ⟨role.chain first, [.fresh]⟩⟩ []
  | stream {u out : SequenceId} {k : CursorId} {ids : List SequenceId} {role : Role} {scene : Scene}
      (kind : role.kind = .stream) (streams : store.Streams Item.Plain none role.multi k u role.data out ids scene)
      (repeats : scene.tower.Repeats) : Enacts first store (.stream k) ⟨role, scene⟩ ids

namespace Enacts

variable {first store after : Store} {member : Member} {player : Player} {ids more others : List SequenceId} {n : Nat}
  {k : CursorId}

/-! ### What an act has -/

theorem inside (enacts : Enacts first store member player ids) : ∀ id ∈ ids, id.index < store.sequences.size := by
  cases enacts with
  | pipeline kind follows repeats high embodies => exact follows.holds.inside
  | call kind embodies | fresh kind embodies here => simp
  | stream kind streams repeats => exact streams.stands.inside

theorem plays_held (enacts : Enacts first store member player ids) (held : store.HeldBy ids k) :
    ∃ tape, store.Plays Item.Plain k tape := by
  cases enacts with
  | pipeline kind follows repeats high embodies => exact follows.holds.plays_held held
  | call kind embodies | fresh kind embodies here => simp [Store.HeldBy] at held
  | stream kind streams repeats => exact streams.stands.plays_held held

/-- The streams of a run are streams. -/
theorem isStream (enacts : Enacts first store member player ids) (owns : member.Owns k) : (store.cursor k).isStream := by
  cases enacts with
  | pipeline kind follows repeats high embodies =>
    obtain ⟨i, there⟩ := List.getElem?_of_mem owns
    obtain ⟨course, found⟩ : ∃ course, _ = some course := ⟨_, List.getElem?_eq_getElem (follows.many ▸
      (List.getElem?_eq_some_iff.mp there).1)⟩
    rw [follows.courses i k course there found]
    rfl
  | call kind embodies => exact owns.elim
  | fresh kind embodies here =>
    obtain rfl : k = _ := owns
    rw [here]
    rfl
  | stream kind streams repeats =>
    obtain rfl : k = _ := owns
    cases streams with
    | drawing here stands | spent here stands =>
      rw [here]
      rfl

/-- An act whose sequences are not moved, and whose streams did not move, is where it was. -/
theorem onward (enacts : Enacts first store member player ids) (undisturbed : store.Undisturbed Item.Plain ids after)
    (still : ∀ k, member.Owns k → after.cursor k = store.cursor k) : Enacts first after member player ids := by
  cases enacts with
  | pipeline kind follows repeats high embodies =>
    have here := undisturbed.same _ follows.holds.mem
    refine .pipeline kind ⟨follows.holds.onward repeats undisturbed, follows.many, follows.apart, follows.own,
      fun i k course there found => ?_⟩ repeats high (embodies.later undisturbed.grows undisturbed.size (by rw [here])
      (by rw [here]))
    rw [still k (List.mem_of_getElem? there), follows.courses i k course there found]
  | call kind embodies => exact .call kind embodies
  | fresh kind embodies here => exact .fresh kind embodies (by rw [still _ rfl, here])
  | stream kind streams repeats =>
    cases streams with
    | drawing here stands =>
      exact .stream kind (.drawing (by rw [still _ rfl, here]) (stands.onward repeats undisturbed)) repeats
    | spent here stands =>
      exact .stream kind (.spent (by rw [still _ rfl, here]) (stands.onward repeats undisturbed)) repeats

end Enacts

/-! ## Asking -/

/-- A store in which an act has gone on, confined to what was its own. Streams that it has then and had not before were
no streams. -/
structure Moves (first store : Store) (own : CursorId → Prop) (ids : List SequenceId) (after : Store) (member : Member)
    (player : Player) (more : List SequenceId) : Prop where
  enacts : Enacts first after member player more
  confined : store.Confined Item.Plain ids more own after
  owns : ∀ k, member.Owns k → own k ∨ (store.cursor k).isStream = false

/-- Whether what was asked of an act came to what it came to for its player: nothing for lack of fuel, or what is seen
and an act that has gone on. -/
def ActsLike (first store : Store) (own : CursorId → Prop) (ids : List SequenceId)
    (result : Option (Outcome × Member × Store)) : Option (Outcome × Player) → Prop
  | none => result = none
  | some (seen, left) => ∃ member after more, result = some (seen, member, after) ∧
      Moves first store own ids after member left more

variable {first store : Store} {member : Member} {player : Player} {ids : List SequenceId} {own : CursorId → Prop}
  {n : Nat}

/-- What ended as a step does is seen so of an act. -/
theorem actsLike_of_ends {ending : Except Halt (Answer Value) × Store}
    {told : Option (Except Fault (Answer Item) × Scene)}
    (ends : Store.EndsLike (fun after => after.TellsAnswer Item.Plain)
      (fun after left => ∃ more, Moves first store own ids after member (player.within left) more) ending told) :
    ActsLike first store own ids (member.seen ending)
      (told.map fun asked => (Player.outcome asked.1, player.within asked.2)) := by
  obtain ⟨ended, after⟩ := ending
  rcases told with _ | ⟨answer, left⟩
  · obtain rfl : ended = .error .outOfFuel := ends
    rfl
  · obtain ⟨agrees, more, moves⟩ := ends
    refine ⟨member, after, more, ?_, moves⟩
    rcases answer with fault | answer <;> rcases ended with halt | ended
    · obtain rfl : halt = .fault fault := agrees
      rfl
    · exact agrees.elim
    · exact agrees.elim
    · simp only [Member.seen, Player.outcome, Except.map, Store.TellsAnswer.contents agrees]

/-- What an act hands on ended as a step does is seen so of the act. -/
theorem actsLike_of_run {α β σ : Type} {run : Run α} {tells : Store → α → β → Prop} {rel : Store → σ → Prop}
    {told : Option (Except Fault β × σ)} (ends : Store.EndsLike tells rel (run.from? store) told)
    (f : α → Answer Value) (g : β → Answer Item) (around : σ → Scene)
    (answers : ∀ after a b, tells after a b → after.TellsAnswer Item.Plain (f a) (g b))
    (moves : ∀ left, rel (run.from? store).2 left →
      ∃ more, Moves first store own ids (run.from? store).2 member (player.within (around left)) more) :
    ActsLike first store own ids (member.seen ((f <$> run).from? store))
      ((told.map fun drawn => (drawn.1.map g, around drawn.2)).map fun asked =>
        (Player.outcome asked.1, player.within asked.2)) := by
  rw [Run.from?_map]
  exact actsLike_of_ends (ends.map around (answers _) moves)

namespace Enacts

/-- An act that is asked nothing stays where it is. -/
theorem stays (enacts : Enacts first store member player ids) :
    Moves first store member.Owns ids store member player ids :=
  ⟨enacts, ⟨.refl ids _ store, .refl store ids, fun _ _ plays apart => ⟨plays, apart⟩, fun _ => Nat.le_refl _⟩,
    fun _ owns => .inl owns⟩

/-- An act that cannot be asked something answers nothing. -/
theorem idle (enacts : Enacts first store member player ids) :
    ActsLike first store member.Owns ids (member.seen (.ok .nothing, store))
      (some (Player.outcome (.ok .nothing), player)) :=
  ⟨member, store, ids, rfl, enacts.stays⟩

/-- What is asked of a pipeline. -/
theorem ask_pipeline {p : SequenceId} {streams : List CursorId}
    (enacts : Enacts first store (.pipeline p streams) player ids) (deep : 4 * player.role.steps.length + 10 ≤ n)
    (op : Op) :
    ActsLike first store (Member.pipeline p streams).Owns ids ((Member.pipeline p streams).perform n op store)
      (player.perform n op) := by
  cases enacts with
  | @pipeline _ _ _ role scene kind follows repeats high embodies =>
    have performed := Session.perform_confined op follows repeats (n := n) (by simp only at deep; omega)
    rw [Player.perform, kind]
    simp only [Member.perform]
    rcases told : scene.perform role.multi n op with _ | ⟨answer, left⟩ <;> rw [told] at performed
    · rw [show Session.perform n p op ⟨store, streams⟩ = none from performed]
      rfl
    · obtain ⟨after, ends, ⟨more, follows', confined, owns⟩, grows⟩ := performed
      have led : Store.Led role.multi .abstract ⟨0⟩ .null p store after.store := Session.led_perform ends
      have inside := embodies.inside
      rw [ends]
      refine ⟨_, _, more, rfl, .pipeline kind follows' ?_ ?_ (embodies.later grows confined.size
        (led.1.flag p inside) (led.1.shape p inside)), confined, owns⟩
      · exact Scene.perform_keeps Tower.steady_repeats repeats told
      · exact (Scene.perform_keeps (Tower.steady_height _) rfl told).trans high

/-- What is asked of a call. -/
theorem ask_call {u : SequenceId} {d : Value} (enacts : Enacts first store (.call u d) player ids)
    (casts : first.Casts player.role) (retains : first.Retains store)
    (calls : ∀ id, first.callsOf id ≤ store.callsOf id) (deep : 4 * player.role.steps.length + 10 ≤ n) (op : Op) :
    ActsLike first store (Member.call u d).Owns ids ((Member.call u d).perform n op store) (player.perform n op) := by
  have idle := enacts.idle
  cases enacts with
  | @call _ role kind embodies =>
    rw [Player.perform, kind]
    cases op with
    | collect =>
      have collected := (embodies.runnable casts retains calls).collect (casts.raw.repeats casts.again) (n := n) (by
        simp only [List.length_map] at deep ⊢
        omega)
      exact actsLike_of_run collected .elements .elements (fun _ => ⟨role.chain first, []⟩) (fun _ _ _ told => told)
        fun _ confined => ⟨[], .call kind embodies, confined, fun _ owns => .inl owns⟩
    | _ => exact idle

/-- A stream is asked as its scene says, and flows. -/
theorem draws {k : CursorId} (enacts : Enacts first store (.stream k) player ids) (casts : first.Casts player.role)
    (retains : first.Retains store) (calls : ∀ id, first.callsOf id ≤ store.callsOf id) :
    ∃ u phase, store.cursor k = .streaming u player.role.data phase ∧ ∀ m, player.role.steps.length + 3 ≤ m →
      Store.EndsLike (fun after v item => after.Shows Item.Plain item v)
        (fun after left => after.Flows Item.Plain player.role.multi k u player.role.data ids store left ∧
          store.Grows after)
        (((FirstSeen.calls m).advance k).from? store) (player.scene.advance 0 m) := by
  cases enacts with
  | @fresh u _ role kind embodies here =>
    exact ⟨u, .fresh, here, fun m deep => (embodies.runnable casts retains calls).advance
      (casts.raw.repeats casts.again) here (by simpa using deep)⟩
  | @stream u _ _ _ role scene kind streams repeats =>
    have here : ∃ phase, store.cursor k = .streaming u role.data phase := by
      cases streams with
      | drawing here stands | spent here stands => exact ⟨_, here⟩
    obtain ⟨phase, here⟩ := here
    exact ⟨u, phase, here, fun m _ => (streams.flows repeats).advance m⟩

/-- A stream that flows has gone on. -/
theorem moves_of_flows {after : Store} {k : CursorId} {u : SequenceId} {role : Role} {left : Scene}
    (kind : role.kind = .stream) (calls : ∀ id, store.callsOf id ≤ after.callsOf id)
    (flows : after.Flows Item.Plain role.multi k u role.data ids store left) :
    ∃ more, Moves first store (Member.stream k).Owns ids after (.stream k) ⟨role, left⟩ more := by
  obtain ⟨out, more, streams, repeats, confined⟩ := flows.confined calls
  exact ⟨more, .stream kind streams repeats, confined, fun _ owns => .inl owns⟩

/-- What is asked of a stream. -/
theorem ask_stream {k : CursorId} (enacts : Enacts first store (.stream k) player ids) (casts : first.Casts player.role)
    (retains : first.Retains store) (calls : ∀ id, first.callsOf id ≤ store.callsOf id)
    (deep : 4 * player.role.steps.length + 10 ≤ n) (op : Op) :
    ActsLike first store (Member.stream k).Owns ids ((Member.stream k).perform n op store) (player.perform n op) := by
  have kind : player.role.kind = .stream := by cases enacts <;> assumption
  obtain ⟨u, phase, here, draws⟩ := enacts.draws casts retains calls
  have led : ∀ {α : Type} {run : Run α}, run.Keeps (Store.Led player.role.multi .abstract ⟨0⟩ .null ⟨0⟩) →
      ∀ id, store.callsOf id ≤ (run.from? store).2.callsOf id := fun keeps => (keeps store).1.callsOf
  have leads := Calls.leads_calls player.role.multi .abstract ⟨0⟩ .null ⟨0⟩
  rw [Player.perform, kind]
  cases op with
  | pull i =>
    exact actsLike_of_run (draws n (by omega)) .element .element id (fun _ _ _ told => told)
      fun _ flows => moves_of_flows kind (led ((leads n).advance k)) flows.1
  | drain i =>
    obtain ⟨n, rfl⟩ : ∃ m, n = m + 1 := ⟨n - 1, by omega⟩
    exact actsLike_of_run (Store.listOf_flows here (draws n (by omega))) .elements .elements id (fun _ _ _ told => told)
      fun _ flows => moves_of_flows kind (led ((leads (n + 1)).obeys.listOf _)) flows
  | _ => exact enacts.idle

/-- Whatever is asked of an act comes to what it comes to for its player, and is confined to the act's own. -/
theorem ask (enacts : Enacts first store member player ids) (casts : first.Casts player.role)
    (retains : first.Retains store) (calls : ∀ id, first.callsOf id ≤ store.callsOf id)
    (deep : 4 * player.role.steps.length + 10 ≤ n) (op : Op) :
    ActsLike first store member.Owns ids (member.perform n op store) (player.perform n op) := by
  cases member with
  | pipeline p streams => exact enacts.ask_pipeline deep op
  | call u d => exact enacts.ask_call casts retains calls deep op
  | stream k => exact enacts.ask_stream casts retains calls deep op

end Enacts

/-! ## Acts side by side -/

/-- Whether a run shares no sequence, no iterator and no stream with another one. -/
structure Parted (store : Store) (ids : List SequenceId) (own : CursorId → Prop) (others : List SequenceId)
    (own' : CursorId → Prop) : Prop where
  apart : ∀ id ∈ others, id ∉ ids
  held : ∀ k, store.HeldBy others k → ¬ store.HeldBy ids k
  owns : ∀ k, own' k → ¬ own k

theorem Parted.symm {others : List SequenceId} {own' : CursorId → Prop} (parted : Parted store ids own others own') :
    Parted store others own' ids own :=
  ⟨fun id member member' => parted.apart id member' member, fun k held held' => parted.held k held' held,
    fun k owns owns' => parted.owns k owns' owns⟩

/-- Sequences that did not change share no more than they did. -/
theorem Parted.onward {after : Store} {others : List SequenceId} {own' : CursorId → Prop}
    (parted : Parted store ids own others own') (same : ∀ id ∈ ids, after.sequence id = store.sequence id)
    (same' : ∀ id ∈ others, after.sequence id = store.sequence id) : Parted after ids own others own' :=
  ⟨parted.apart, fun k => by rw [Store.heldBy_congr same, Store.heldBy_congr same']; exact parted.held k, parted.owns⟩

/-- An act that goes on leaves another one that shares nothing with it, and shares nothing with it afterwards. -/
theorem Moves.beside {after : Store} {more others : List SequenceId} {other : Member} {player' : Player}
    (moves : Moves first store own ids after member player more) (enacts : Enacts first store other player' others)
    (parted : Parted store ids own others other.Owns) :
    Enacts first after other player' others ∧ Parted after more member.Owns others other.Owns := by
  have confined := moves.confined
  have inside := enacts.inside
  refine ⟨enacts.onward (confined.undisturbed inside parted.apart parted.held) fun k owns =>
    confined.streams k (enacts.isStream owns) (parted.owns k owns), ?_, ?_, fun k owns owns' => ?_⟩
  · exact fun id member => confined.widens.apart (parted.apart id member) (inside id member)
  · exact confined.parted inside parted.apart parted.held fun k held => enacts.plays_held held
  · rcases moves.owns k owns' with had | new
    · exact parted.owns k owns had
    · rw [enacts.isStream owns] at new
      cases new

end FirstSeen
