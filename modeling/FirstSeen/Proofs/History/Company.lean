import FirstSeen.Chaining
import FirstSeen.Proofs.History.Session
import FirstSeen.Proofs.Tower.Building
import FirstSeen.Proofs.Tower.Raw

/-!
# Companies

Several runs that go on side by side in one store. A run is a pipeline that is bound to data, a call that collects a
pipeline without an input on data, or a stream of such a pipeline on data. A *company* is a store with the runs that were
begun in it; a *cast* is the same told without a store, with a player for each run. In both, runs are begun and asked in
any order: a pipeline may be derived from that of a run, whatever was asked of that run before.

In a cast each player has a scene of its own, which nobody else sees. So what is seen of a player is told by what it was
begun as and by what is asked of it: `Cast.outcomes_tour` takes a player out of a tour of its cast, and
`Cast.tour_alone` puts it into a tour in which nobody else is asked.
-/

set_option autoImplicit false

namespace FirstSeen

/-- What happens to a company. Runs are numbered in the order in which they are begun. -/
inductive Turn where
  /-- A new run: a part of a chain, bound to data. Whether elements are taken apart is as given, or else as the part
  says. -/
  | bind (part data : Value) (multi : Option Bool)
  /-- A new run: the pipeline of a run, joined with what comes after it. Nothing, if that run is no pipeline. -/
  | derive (i : Nat) (part : Value)
  /-- A new run: a pipeline without an input, which is collected on data. -/
  | call (u : SequenceId) (data : Value)
  /-- A new run: a stream of a pipeline without an input on data. -/
  | stream (u : SequenceId) (data : Value)
  /-- An operation, asked of a run. -/
  | ask (i : Nat) (op : Op)

namespace Turn

/-- Which run is asked, and what. -/
def asked? : Turn → Option (Nat × Op)
  | ask i op => some (i, op)
  | _ => none

/-- What is asked of a run, if that is one of so many runs. -/
def asks (i many : Nat) (turn : Turn) : List Op :=
  match turn.asked? with
  | some (j, op) => if j = i ∧ i < many then [op] else []
  | none => []

/-- Whether no other run is asked. -/
def concerns (i : Nat) (turn : Turn) : Bool := turn.asked?.all (·.1 = i)

theorem asked_of_concerns {i j : Nat} {op : Op} {turn : Turn} (concerns : turn.concerns i)
    (asked : turn.asked? = some (j, op)) : j = i := by
  simpa [Turn.concerns, asked] using concerns

end Turn

/-! ## In a store -/

/-- A run in a store. -/
inductive Member where
  /-- A pipeline, with the streams that were made of it. -/
  | pipeline (p : SequenceId) (streams : List CursorId)
  | call (u : SequenceId) (data : Value)
  | stream (k : CursorId)

namespace Member

/-- What a run other than a pipeline answers: a call, all elements, and a stream, the next element or all further ones.
Nothing else can be asked of them. -/
def answer (c : Calls) (op : Op) : Member → Run (Answer Value)
  | call u data =>
    match op with
    | .collect => do return .elements (← c.collect u data)
    | _ => return .nothing
  | stream k =>
    match op with
    | .pull _ => do return .element (← c.advance k)
    | .drain _ => do return .elements (← c.listOf (.ofCursor k))
    | _ => return .nothing
  | pipeline .. => return .nothing

/-- What is seen of a run other than a pipeline when it has ended. Where a run is can be seen of pipelines only. -/
def seen (member : Member) : Except Halt (Answer Value) × Store → Option (Outcome × Member × Store)
  | (.error .outOfFuel, _) => none
  | (.error (.fault fault), after) => some (⟨.error fault, false, false⟩, member, after)
  | (.ok answer, after) => some (⟨.ok (answer.map after.contents), false, false⟩, member, after)

/-- Performs an operation of a run, unless it is out of fuel: what is seen, and the run and the store afterwards. -/
def perform (n : Nat) (op : Op) (store : Store) (member : Member) : Option (Outcome × Member × Store) :=
  match member with
  | pipeline p streams => (Session.perform n p op ⟨store, streams⟩).map fun performed =>
    (performed.1, pipeline p performed.2.streams, performed.2.store)
  | _ => member.seen ((member.answer (calls n) op).from? store)

end Member

/-- A store with the runs that were begun in it. -/
structure Company where
  store : Store
  members : List Member

/-- How a run is begun, if it can be. -/
def Turn.begins (members : List Member) : Turn → Option (Run Member)
  | bind part data multi => some do return .pipeline (← Run.withInput part data (multi.map .bool)) []
  | derive i part =>
    match members[i]? with
    | some (.pipeline p _) => some do return .pipeline (← Run.join (.ofSequence p) part) []
    | _ => none
  | call u data => some do return .call u data
  | stream u data => some do return .stream (← Run.newStream u data)
  | ask .. => none

namespace Company

/-- The company after a run was begun. -/
def joining (turn : Turn) (company : Company) : Company :=
  match turn.begins company.members with
  | none => company
  | some run =>
    match run.from? company.store with
    | (.error _, after) => ⟨after, company.members⟩
    | (.ok member, after) => ⟨after, company.members ++ [member]⟩

/-- What is seen when something happens, and of which run, and the company afterwards. -/
def turn (n : Nat) (turn : Turn) (company : Company) : Option (List (Nat × Outcome) × Company) :=
  match turn.asked? with
  | none => some ([], company.joining turn)
  | some (i, op) =>
    match company.members[i]? with
    | none => some ([], company)
    | some member => (member.perform n op company.store).map fun performed =>
      ([(i, performed.1)], ⟨performed.2.2, company.members.set i performed.2.1⟩)

/-- What is seen as things happen in turn, and the company afterwards. -/
def tour (n : Nat) : List Turn → Company → Option (List (Nat × Outcome) × Company)
  | [], company => some ([], company)
  | turn :: rest, company =>
    match company.turn n turn with
    | none => none
    | some (seen, company) => (tour n rest company).map fun toured => (seen ++ toured.1, toured.2)

end Company

/-! ## What runs are begun as -/

/-- The sorts of run. -/
inductive RoleKind where
  | pipeline
  | call
  | stream
deriving DecidableEq

/-- What a run is begun as. -/
structure Role where
  kind : RoleKind
  /-- Whether elements are taken apart. -/
  multi : Bool
  steps : List Value
  data : Value

/-- A run without a store. -/
structure Player where
  role : Role
  scene : Scene

namespace Role

/-- The tower of the chain that a run is built of. -/
def chain (store : Store) (role : Role) : Tower :=
  .filters (role.steps.map (store.ruleOfStep role.multi)) (.ground {} (store.originOf role.data))

/-- A run that was just begun. -/
def begun (store : Store) (role : Role) : Player where
  role := role
  scene :=
    match role.kind with
    | .pipeline => ⟨.passage {} (role.chain store), []⟩
    | .call => ⟨role.chain store, []⟩
    | .stream => ⟨role.chain store, [.fresh]⟩

end Role

namespace Store

/-- The steps that a part of a chain has: those of a pipeline, or itself. -/
def stepsIn (store : Store) : Value → List Value
  | .object (.sequence u) =>
    match (store.sequence u).body with
    | .pipeline steps _ _ => store.list steps
    | _ => []
  | part => [part]

/-- Whether a part of a chain says that elements are taken apart. -/
def flagIn (store : Store) : Value → Bool
  | .object (.sequence u) => (store.sequence u).multiValue
  | _ => false

/-- What is begun in a turn, given what the runs were begun as that there are. -/
def newRoles (store : Store) (roles : List Role) : Turn → List Role
  | .bind part data multi => [⟨.pipeline, multi.getD (store.flagIn part), store.stepsIn part, data⟩]
  | .derive i part =>
    match roles[i]? with
    | some ⟨.pipeline, multi, steps, data⟩ => [⟨.pipeline, multi, steps ++ store.stepsIn part, data⟩]
    | _ => []
  | .call u data => [⟨.call, store.flagIn (.ofSequence u), store.stepsIn (.ofSequence u), data⟩]
  | .stream u data => [⟨.stream, store.flagIn (.ofSequence u), store.stepsIn (.ofSequence u), data⟩]
  | .ask .. => []

/-- What is begun in a history, given what the runs were begun as that there are. -/
def rolesIn (store : Store) : List Role → List Turn → List Role
  | _, [] => []
  | roles, turn :: rest => store.newRoles roles turn ++ store.rolesIn (roles ++ store.newRoles roles turn) rest

/-- What is asked of a run in a history, once the run has begun. -/
def askedIn (store : Store) (i : Nat) : List Role → List Turn → List Op
  | _, [] => []
  | roles, turn :: rest => turn.asks i roles.length ++ store.askedIn i (roles ++ store.newRoles roles turn) rest

/-- Nothing is begun when a run is asked. -/
theorem newRoles_of_asked {store : Store} {roles : List Role} {turn : Turn} {asked : Nat × Op}
    (asks : turn.asked? = some asked) : store.newRoles roles turn = [] := by
  cases turn <;> first | rfl | cases asks

/-- What is asked of other runs can be left out of a history. -/
theorem filter_concerns (store : Store) (i : Nat) (roles : List Role) (history : List Turn) :
    store.rolesIn roles (history.filter (·.concerns i)) = store.rolesIn roles history ∧
      store.askedIn i roles (history.filter (·.concerns i)) = store.askedIn i roles history := by
  induction history generalizing roles with
  | nil => exact ⟨rfl, rfl⟩
  | cons turn rest ih =>
    cases concerns : turn.concerns i with
    | true => simp [concerns, rolesIn, askedIn, ih]
    | false =>
      -- Nobody joins in a turn in which another run is asked.
      obtain ⟨⟨j, op⟩, asked⟩ : ∃ asked, turn.asked? = some asked := by
        cases asked : turn.asked? with
        | none => simp [Turn.concerns, asked] at concerns
        | some other => exact ⟨other, rfl⟩
      have different : j ≠ i := by simpa [Turn.concerns, asked] using concerns
      simp [concerns, rolesIn, askedIn, ih, newRoles_of_asked asked, Turn.asks, asked, different]

end Store

/-! ## In a cast -/

namespace Player

/-- What is seen of a run other than a pipeline. -/
def outcome (answer : Except Fault (Answer Item)) : Outcome := ⟨answer.map (Answer.map Item.contents), false, false⟩

/-- The player with another scene. -/
def within (player : Player) (scene : Scene) : Player := { player with scene := scene }

/-- What a call answers. -/
def performCall (n : Nat) (player : Player) : Op → Option (Except Fault (Answer Item) × Scene)
  | .collect => (player.scene.tower.force n).map fun forced => (forced.1.map .elements, player.scene)
  | _ => some (.ok .nothing, player.scene)

/-- What a stream answers. -/
def performStream (n : Nat) (player : Player) : Op → Option (Except Fault (Answer Item) × Scene)
  | .pull _ => (player.scene.advance 0 n).map fun drawn => (drawn.1.map .element, drawn.2)
  | .drain _ => (gatherBy (Scene.advance 0) n player.scene []).map fun drawn => (drawn.1.map .elements, drawn.2)
  | _ => some (.ok .nothing, player.scene)

/-- Performs an operation of a run, unless it is out of fuel. -/
def perform (n : Nat) (op : Op) (player : Player) : Option (Outcome × Player) :=
  match player.role.kind with
  | .pipeline => (player.scene.perform player.role.multi n op).map fun asked =>
    (Scene.outcome asked.1 asked.2, player.within asked.2)
  | .call => (player.performCall n op).map fun asked => (outcome asked.1, player.within asked.2)
  | .stream => (player.performStream n op).map fun asked => (outcome asked.1, player.within asked.2)

/-- Performs operations in turn: what is seen of them. -/
def outcomes (n : Nat) : List Op → Player → Option (List Outcome)
  | [], _ => some []
  | op :: rest, player =>
    match player.perform n op with
    | none => none
    | some (seen, left) => (outcomes n rest left).map (seen :: ·)

/-- A run stays what it was begun as. -/
theorem role_perform {n : Nat} {op : Op} {player left : Player} {seen : Outcome}
    (ends : player.perform n op = some (seen, left)) : left.role = player.role := by
  rw [perform] at ends
  split at ends <;>
  · obtain ⟨_, -, same⟩ := Option.map_eq_some_iff.mp ends
    cases same
    rfl

end Player

/-- The players of a company. -/
abbrev Cast := List Player

namespace Cast

/-- What the players were begun as. -/
abbrev roles (cast : Cast) : List Role := cast.map Player.role

/-- The cast after a run was begun in a store. -/
def joining (store : Store) (turn : Turn) (cast : Cast) : Cast :=
  cast ++ (store.newRoles cast.roles turn).map (Role.begun store)

/-- What is seen when something happens, and of which run, and the cast afterwards. -/
def turn (store : Store) (n : Nat) (turn : Turn) (cast : Cast) : Option (List (Nat × Outcome) × Cast) :=
  match turn.asked? with
  | none => some ([], joining store turn cast)
  | some (i, op) =>
    match cast[i]? with
    | none => some ([], cast)
    | some player => (player.perform n op).map fun performed => ([(i, performed.1)], cast.set i performed.2)

/-- What is seen as things happen in turn, and the cast afterwards. -/
def tour (store : Store) (n : Nat) : List Turn → Cast → Option (List (Nat × Outcome) × Cast)
  | [], cast => some ([], cast)
  | turn :: rest, cast =>
    match Cast.turn store n turn cast with
    | none => none
    | some (seen, cast) => (tour store n rest cast).map fun toured => (seen ++ toured.1, toured.2)

/-- The players of a cast, and those that are going to join it. -/
def full (store : Store) (history : List Turn) (cast : Cast) : Cast :=
  cast ++ (store.rolesIn cast.roles history).map (Role.begun store)

variable {store : Store} {n i : Nat} {turn : Turn} {history : List Turn} {cast next last : Cast} {player left : Player}
  {seen : List (Nat × Outcome)}

/-! ### One player -/

theorem roles_append (cast : Cast) (roles : List Role) :
    (cast ++ roles.map (Role.begun store)).roles = cast.roles ++ roles := by
  have same : Player.role ∘ Role.begun store = id := rfl
  rw [Cast.roles, List.map_append, List.map_map, same, List.map_id]

theorem roles_set {k : Nat} (there : cast[k]? = some player) (role : left.role = player.role) :
    Cast.roles (cast.set k left) = cast.roles := by
  obtain ⟨inside, rfl⟩ := List.getElem?_eq_some_iff.mp there
  rw [Cast.roles, List.map_set, role, ← List.getElem_map Player.role (h := by simpa using inside)]
  exact List.set_getElem_self _

theorem full_of_inside (inside : i < cast.length) : (full store history cast)[i]? = cast[i]? := by
  rw [full, List.getElem?_append_left inside]

theorem full_set {k : Nat} (there : cast[k]? = some player) (role : left.role = player.role) :
    full store history (cast.set k left) = (full store history cast).set k left := by
  have inside := (List.getElem?_eq_some_iff.mp there).1
  rw [full, full, roles_set there role, List.set_append_left _ _ inside]

/-- A turn shows of each player what the player shows of what it is asked, and leaves the others. -/
theorem outcomes_turn (rest : List Turn) (ends : Cast.turn store n turn cast = some (seen, next)) :
    next.roles = cast.roles ++ store.newRoles cast.roles turn ∧
      ∀ (i : Nat) (player : Player), (full store (turn :: rest) cast)[i]? = some player →
        ∃ left : Player, (full store rest next)[i]? = some left ∧ ∀ ops,
          player.outcomes n (turn.asks i cast.length ++ ops) =
            (left.outcomes n ops).map ((seen.filter (·.1 = i)).map Prod.snd ++ ·) := by
  rw [Cast.turn] at ends
  rcases asked : turn.asked? with _ | ⟨k, op⟩
  · -- Somebody joins.
    simp only [asked, Option.some.injEq, Prod.mk.injEq] at ends
    obtain ⟨rfl, rfl⟩ := ends
    refine ⟨roles_append cast _, fun i player there => ⟨player, ?_, fun ops => ?_⟩⟩
    · rwa [full, Store.rolesIn, List.map_append, ← List.append_assoc, ← roles_append, ← full] at there
    · simp [Turn.asks, asked]
  · have nobody : store.newRoles cast.roles turn = [] := Store.newRoles_of_asked asked
    have same : full store (turn :: rest) cast = full store rest cast := by
      rw [full, Store.rolesIn, nobody, List.append_nil, List.nil_append, ← full]
    rw [nobody, List.append_nil, same]
    simp only [asked] at ends
    rcases found : cast[k]? with _ | other <;> simp only [found] at ends
    · cases ends
      refine ⟨rfl, fun i player there => ⟨player, there, fun ops => ?_⟩⟩
      have unasked : ¬ (k = i ∧ i < cast.length) := by
        rintro ⟨rfl, inside⟩
        exact absurd inside (Nat.not_lt.mpr (List.getElem?_eq_none_iff.mp found))
      simp [Turn.asks, asked, unasked]
    · obtain ⟨⟨shown, left⟩, performed, same⟩ := Option.map_eq_some_iff.mp ends
      cases same
      have role := Player.role_perform performed
      have inside := (List.getElem?_eq_some_iff.mp found).1
      refine ⟨roles_set found role, fun i player there => ?_⟩
      rw [full_set found role]
      by_cases here : k = i
      · -- The player that is asked.
        subst here
        obtain rfl : other = player := Option.some.inj (found.symm.trans (full_of_inside inside ▸ there))
        refine ⟨left, ?_, fun ops => ?_⟩
        · rw [List.getElem?_set_self (List.getElem?_eq_some_iff.mp there).1]
        · simp [Turn.asks, asked, inside, Player.outcomes, performed]
      · refine ⟨player, by rwa [List.getElem?_set_ne here], fun ops => ?_⟩
        simp [Turn.asks, asked, here]

theorem length_full (store : Store) (history : List Turn) (cast : Cast) :
    (full store history cast).length = (cast.roles ++ store.rolesIn cast.roles history).length := by
  simp [full]

/-- A tour ends unless the asking of some player does not. -/
theorem exists_of_tour (ends : tour store n history cast = none) : ∃ (i : Nat) (player : Player),
    (full store history cast)[i]? = some player ∧ player.outcomes n (store.askedIn i cast.roles history) = none := by
  induction history generalizing cast with
  | nil => cases ends
  | cons turn rest ih =>
    rw [tour] at ends
    rcases turned : Cast.turn store n turn cast with _ | ⟨here, next⟩ <;> simp only [turned] at ends
    · -- The player that is asked does not end.
      rw [Cast.turn] at turned
      rcases asked : turn.asked? with _ | ⟨k, op⟩ <;> simp only [asked] at turned
      · cases turned
      · rcases found : cast[k]? with _ | player <;> simp only [found] at turned
        · cases turned
        · have inside := (List.getElem?_eq_some_iff.mp found).1
          refine ⟨k, player, (full_of_inside inside).trans found, ?_⟩
          simp [Store.askedIn, Turn.asks, asked, inside, Player.outcomes, Option.map_eq_none_iff.mp turned]
    · obtain ⟨i, left, there, stuck⟩ := ih (Option.map_eq_none_iff.mp ends)
      obtain ⟨roles, each⟩ := outcomes_turn rest turned
      have many : (full store (turn :: rest) cast).length = (full store rest next).length := by
        rw [length_full, length_full, roles, Store.rolesIn, List.append_assoc]
      have inside : i < (full store (turn :: rest) cast).length := many ▸ (List.getElem?_eq_some_iff.mp there).1
      obtain ⟨left', there', shows⟩ := each i _ (List.getElem?_eq_getElem inside)
      obtain rfl : left = left' := Option.some.inj (there.symm.trans there')
      refine ⟨i, _, List.getElem?_eq_getElem inside, ?_⟩
      rw [Store.askedIn, ← roles, List.length_map, shows, stuck, Option.map_none]

/-- What is seen of a player in a tour is what is seen of it when it is asked the same and nobody else is there. -/
theorem outcomes_tour (ends : tour store n history cast = some (seen, last))
    (there : (full store history cast)[i]? = some player) :
    player.outcomes n (store.askedIn i cast.roles history) = some ((seen.filter (·.1 = i)).map Prod.snd) := by
  induction history generalizing cast player seen with
  | nil =>
    cases ends
    rfl
  | cons turn rest ih =>
    rw [tour] at ends
    rcases turned : Cast.turn store n turn cast with _ | ⟨here, next⟩ <;> simp only [turned] at ends
    · cases ends
    · obtain ⟨⟨others, last'⟩, toured, same⟩ := Option.map_eq_some_iff.mp ends
      cases same
      obtain ⟨roles, each⟩ := outcomes_turn rest turned
      obtain ⟨left, there', shows⟩ := each i player there
      rw [Store.askedIn, ← roles, List.length_map, shows, ih toured there', List.filter_append, List.map_append]
      rfl

/-- A turn in which nobody but one player is asked ends if that player does, and shows nothing else. -/
theorem turn_alone {rest : List Turn} {ops : List Op} (concerns : turn.concerns i)
    (there : (full store (turn :: rest) cast)[i]? = some player)
    (ends : (player.outcomes n (turn.asks i cast.length ++ ops)).isSome) :
    ∃ seen next, Cast.turn store n turn cast = some (seen, next) ∧ ∀ shown ∈ seen, shown.1 = i := by
  rw [Cast.turn]
  rcases asked : turn.asked? with _ | ⟨k, op⟩
  · exact ⟨[], _, rfl, by simp⟩
  · obtain rfl := Turn.asked_of_concerns concerns asked
    rcases found : cast[k]? with _ | other
    · exact ⟨[], cast, by simp only [found], by simp⟩
    · have inside := (List.getElem?_eq_some_iff.mp found).1
      obtain rfl : other = player := Option.some.inj (found.symm.trans (full_of_inside inside ▸ there))
      rcases performed : other.perform n op with _ | ⟨shown, left⟩
      · simp [Turn.asks, asked, inside, Player.outcomes, performed] at ends
      · exact ⟨[(k, shown)], cast.set k left, by simp only [found, performed, Option.map_some], by simp⟩

/-- A tour in which nobody but one player is asked ends if that player does, and shows nothing else. -/
theorem tour_alone (concerns : ∀ turn ∈ history, turn.concerns i) (there : (full store history cast)[i]? = some player)
    (ends : (player.outcomes n (store.askedIn i cast.roles history)).isSome) :
    ∃ seen last, tour store n history cast = some (seen, last) ∧ ∀ shown ∈ seen, shown.1 = i := by
  induction history generalizing cast player with
  | nil => exact ⟨[], cast, rfl, by simp⟩
  | cons turn rest ih =>
    rw [Store.askedIn, List.length_map] at ends
    obtain ⟨here, next, turned, only⟩ := turn_alone (concerns turn List.mem_cons_self) there ends
    obtain ⟨roles, each⟩ := outcomes_turn rest turned
    obtain ⟨left, there', shows⟩ := each i player there
    rw [shows, Option.isSome_map, ← roles] at ends
    obtain ⟨others, last, toured, only'⟩ :=
      ih (fun turn member => concerns turn (List.mem_cons_of_mem _ member)) there' ends
    refine ⟨here ++ others, last, by simp only [tour, turned, toured, Option.map_some], fun shown member => ?_⟩
    exact (List.mem_append.mp member).elim (only shown) (only' shown)

/-- What is seen in a tour in which nobody but one player is asked is what is seen of that player. -/
theorem outcomes_alone (concerns : ∀ turn ∈ history, turn.concerns i)
    (there : (full store history cast)[i]? = some player) :
    (tour store n history cast).map (fun toured => toured.1.map Prod.snd) =
      player.outcomes n (store.askedIn i cast.roles history) := by
  rcases asked : player.outcomes n (store.askedIn i cast.roles history) with _ | outcomes
  · rcases told : tour store n history cast with _ | ⟨seen, last⟩
    · rfl
    · rw [outcomes_tour told there] at asked
      cases asked
  · obtain ⟨seen, last, told, only⟩ := tour_alone concerns there (by rw [asked]; rfl)
    have all : seen.filter (·.1 = i) = seen := List.filter_eq_self.mpr (by simpa using only)
    rw [told, ← asked, outcomes_tour told there, all]
    rfl

end Cast

end FirstSeen
