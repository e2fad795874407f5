import FirstSeen.Proofs.History.Joining

/-!
# Runs are isolated

Runs that share steps, pipelines without an input and raw data that can be iterated again go on side by side in one
store: each is an act with sequences, an iterator and streams that are its own. Whatever happens to one of them leaves
the others where they are, so that a company shows what its cast shows.

In a cast nobody sees the others. So what is seen of a run is told by what the run was begun as and what it is asked, and
is seen just as well in a history in which no other run is asked anything, or in which there is no other run.
-/

set_option autoImplicit false

namespace FirstSeen

/-- Whether what happens is among shared steps, pipelines without an input, and data that can be iterated again. -/
def Turn.Apt (store : Store) : Turn → Prop
  | bind part data _ => store.Shares part ∧ store.Restarts data
  | derive _ part => store.Shares part
  | call u data | stream u data => store.Shares (.ofSequence u) ∧ store.Restarts data
  | ask .. => True

/-- A run in a store, with its player and the sequences of its own. -/
structure Act where
  member : Member
  player : Player
  ids : List SequenceId

/-- Whether a run goes on as an act, apart from all that there was at first. -/
structure Act.Fits (first store : Store) (act : Act) : Prop where
  enacts : Enacts first store act.member act.player act.ids
  casts : first.Casts act.player.role
  new : ∀ id ∈ act.ids, first.sequences.size ≤ id.index

/-- Whether two acts share nothing. -/
def Act.Parted (store : Store) (act other : Act) : Prop :=
  FirstSeen.Parted store act.ids act.member.Owns other.ids other.member.Owns

/-- Whether the runs that were begun in a store go on as acts, of which no two share anything. -/
structure Troupe (first store : Store) (acts : List Act) : Prop where
  retains : first.Retains store
  calls : ∀ id, first.callsOf id ≤ store.callsOf id
  fits : ∀ (i : Nat) act, acts[i]? = some act → act.Fits first store
  parted : ∀ (i j : Nat) act other, acts[i]? = some act → acts[j]? = some other → i ≠ j → act.Parted store other

namespace Troupe

variable {first store after : Store} {acts acts' : List Act} {own : CursorId → Prop} {ids : List SequenceId} {act : Act}

theorem begun (first : Store) : Troupe first first [] :=
  ⟨⟨.refl first, Nat.le_refl _, fun _ => rfl⟩, fun _ => Nat.le_refl _, fun _ _ found => by simp at found,
    fun _ _ _ _ found => by simp at found⟩

/-- Acts of which one goes on, or joins, apart from the others. -/
theorem step (troupe : Troupe first store acts) (act : Act) (i : Nat)
    (moves : Moves first store own ids after act.member act.player act.ids)
    (casts : first.Casts act.player.role) (new : ∀ id ∈ ids, first.sequences.size ≤ id.index)
    (here : ∀ act', acts'[i]? = some act' → act' = act)
    (others : ∀ (j : Nat) other, j ≠ i → acts'[j]? = some other →
      acts[j]? = some other ∧ Parted store ids own other.ids other.member.Owns) : Troupe first after acts' := by
  obtain ⟨retains, calls, fits, parted⟩ := troupe
  have confined := moves.confined
  have beside : ∀ (j : Nat) other, j ≠ i → acts'[j]? = some other → other.Fits first after ∧ act.Parted after other := by
    intro j other apart found
    obtain ⟨there, parted⟩ := others j other apart found
    obtain ⟨enacts, casts, new⟩ := fits j other there
    obtain ⟨enacts', parted'⟩ := moves.beside enacts parted
    exact ⟨⟨enacts', casts, new⟩, parted'⟩
  refine ⟨⟨retains.grows.trans confined.grows, Nat.le_trans retains.size confined.size, fun {id} inside => ?_⟩,
    fun id => Nat.le_trans (calls id) (confined.calls id), fun j other found => ?_,
    fun j k one other found found' apart => ?_⟩
  · rw [confined.others id (fun member => absurd inside (Nat.not_lt.mpr (new id member)))
      (Nat.lt_of_lt_of_le inside retains.size), retains.sequence inside]
  · by_cases same : j = i
    · subst same
      obtain rfl := here other found
      refine ⟨moves.enacts, casts, fun id member => ?_⟩
      exact (confined.widens.new id member).elim (new id) fun added => Nat.le_trans retains.size added
    · exact (beside j other same found).1
  · by_cases same : j = i
    · subst same
      obtain rfl := here one found
      exact (beside k other (Ne.symm apart) found').2
    · by_cases same' : k = i
      · subst same'
        obtain rfl := here other found'
        exact (beside j one same found).2.symm
      · obtain ⟨there, apart'⟩ := others j one same found
        obtain ⟨there', apart''⟩ := others k other same' found'
        exact (parted j k one other there there' apart).onward
          (confined.undisturbed (fits j one there).enacts.inside apart'.apart apart'.held).same
          (confined.undisturbed (fits k other there').enacts.inside apart''.apart apart''.held).same

/-- An act goes on. -/
theorem set {i : Nat} {member : Member} {player : Player} {more : List SequenceId} (troupe : Troupe first store acts)
    (there : acts[i]? = some act) (role : player.role = act.player.role)
    (moves : Moves first store act.member.Owns act.ids after member player more) :
    Troupe first after (acts.set i ⟨member, player, more⟩) := by
  obtain ⟨enacts, casts, new⟩ := troupe.fits i act there
  refine troupe.step ⟨member, player, more⟩ i moves (by rw [role]; exact casts) new (fun other found => ?_)
    fun j other apart found => ?_
  · rw [List.getElem?_set_self (List.getElem?_eq_some_iff.mp there).1] at found
    exact (Option.some.inj found).symm
  · rw [List.getElem?_set_ne (Ne.symm apart)] at found
    exact ⟨found, troupe.parted i j act other there found (Ne.symm apart)⟩

/-- An act joins. -/
theorem append {role : Role} {member : Member} {more : List SequenceId} (troupe : Troupe first store acts)
    (casts : first.Casts role) (moves : Moves first store (fun _ => False) [] after member (role.begun first) more) :
    Troupe first after (acts ++ [⟨member, role.begun first, more⟩]) := by
  refine troupe.step ⟨member, role.begun first, more⟩ acts.length moves casts (by simp) (fun other found => ?_)
    fun j other apart found => ⟨?_, ?_⟩
  · simpa using found.symm
  · rcases Nat.lt_or_ge j acts.length with inside | outside
    · rwa [List.getElem?_append_left inside] at found
    · rw [List.getElem?_append_right outside, List.getElem?_singleton] at found
      split at found
      · omega
      · cases found
  · exact ⟨fun _ _ => List.not_mem_nil, fun _ _ => by simp [Store.HeldBy], fun _ _ => id⟩

end Troupe

/-! ## Turns -/

namespace Company

/-- Whether what happened to a company came to what it came to for its cast, with the same to be seen, and its runs go on
as acts. -/
def TurnsLike (first : Store) (result : Option (List (Nat × Outcome) × Company)) :
    Option (List (Nat × Outcome) × Cast) → Prop
  | none => result = none
  | some (seen, next) => ∃ after acts, result = some (seen, ⟨after, acts.map Act.member⟩) ∧
      acts.map Act.player = next ∧ Troupe first after acts

variable {first store : Store} {acts : List Act} {n : Nat} {turn : Turn}

/-- A run that was begun joins the company. -/
theorem joining_of_begins {run : Run Member} {role : Role} (troupe : Troupe first store acts)
    (casts : first.Casts role) (begins : turn.begins (acts.map Act.member) = some run)
    (roles : first.newRoles (Cast.roles (acts.map Act.player)) turn = [role])
    (moves : ∃ member after more, run.from? store = (.ok member, after) ∧
      Moves first store (fun _ => False) [] after member (role.begun first) more) :
    TurnsLike first (some ([], Company.joining turn ⟨store, acts.map Act.member⟩))
      (some ([], Cast.joining first turn (acts.map Act.player))) := by
  obtain ⟨member, after, more, ends, moves⟩ := moves
  refine ⟨after, acts ++ [⟨member, role.begun first, more⟩], ?_, by rw [Cast.joining, roles]; simp,
    troupe.append casts moves⟩
  simp [joining, begins, ends]

/-- Nobody joins. -/
theorem joining_of_none (troupe : Troupe first store acts) (begins : turn.begins (acts.map Act.member) = none)
    (roles : first.newRoles (Cast.roles (acts.map Act.player)) turn = []) :
    TurnsLike first (some ([], Company.joining turn ⟨store, acts.map Act.member⟩))
      (some ([], Cast.joining first turn (acts.map Act.player))) :=
  ⟨store, acts, by simp only [joining, begins], by rw [Cast.joining, roles]; simp, troupe⟩

/-- Whoever joins a company joins its cast. -/
theorem joining_like (troupe : Troupe first store acts) (apt : turn.Apt first) (unasked : turn.asked? = none) :
    TurnsLike first (some ([], Company.joining turn ⟨store, acts.map Act.member⟩))
      (some ([], Cast.joining first turn (acts.map Act.player))) := by
  have retains := troupe.retains
  have calls := troupe.calls
  cases turn with
  | ask i op => cases unasked
  | bind part d multi =>
    obtain ⟨shares, restarts⟩ := apt
    have casts : first.Casts ⟨.pipeline, multi.getD (first.flagIn part), first.stepsIn part, d⟩ :=
      ⟨shares.sound, restarts.raw, restarts.again⟩
    exact joining_of_begins troupe casts rfl rfl (moves_pipeline casts retains calls rfl (shares.binds retains d multi))
  | call u d =>
    obtain ⟨shares, restarts⟩ := apt
    let role : Role := ⟨.call, first.flagIn (.ofSequence u), first.stepsIn (.ofSequence u), d⟩
    have casts : first.Casts role :=
      ⟨shares.sound, restarts.raw, restarts.again⟩
    exact joining_of_begins troupe casts rfl rfl ⟨_, _, _, rfl, moves_call role rfl shares.embodies⟩
  | stream u d =>
    obtain ⟨shares, restarts⟩ := apt
    let role : Role := ⟨.stream, first.flagIn (.ofSequence u), first.stepsIn (.ofSequence u), d⟩
    have casts : first.Casts role :=
      ⟨shares.sound, restarts.raw, restarts.again⟩
    exact joining_of_begins troupe casts rfl rfl (moves_stream role rfl shares.embodies)
  | derive i part =>
    have shares : first.Shares part := apt
    rcases there : acts[i]? with _ | ⟨member, player, ids⟩
    · exact joining_of_none troupe (by simp [Turn.begins, there]) (by simp [Store.newRoles, there])
    · obtain ⟨enacts, casts, -⟩ := troupe.fits i _ there
      cases enacts with
      | @pipeline p streams _ role scene kind follows repeats high embodies =>
        obtain ⟨_, multi, steps, d⟩ := role
        obtain rfl : _ = RoleKind.pipeline := kind
        have joined : first.Casts ⟨.pipeline, multi, steps ++ first.stepsIn part, d⟩ :=
          ⟨fun multi step member => (List.mem_append.mp member).elim (casts.sound multi step) (shares.sound multi step),
            casts.raw, casts.again⟩
        exact joining_of_begins troupe joined (by simp [Turn.begins, there]) (by simp [Store.newRoles, there])
          (moves_pipeline joined retains calls rfl (shares.joins retains embodies (casts.sound multi)))
      | call kind | fresh kind | stream kind =>
        refine joining_of_none troupe (by simp [Turn.begins, there]) ?_
        simp only [Store.newRoles, Cast.roles, List.getElem?_map, there, Option.map_some]
        split
        · rename_i same
          cases same
          cases kind
        · rfl

/-- What happens to a company comes to what happens to its cast. -/
theorem turn_like (troupe : Troupe first store acts) (apt : turn.Apt first)
    (deep : ∀ role ∈ Cast.roles (acts.map Act.player), 4 * role.steps.length + 10 ≤ n) :
    TurnsLike first (Company.turn n turn ⟨store, acts.map Act.member⟩)
      (Cast.turn first n turn (acts.map Act.player)) := by
  rw [Company.turn, Cast.turn]
  rcases asked : turn.asked? with _ | ⟨i, op⟩
  · exact joining_like troupe apt asked
  · simp only [List.getElem?_map]
    rcases there : acts[i]? with _ | act
    · exact ⟨store, acts, rfl, rfl, troupe⟩
    · obtain ⟨enacts, casts, new⟩ := troupe.fits i act there
      have role : act.player.role ∈ Cast.roles (acts.map Act.player) :=
        List.mem_map_of_mem (List.mem_map_of_mem (List.mem_of_getElem? there))
      have performs := enacts.ask casts troupe.retains troupe.calls (deep _ role) op
      simp only [Option.map_some]
      rcases told : act.player.perform n op with _ | ⟨seen, left⟩ <;> rw [told] at performs
      · rw [show act.member.perform n op store = none from performs]
        rfl
      · obtain ⟨member, after, more, ends, moves⟩ := performs
        rw [ends]
        exact ⟨after, acts.set i ⟨member, left, more⟩, by simp [List.map_set], by simp [List.map_set],
          troupe.set there (Player.role_perform told) moves⟩

/-- What happens to a company in turn comes to what happens to its cast. -/
theorem tour_like {history : List Turn} (troupe : Troupe first store acts) (apt : ∀ turn ∈ history, turn.Apt first)
    (deep : ∀ role ∈ Cast.roles (acts.map Act.player) ++ first.rolesIn (Cast.roles (acts.map Act.player)) history,
      4 * role.steps.length + 10 ≤ n) :
    TurnsLike first (Company.tour n history ⟨store, acts.map Act.member⟩)
      (Cast.tour first n history (acts.map Act.player)) := by
  induction history generalizing store acts with
  | nil => exact ⟨store, acts, rfl, rfl, troupe⟩
  | cons turn rest ih =>
    have turned := turn_like troupe (apt turn List.mem_cons_self) fun role member =>
      deep role (List.mem_append_left _ member)
    rw [Company.tour, Cast.tour]
    rcases told : Cast.turn first n turn (acts.map Act.player) with _ | ⟨seen, next⟩ <;> rw [told] at turned
    · rw [show Company.turn n turn ⟨store, acts.map Act.member⟩ = none from turned]
      rfl
    · obtain ⟨after, acts', ends, rfl, troupe'⟩ := turned
      have roles := (Cast.outcomes_turn rest told).1
      have toured := ih troupe' (fun turn member => apt turn (List.mem_cons_of_mem _ member)) fun role member => by
        refine deep role ?_
        rw [roles] at member
        simpa only [Store.rolesIn, List.append_assoc] using member
      simp only [ends]
      rcases told' : Cast.tour first n rest (acts'.map Act.player) with _ | ⟨others, last⟩ <;> rw [told'] at toured
      · rw [show Company.tour n rest ⟨after, acts'.map Act.member⟩ = none from toured]
        rfl
      · obtain ⟨final, acts'', ends', rfl, troupe''⟩ := toured
        exact ⟨final, acts'', by rw [ends']; rfl, rfl, troupe''⟩

/-- What is seen of a company is what is seen of its cast. -/
theorem TurnsLike.seen {result : Option (List (Nat × Outcome) × Company)} {told : Option (List (Nat × Outcome) × Cast)}
    (like : TurnsLike first result told) : result.map Prod.fst = told.map Prod.fst := by
  rcases told with _ | ⟨seen, next⟩
  · rw [show result = none from like]
    rfl
  · obtain ⟨after, acts, same, -, -⟩ := like
    rw [same]
    rfl

end Company

/-! ## Isolation -/

namespace Store

/-- Whether all that happens in a history is apt, at a depth of calls that is enough for each run. -/
structure Hosts (store : Store) (n : Nat) (history : List Turn) : Prop where
  apt : ∀ turn ∈ history, turn.Apt store
  deep : ∀ role ∈ store.rolesIn [] history, 4 * role.steps.length + 10 ≤ n

/-- Whether a run of a history is alone in another one: there, some run is begun as it was and asked the same, and no
other run is asked anything. -/
structure Alone (store : Store) (history : List Turn) (i : Nat) (alone : List Turn) (j : Nat) : Prop where
  begun : (store.rolesIn [] alone)[j]? = (store.rolesIn [] history)[i]?
  asked : store.askedIn j [] alone = store.askedIn i [] history
  concerns : ∀ turn ∈ alone, turn.concerns j

variable {first : Store} {n i j : Nat} {history alone : List Turn}

/-- A run is alone when what is asked of the others is left out. -/
theorem alone_filter (store : Store) (history : List Turn) (i : Nat) :
    store.Alone history i (history.filter (·.concerns i)) i := by
  obtain ⟨roles, asked⟩ := store.filter_concerns i [] history
  exact ⟨by rw [roles], asked, fun turn member => (List.mem_filter.mp member).2⟩

/-- A history in which a run is alone is apt if the other one is. -/
theorem Hosts.filter (hosts : first.Hosts n history) (i : Nat) : first.Hosts n (history.filter (·.concerns i)) :=
  ⟨fun turn member => hosts.apt turn (List.mem_filter.mp member).1, by
    rw [(first.filter_concerns i [] history).1]
    exact hosts.deep⟩

theorem Hosts.seen (hosts : first.Hosts n history) :
    ((Company.mk first []).tour n history).map Prod.fst = (Cast.tour first n history []).map Prod.fst :=
  (Company.tour_like (.begun first) hosts.apt hosts.deep).seen

/-- What is seen of a run that is alone is what is seen of its player. -/
theorem Alone.outcomes {role : Role} (is : first.Alone history i alone j) (hosts : first.Hosts n alone)
    (begun : (first.rolesIn [] history)[i]? = some role) :
    ((Company.mk first []).tour n alone).map (fun toured => toured.1.map Prod.snd) =
      (role.begun first).outcomes n (first.askedIn i [] history) := by
  have there : (Cast.full first alone [])[j]? = some (role.begun first) := by
    rw [Cast.full, List.nil_append, List.getElem?_map, show Cast.roles [] = [] from rfl, is.begun, begun]
    rfl
  have shown := Cast.outcomes_alone (n := n) is.concerns there
  rw [show Cast.roles [] = [] from rfl, is.asked] at shown
  have seen := congrArg (Option.map (List.map Prod.snd)) hosts.seen
  rw [Option.map_map, Option.map_map] at seen
  exact seen.trans shown

end Store

/-- Runs that share steps, pipelines without an input and data that can be iterated again are isolated: however they are
begun and asked in turn, what is seen of each is what is seen of it when it is alone. If some history does not end, then
some run does not end when it is alone. -/
theorem runs_isolated {first : Store} {n : Nat} {history : List Turn} {alone : Nat → List Turn} {index : Nat → Nat}
    (hosts : first.Hosts n history)
    (each : ∀ i < (first.rolesIn [] history).length,
      first.Hosts n (alone i) ∧ first.Alone history i (alone i) (index i)) :
    (∀ seen last, (Company.mk first []).tour n history = some (seen, last) →
        ∀ i < (first.rolesIn [] history).length, ∃ seen' last',
          (Company.mk first []).tour n (alone i) = some (seen', last') ∧
            seen'.map Prod.snd = (seen.filter (·.1 = i)).map Prod.snd) ∧
      ((Company.mk first []).tour n history = none →
        ∃ i < (first.rolesIn [] history).length, (Company.mk first []).tour n (alone i) = none) := by
  have same := hosts.seen
  -- What is seen of a run that is alone is told by its player.
  have solo : ∀ {i : Nat} {role : Role}, (first.rolesIn [] history)[i]? = some role →
      ((Company.mk first []).tour n (alone i)).map (fun toured => toured.1.map Prod.snd) =
        (role.begun first).outcomes n (first.askedIn i [] history) := fun begun =>
    have inside := (List.getElem?_eq_some_iff.mp begun).1
    (each _ inside).2.outcomes (each _ inside).1 begun
  have player : ∀ {i : Nat},
      (Cast.full first history [])[i]? = ((first.rolesIn [] history)[i]?).map (Role.begun first) := by
    simp [Cast.full]
  refine ⟨fun seen last ends i inside => ?_, fun stuck => ?_⟩
  · have begun := List.getElem?_eq_getElem inside
    rw [ends] at same
    obtain ⟨⟨_, cast⟩, told, rfl⟩ := Option.map_eq_some_iff.mp same.symm
    have shown := solo begun
    rw [show first.askedIn i [] history = first.askedIn i (Cast.roles []) history from rfl,
      Cast.outcomes_tour told (by rw [player, begun]; rfl)] at shown
    obtain ⟨⟨seen', last'⟩, ends', shows⟩ := Option.map_eq_some_iff.mp shown
    exact ⟨seen', last', ends', shows⟩
  · rw [stuck] at same
    obtain ⟨i, other, there, stays⟩ := Cast.exists_of_tour (Option.map_eq_none_iff.mp same.symm)
    rw [player] at there
    obtain ⟨role, begun, rfl⟩ := Option.map_eq_some_iff.mp there
    exact ⟨i, (List.getElem?_eq_some_iff.mp begun).1, Option.map_eq_none_iff.mp ((solo begun).trans stays)⟩

/-- A pipeline of one distinct stage is bound to the list `[1, 2, 1]` and asked before another one is derived from it. The
first one is also collected and streamed on that list, and all four runs are asked in turn. -/
def Turn.sharing : List Turn :=
  [.bind (.ofSequence ⟨0⟩) (.object (.list ⟨1⟩)) none, .ask 0 .next, .derive 0 (.object (.step ⟨0⟩)),
    .call ⟨0⟩ (.object (.list ⟨1⟩)), .stream ⟨0⟩ (.object (.list ⟨1⟩)), .ask 3 (.pull 0), .ask 1 .next, .ask 2 .collect,
    .ask 0 .rewind, .ask 1 .force, .ask 3 (.drain 0), .ask 0 .size, .ask 0 .collect]

/-- The same four runs one by one, the derived one without anything that is asked of the first. -/
def Turn.solo : Nat → List Turn
  | 0 => [.bind (.ofSequence ⟨0⟩) (.object (.list ⟨1⟩)) none, .ask 0 .next, .ask 0 .rewind, .ask 0 .size, .ask 0 .collect]
  | 1 => [.bind (.ofSequence ⟨0⟩) (.object (.list ⟨1⟩)) none, .derive 0 (.object (.step ⟨0⟩)), .ask 1 .next, .ask 1 .force]
  | 2 => [.call ⟨0⟩ (.object (.list ⟨1⟩)), .ask 0 .collect]
  | _ => [.stream ⟨0⟩ (.object (.list ⟨1⟩)), .ask 0 (.pull 0), .ask 0 (.drain 0)]

theorem runs_isolated_sharing : ∃ seen last, (Company.mk (.sample .null) []).tour 18 Turn.sharing = some (seen, last) ∧
    ∀ i < 4, ∃ seen' last', (Company.mk (.sample .null) []).tour 18 (Turn.solo i) = some (seen', last') ∧
      seen'.map Prod.snd = (seen.filter (·.1 = i)).map Prod.snd := by
  have sound : ∀ multi, (Store.sample .null).SoundStep Item.Plain multi (.object (.step ⟨0⟩)) := fun multi =>
    ⟨.inl rfl, Store.isData_of_refs_nil rfl⟩
  have unbound : ∀ multi, (Store.sample .null).Unbound ⟨0⟩ ⟨0⟩ multi := fun multi => by
    refine ⟨Nat.one_pos, ⟨.null, rfl⟩, Nat.two_pos, fun step member => ?_⟩
    obtain rfl := List.mem_singleton.mp (show step ∈ [Value.object (.step ⟨0⟩)] from member)
    exact sound multi
  have restarts : (Store.sample .null).Restarts (.object (.list ⟨1⟩)) :=
    ⟨Store.raw_sample_list, fun _ => ⟨rfl, by rintro ⟨⟩⟩⟩
  have step : (Store.sample .null).Shares (.object (.step ⟨0⟩)) := .step sound
  have pipeline : (Store.sample .null).Shares (.ofSequence ⟨0⟩) := .pipeline unbound
  have hosts : (Store.sample .null).Hosts 18 Turn.sharing :=
    ⟨by simp [Turn.sharing, Turn.Apt, step, pipeline, restarts], by decide +kernel⟩
  have each : ∀ i < 4, (Store.sample .null).Hosts 18 (Turn.solo i) ∧
      (Store.sample .null).Alone Turn.sharing i (Turn.solo i) (if i = 1 then 1 else 0) := by
    rintro (_ | _ | _ | _ | i) inside
    · exact ⟨⟨by simp [Turn.solo, Turn.Apt, pipeline, restarts], by decide +kernel⟩, rfl, rfl, by decide⟩
    · exact ⟨⟨by simp [Turn.solo, Turn.Apt, step, pipeline, restarts], by decide +kernel⟩, rfl, rfl, by decide⟩
    · exact ⟨⟨by simp [Turn.solo, Turn.Apt, pipeline, restarts], by decide +kernel⟩, rfl, rfl, by decide⟩
    · exact ⟨⟨by simp [Turn.solo, Turn.Apt, pipeline, restarts], by decide +kernel⟩, rfl, rfl, by decide⟩
    · omega
  have ended : ((Company.mk (.sample .null) []).tour 18 Turn.sharing).isSome = true := by decide +kernel
  obtain ⟨⟨seen, last⟩, ends⟩ := Option.isSome_iff_exists.mp ended
  exact ⟨seen, last, ends, (runs_isolated hosts each).1 seen last ends⟩

end FirstSeen
