import FirstSeen.Proofs.Rewinding
import FirstSeen.Proofs.Tower.Sharing

/-!
# What a chain keeps to itself

A chain over data whose openings repeat touches nothing but its own sequences, the streams that are its own and the
iterators that its sequences hold. Whatever else there was stays as it was; in particular, another iterator goes on
playing what it played, whoever holds it.

That an iterator is left alone is told by the chain itself: a chain that does not hold an iterator stands just as well
with that iterator kept aside, and what is kept aside moves only when it is opened, which never happens if openings
repeat.

So two chains that share no sequence and no iterator stand side by side, and what is asked of one leaves the other as the
tower that it was. That calls of a factory are counted for both does not matter, since each opening gives the same.
-/

set_option autoImplicit false

namespace FirstSeen

/-- The origin with another tape kept aside. -/
def Origin.keeping (origin : Origin) (tape : Tape) : Origin := { origin with kept := tape }

namespace Tower

/-- The origin of a tower. -/
def origin : Tower → Origin
  | ground _ origin => origin
  | passage _ below | filter _ _ _ below => below.origin

/-- The tower with another tape kept aside. -/
def keeping (tape : Tape) : Tower → Tower
  | ground pass origin => ground pass (origin.keeping tape)
  | passage pass below => passage pass (below.keeping tape)
  | filter pass rule seen below => filter pass rule seen (below.keeping tape)

variable {tape : Tape} {tower : Tower}

theorem origin_keeping : (tower.keeping tape).origin = tower.origin.keeping tape := by
  induction tower with
  | ground pass origin => rfl
  | passage pass below ih | filter pass rule seen below ih => exact ih

@[simp] theorem pass_keeping : (tower.keeping tape).pass = tower.pass := by
  cases tower <;> rfl

@[simp] theorem height_keeping : (tower.keeping tape).height = tower.height := by
  induction tower with
  | ground pass origin => rfl
  | passage pass below ih | filter pass rule seen below ih => exact congrArg (· + 1) ih

theorem origin_blank : tower.blank.origin = tower.origin.blank := by
  induction tower with
  | ground pass origin => rfl
  | passage pass below ih | filter pass rule seen below ih => exact ih

theorem keeping_filters (rules : List Rule) (below : Tower) :
    (filters rules below).keeping tape = filters rules (below.keeping tape) := by
  induction rules generalizing below with
  | nil => rfl
  | cons rule rest ih => exact ih (.filter {} rule .empty below)

theorem origin_filters (rules : List Rule) (below : Tower) : (filters rules below).origin = below.origin := by
  induction rules generalizing below with
  | nil => rfl
  | cons rule rest ih => exact ih (.filter {} rule .empty below)

theorem repeats_iff : tower.Repeats ↔ tower.origin.Repeats := by
  induction tower with
  | ground pass origin => exact .rfl
  | passage pass below ih | filter pass rule seen below ih => exact ih

theorem repeats_of_filters {rules : List Rule} (repeats : (filters rules tower).Repeats) : tower.Repeats := by
  rwa [repeats_iff, origin_filters, ← repeats_iff] at repeats

theorem Repeats.keeping (repeats : tower.Repeats) : (tower.keeping tape).Repeats := by
  rw [repeats_iff] at repeats
  rw [repeats_iff, origin_keeping]
  exact ⟨repeats.many, repeats.same, repeats.new, repeats.held⟩

theorem Fresh.keeping (fresh : tower.Fresh) : (tower.keeping tape).Fresh := by
  induction tower with
  | ground pass origin => exact fresh
  | passage pass below ih => exact ⟨fresh.1, ih fresh.2⟩
  | filter pass rule seen below ih => exact ⟨fresh.1, fresh.2.1, ih fresh.2.2⟩

/-- Whether the openings of a tower repeat, so that the tape that is kept aside stays as it is. -/
def KeepsAside (tape : Tape) (tower : Tower) : Prop := tower.Repeats ∧ tower.origin.kept = tape

theorem Repeats.keepsAside (repeats : tower.Repeats) (tape : Tape) : (tower.keeping tape).KeepsAside tape :=
  ⟨repeats.keeping, by rw [origin_keeping]; rfl⟩

/-- What stays of a tower leaves what is kept aside. -/
theorem KeepsAside.stays {left : Tower} (keeps : tower.KeepsAside tape) (stays : tower.Stays left) :
    left.KeepsAside tape := by
  obtain ⟨repeats, same⟩ := stays keeps.1
  have kept : left.origin.blank.kept = tower.origin.blank.kept := by rw [← origin_blank, same, origin_blank]
  exact ⟨repeats, kept.trans keeps.2⟩

theorem steady_keepsAside (tape : Tape) : Steady (KeepsAside tape) where
  next _ _ _ _ keeps asked := keeps.stays (next_stays asked)
  ahead _ tower item left keeps _ asked := by
    refine keeps.stays fun repeats => ?_
    obtain ⟨repeats', same⟩ := next_stays asked repeats
    exact ⟨by simpa using repeats', by rw [blank_withPass, same]⟩
  rewind _ keeps := keeps.stays fun repeats => (rewind_stays repeats).1

/-- Openings that repeat go on doing so. -/
theorem steady_repeats : Steady Repeats where
  next _ tower _ _ repeats asked := ((steady_keepsAside tower.origin.kept).next _ _ _ _ ⟨repeats, rfl⟩ asked).1
  ahead _ tower _ _ repeats peeked asked :=
    ((steady_keepsAside tower.origin.kept).ahead _ _ _ _ ⟨repeats, rfl⟩ peeked asked).1
  rewind tower repeats := ((steady_keepsAside tower.origin.kept).rewind _ ⟨repeats, rfl⟩).1

theorem keepsAside_filters {rules : List Rule} {origin : Origin} (repeats : origin.Repeats) (tape : Tape) :
    (filters rules (.ground {} (origin.keeping tape))).KeepsAside tape := by
  have above : (filters rules (.ground {} origin)).Repeats :=
    repeats_filters (show (ground {} origin).Repeats from repeats)
  have keeps := above.keepsAside tape
  rwa [keeping_filters] at keeps

end Tower

namespace Store

/-! ## Touching -/

/-- A store in which nothing has changed but some sequences that were there, and streams of one's own. -/
structure Touches (ids : List SequenceId) (own : CursorId → Prop) (before after : Store) : Prop where
  grows : before.Grows after
  size : before.sequences.size ≤ after.sequences.size
  others : ∀ other, other ∉ ids → other.index < before.sequences.size → after.sequence other = before.sequence other
  streams : ∀ k, (before.cursor k).isStream → ¬ own k → after.cursor k = before.cursor k

variable {D : Item → Prop} {aside : Option CursorId} {multi : Bool} {own : CursorId → Prop}

section Touching

variable {ids more : List SequenceId} {store after : Store}

theorem Touches.refl (ids : List SequenceId) (own : CursorId → Prop) (store : Store) : store.Touches ids own store :=
  ⟨.refl store, Nat.le_refl _, fun _ _ _ => rfl, fun _ _ _ => rfl⟩

theorem Touches.trans {first second third : Store} (touches : first.Touches ids own second)
    (touches' : second.Touches ids own third) : first.Touches ids own third :=
  ⟨touches.grows.trans touches'.grows, Nat.le_trans touches.size touches'.size, fun other apart inside =>
    (touches'.others other apart (Nat.lt_of_lt_of_le inside touches.size)).trans (touches.others other apart inside),
    fun k stream foreign => by
      have kept := touches.streams k stream foreign
      rw [touches'.streams k (by rwa [kept]) foreign, kept]⟩

theorem Touches.mono (touches : store.Touches ids own after) (sub : ∀ id ∈ ids, id ∈ more) :
    store.Touches more own after :=
  { touches with others := fun other apart => touches.others other fun member => apart (sub other member) }

theorem Works.touches (works : store.Works ids after) : store.Touches ids own after :=
  ⟨works.grows, works.size, works.others, fun k stream _ => works.streams k stream⟩

/-- New sequences were not there to be touched. -/
theorem Widens.touches (widens : store.Widens ids more) (touches : store.Touches more own after) :
    store.Touches ids own after :=
  { touches with others := fun other apart inside => touches.others other (widens.apart apart inside) inside }

/-- Moving iterators that are one's own touches no more than may be touched. -/
theorem Touches.spared {first : Store} (touches : first.Touches ids own store) (spares : ∀ ids, store.Spares ids after)
    (still : ∀ k, (first.cursor k).isStream → ¬ own k → after.cursor k = store.cursor k) :
    first.Touches ids own after := by
  refine ⟨touches.grows.trans (spares ids).grows, Nat.le_trans touches.size (spares ids).size,
    fun other foreign inside => ?_, fun k stream foreign => ?_⟩
  · rw [(spares [other]).same other List.mem_cons_self, touches.others other foreign inside]
  · rw [still k stream foreign, touches.streams k stream foreign]

end Touching

/-! ## Keeping an iterator aside -/

/-- What backs a body over data whose openings repeat backs it with any iterator kept aside that the body does not hold,
and with none. -/
theorem Backs.setAside {store : Store} {body : Body} {origin : Origin} {tape : Tape} (other : Option CursorId)
    (backs : store.Backs D aside body origin) (repeats : origin.Repeats)
    (apart : ∀ k, other = some k → store.Plays D k tape ∧ body.feed ≠ some (.cursor k)) :
    store.Backs D other body (origin.keeping tape) where
  ground := backs.ground
  opens later n grows called := by
    obtain ⟨after, ⟨enlarged, opened⟩, once⟩ := backs.opens later n grows called
    refine ⟨after, ⟨enlarged, ?_⟩, once⟩
    rw [show (origin.keeping tape).openings n = origin.openings n from rfl]
    cases opens : origin.openings n with
    | error fault => rwa [opens] at opened
    | ok start =>
      cases start with
      | own tape => rwa [opens] at opened
      | kept => exact absurd ((repeats.same n).symm.trans opens) repeats.new
  kept k found := (apart k found).1
  held := by
    have held := backs.held
    change store.HoldsFeed D other body.feed origin.held
    rcases feed : body.feed with _ | k | s <;> rcases start : origin.held with _ | own | _ <;>
      rw [feed, start] at held <;> first | exact held.elim | skip
    · trivial
    · exact ⟨fun found => (apart k found).2 feed, held.2⟩
    · exact absurd start repeats.held
  oneShot := backs.oneShot
  refuses data feed form oneShot := by
    have once := backs.oneShot.mpr ⟨data, feed, form, oneShot⟩
    rw [repeats.many] at once
    cases once
  drops := backs.drops
  size := backs.size

/-- What backs a body that repeats its openings goes on doing so whatever happens to the store, as long as the iterator
that it holds plays on. -/
theorem Backs.onward {before after : Store} {body : Body} {origin : Origin} (backs : before.Backs D none body origin)
    (repeats : origin.Repeats) (grows : before.Grows after) (calls : ∀ id, before.callsOf id ≤ after.callsOf id)
    (plays : ∀ k tape, body.feed = some (.cursor k) → before.Plays D k tape → after.Plays D k tape) :
    after.Backs D none body origin := by
  obtain ⟨more, called⟩ : ∃ more, before.CalledSince after body more := by
    cases counted : body.counted? with
    | none => exact ⟨0, fun id found => by rw [counted] at found; cases found⟩
    | some id =>
      refine ⟨after.callsOf id - before.callsOf id, fun other found => ?_⟩
      rw [counted] at found
      cases found
      have := calls id
      omega
  have onward := backs.change more origin.kept body.feed origin.held grows called (fun _ found => by cases found)
    (backs.held.later plays)
  have same : (fun i => origin.openings (i + more)) = origin.openings := by
    funext i
    rw [repeats.same, ← repeats.same i]
  rwa [withFeed_feed, same] at onward

/-! ## What a chain holds -/

/-- Whether one of some sequences holds an iterator. -/
def HeldBy (store : Store) (ids : List SequenceId) (k : CursorId) : Prop :=
  ∃ id ∈ ids, (store.sequence id).body.feed = some (.cursor k)

theorem not_heldBy_cons {store : Store} {id : SequenceId} {ids : List SequenceId} {k : CursorId} :
    ¬ store.HeldBy (id :: ids) k ↔ (store.sequence id).body.feed ≠ some (.cursor k) ∧ ¬ store.HeldBy ids k := by
  simp [HeldBy]

/-- Sequences that did not change hold what they held. -/
theorem heldBy_congr {before after : Store} {ids : List SequenceId} {k : CursorId}
    (same : ∀ id ∈ ids, after.sequence id = before.sequence id) : after.HeldBy ids k ↔ before.HeldBy ids k := by
  constructor <;> rintro ⟨id, member, feed⟩ <;> refine ⟨id, member, ?_⟩
  · rwa [same id member] at feed
  · rwa [same id member]

variable {store : Store} {id : SequenceId} {ids more : List SequenceId} {tower other : Tower} {k : CursorId} {tape : Tape}

/-- A chain has only one list of sequences. -/
theorem Stands.ids_eq {aside' : Option CursorId} {multi' : Bool} (stands : store.Stands D aside multi id ids tower)
    (stands' : store.Stands D aside' multi' id more other) : ids = more := by
  induction stands generalizing more other with
  | ground passes flag backs =>
    have ground := backs.ground
    cases stands' with
    | ground => rfl
    | passage passes' body | filter passes' flag' body => rw [body] at ground; cases ground
  | passage passes body bound apart rest ih =>
    cases stands' with
    | ground passes' flag' backs => have ground := backs.ground; rw [body] at ground; cases ground
    | passage passes' body' bound' apart' rest' =>
      rw [body] at body'
      cases body'
      rw [ih rest']
    | filter passes' flag' body' => rw [body] at body'; cases body'
  | filter passes flag body sound data rule_eq apart rest ih =>
    cases stands' with
    | ground passes' flag' backs => have ground := backs.ground; rw [body] at ground; cases ground
    | passage passes' body' => rw [body] at body'; cases body'
    | filter passes' flag' body' sound' data' rule_eq' apart' rest' =>
      rw [body] at body'
      cases body'
      rw [ih rest']

/-- A chain stands with any iterator kept aside that it does not hold. -/
theorem Stands.setAside (stands : store.Stands D none multi id ids tower) (repeats : tower.Repeats)
    (plays : store.Plays D k tape) (apart : ¬ store.HeldBy ids k) :
    store.Stands D (some k) multi id ids (tower.keeping tape) := by
  induction stands with
  | ground passes flag backs =>
    refine .ground passes flag (backs.setAside (some k) repeats fun other found => ?_)
    cases found
    exact ⟨plays, (not_heldBy_cons.mp apart).1⟩
  | passage passes body bound apart' rest ih =>
    exact .passage passes body bound apart' (ih repeats (not_heldBy_cons.mp apart).2)
  | filter passes flag body sound data rule_eq apart' rest ih =>
    exact .filter passes flag body sound data rule_eq apart' (ih repeats (not_heldBy_cons.mp apart).2)

/-- What a chain keeps aside plays the tape that its tower keeps aside. -/
theorem Stands.plays (stands : store.Stands D (some k) multi id ids tower) :
    store.Plays D k tower.origin.kept := by
  induction stands with
  | ground passes flag backs => exact backs.kept k rfl
  | passage passes body bound apart rest ih | filter passes flag body sound data rule_eq apart rest ih => exact ih

/-- A chain whose openings repeat does not hold what it keeps aside. -/
theorem Stands.not_heldBy (stands : store.Stands D (some k) multi id ids tower) (repeats : tower.Repeats) :
    ¬ store.HeldBy ids k := by
  induction stands with
  | @ground _ _ origin passes flag backs =>
    rintro ⟨other, member, feed⟩
    obtain rfl := List.mem_singleton.mp member
    have held := backs.held
    rw [feed] at held
    rcases start : origin.held with _ | own | _ <;> rw [start] at held
    · exact held.elim
    · exact held.1 rfl
    · exact repeats.held start
  | passage passes body bound apart rest ih =>
    exact not_heldBy_cons.mpr ⟨by rw [body]; simp [Body.feed], ih repeats⟩
  | filter passes flag body sound data rule_eq apart rest ih =>
    exact not_heldBy_cons.mpr ⟨by rw [body]; simp [Body.feed], ih repeats⟩

/-- What a chain holds plays some tape. -/
theorem Stands.plays_held (stands : store.Stands D none multi id ids tower) (held : store.HeldBy ids k) :
    ∃ tape, store.Plays D k tape := by
  induction stands with
  | @ground _ _ origin passes flag backs =>
    obtain ⟨other, member, feed⟩ := held
    obtain rfl := List.mem_singleton.mp member
    have holds := backs.held
    rw [feed] at holds
    rcases start : origin.held with _ | own | _ <;> rw [start] at holds
    · exact holds.elim
    · exact ⟨own, holds.2⟩
    · cases holds
  | passage passes body bound apart rest ih | filter passes flag body sound data rule_eq apart rest ih =>
    refine ih (by_contra fun apart' => not_heldBy_cons.mpr ⟨?_, apart'⟩ held)
    rw [body]
    simp [Body.feed]

/-- A store in which these sequences did not change, the iterators that they hold play on, and no call is uncounted. -/
structure Undisturbed (D : Item → Prop) (ids : List SequenceId) (before after : Store) : Prop where
  grows : before.Grows after
  size : before.sequences.size ≤ after.sequences.size
  calls : ∀ id, before.callsOf id ≤ after.callsOf id
  same : ∀ id ∈ ids, after.sequence id = before.sequence id
  plays : ∀ k tape, before.HeldBy ids k → before.Plays D k tape → after.Plays D k tape

theorem Undisturbed.below {after : Store} (undisturbed : store.Undisturbed D (id :: ids) after) :
    store.Undisturbed D ids after :=
  { undisturbed with
    same := fun other member => undisturbed.same other (List.mem_cons_of_mem _ member)
    plays := fun k tape held =>
      undisturbed.plays k tape (held.imp fun _ found => ⟨List.mem_cons_of_mem _ found.1, found.2⟩) }

/-- A chain that is not moved stands as it did. -/
theorem Stands.onward {after : Store} (stands : store.Stands D none multi id ids tower) (repeats : tower.Repeats)
    (undisturbed : store.Undisturbed D ids after) : after.Stands D none multi id ids tower := by
  have grows := undisturbed.grows
  induction stands with
  | ground passes flag backs =>
    have here := undisturbed.same _ List.mem_cons_self
    refine .ground (passes.later grows undisturbed.size here) (by rw [here, flag]) ?_
    rw [here]
    exact backs.onward repeats grows undisturbed.calls fun k tape feed =>
      undisturbed.plays k tape ⟨_, List.mem_cons_self, feed⟩
  | passage passes body bound apart rest ih =>
    have here := undisturbed.same _ List.mem_cons_self
    exact .passage (passes.later grows undisturbed.size here) (by rw [here, body]) bound apart
      (ih repeats undisturbed.below)
  | filter passes flag body sound data rule_eq apart rest ih =>
    have here := undisturbed.same _ List.mem_cons_self
    exact .filter (passes.later grows undisturbed.size here) (by rw [here, flag]) (by rw [here, body])
      (grows.soundKey sound) (grows.isData data) (rule_eq.trans (grows.ruleOf data).symm) apart
      (ih repeats undisturbed.below)

/-! ## Pipelines that were not built -/

theorem Rests.form (rests : store.Rests D aside multi id ids tower) :
    ∃ steps input, (store.sequence id).body = .pipeline steps input .null := by
  cases rests with
  | raw passes flag form bound lists taken backs free => exact ⟨_, _, form⟩
  | upon passes form apart lists fresh rest => exact ⟨_, _, form⟩

theorem Rests.inside (rests : store.Rests D aside multi id ids tower) :
    ∀ other ∈ ids, other.index < store.sequences.size := by
  induction rests with
  | raw passes flag form bound lists taken backs free => simpa using passes.inside
  | upon passes form apart lists fresh rest ih => exact List.forall_mem_cons.mpr ⟨passes.inside, ih⟩

/-- The sequences of a pipeline that rests hold nothing. -/
theorem Rests.not_heldBy (rests : store.Rests D aside multi id ids tower) : ¬ store.HeldBy ids k := by
  induction rests with
  | raw passes flag form bound lists taken backs free =>
    exact not_heldBy_cons.mpr ⟨by rw [form]; simp [Body.feed], by simp [HeldBy]⟩
  | upon passes form apart lists fresh rest ih => exact not_heldBy_cons.mpr ⟨by rw [form]; simp [Body.feed], ih⟩

/-- What an origin that holds nothing backs holds nothing. -/
theorem Backs.feed_free {body : Body} {origin : Origin} (backs : store.Backs D aside body origin)
    (free : origin.held = none) : body.feed = none := by
  have held := backs.held
  rw [free] at held
  rcases feed : body.feed with _ | k | s <;> rw [feed] at held <;> first | rfl | exact held.elim

/-- A pipeline rests with any iterator kept aside. -/
theorem Rests.setAside (rests : store.Rests D none multi id ids tower) (repeats : tower.Repeats)
    (plays : store.Plays D k tape) : store.Rests D (some k) multi id ids (tower.keeping tape) := by
  induction rests with
  | raw passes flag form bound lists taken backs free =>
    rw [Tower.keeping, Tower.keeping_filters]
    refine .raw passes flag form bound lists taken (backs.setAside (some k) (Tower.repeats_of_filters repeats)
      fun other found => ?_) free
    cases found
    exact ⟨plays, by simp [backs.feed_free free]⟩
  | upon passes form apart lists fresh rest ih =>
    rw [Tower.keeping, Tower.keeping_filters]
    exact .upon passes form apart lists fresh.keeping (ih (Tower.repeats_of_filters repeats))

/-- What a pipeline that rests keeps aside plays the tape that its tower keeps aside. -/
theorem Rests.plays (rests : store.Rests D (some k) multi id ids tower) : store.Plays D k tower.origin.kept := by
  induction rests with
  | raw passes flag form bound lists taken backs free =>
    rw [Tower.origin, Tower.origin_filters]
    exact backs.kept k rfl
  | upon passes form apart lists fresh rest ih =>
    rw [Tower.origin, Tower.origin_filters]
    exact ih

/-- A pipeline that is not moved rests as it did. -/
theorem Rests.onward {after : Store} (rests : store.Rests D none multi id ids tower) (repeats : tower.Repeats)
    (undisturbed : store.Undisturbed D ids after) : after.Rests D none multi id ids tower := by
  have grows := undisturbed.grows
  induction rests with
  | raw passes flag form bound lists taken backs free =>
    have here := undisturbed.same _ List.mem_cons_self
    exact .raw (passes.later grows undisturbed.size here) (by rw [here, flag]) (by rw [here, form]) bound
      (lists.later grows) (fun later grows' => taken later (grows.trans grows')) (backs.onward
        (Tower.repeats_of_filters repeats) grows undisturbed.calls fun k tape feed => by
          rw [backs.feed_free free] at feed
          cases feed) free
  | upon passes form apart lists fresh rest ih =>
    have here := undisturbed.same _ List.mem_cons_self
    exact .upon (passes.later grows undisturbed.size here) (by rw [here, form]) apart (lists.later grows) fresh
      (ih (Tower.repeats_of_filters repeats) undisturbed.below)

end Store

end FirstSeen
