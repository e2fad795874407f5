import FirstSeen.Proofs.History.Beginning
import FirstSeen.Proofs.Tower.Ending
import Mathlib.Logic.Relation

/-!
# Only the source ends a chain

A distinct stage or a pipeline that has met its end draws from a sequence that has met its end, after any history,
if no key that is looked up signals an end when it is hashed or compared. Key functions may signal one: this is
guarded against. Hashing and comparing keys is not, so that a key which signals an end while it is looked up ends
its stage, and the pipeline above it, before the source has come to an end.
-/

set_option autoImplicit false

namespace FirstSeen

namespace Store

/-- What a sequence draws from, if it is another sequence: a distinct stage from its supply, a pipeline from its
output. -/
def supplyOf (store : Store) (id : SequenceId) : Option SequenceId :=
  match (store.sequence id).body with
  | .distinct supply _ _ _ => some supply
  | .pipeline _ _ (.object (.sequence output)) => some output
  | _ => none

/-- Whether a sequence draws from another one. -/
def Draws (store : Store) (id below : SequenceId) : Prop := store.supplyOf id = some below

/-- Whether a distinct step finds tame keys for elements with tame contents. -/
def TameStep (store : Store) (multi : Bool) (step : Value) : Prop :=
  match step with
  | .object (.step id) =>
    match store.step id with
    | .distinct key limit => (store.contents limit).Tame ∧
        ∀ item v, item.contents.Tame → store.answerTo multi key item = .ok v → v.Tame
    | _ => True
  | _ => True

variable {D : Item → Prop} {aside : Option CursorId} {multi : Bool} {store : Store}

/-- What a key function signals is guarded against. -/
theorem tame_ruleOfStep {step : Value} (sound : store.SoundStep D multi step) (tame : store.TameStep multi step) :
    (store.ruleOfStep multi step).Tame fun item => item.contents.Tame := by
  cases step with
  | object ref =>
    cases ref with
    | step id =>
      simp only [SoundStep, TameStep, ruleOfStep] at sound tame ⊢
      cases found : store.step id with
      | distinct key limit =>
        rw [found] at tame
        refine ⟨fun item fault fails => ?_, fun item key' domain ends => ?_, tame.1⟩
        · simp only [ruleOf] at fails
          cases answered : store.answerTo multi key item <;> rw [answered] at fails <;> cases fails
          rw [Run.insteadOfEnd]
          split
          · rfl
          · exact Bool.eq_false_iff.mpr ‹_›
        · simp only [ruleOf] at ends
          cases answered : store.answerTo multi key item <;> rw [answered] at ends <;> cases ends
          exact tame.2 item _ domain answered
      | _ => simp [found] at sound
    | _ => exact sound.elim
  | _ => exact sound.elim

/-- In a chain that stands as an honest tower, a sequence is over only if what it draws from is. -/
theorem Stands.overBelow {id : SequenceId} {ids : List SequenceId} {tower : Tower}
    (stands : store.Stands D aside multi id ids tower) {E : Item → Prop} (honest : tower.Honest E) {other : SequenceId}
    (reached : Relation.ReflTransGen store.Draws id other) (spent : (store.sequence other).exhausted = true) :
    (store.sequence other).body.isGround ∨
      ∃ below, store.Draws other below ∧ (store.sequence below).exhausted = true := by
  -- Below the topmost sequence the chain is the chain of the one that it draws from.
  have descend : ∀ {id below : SequenceId}, (∀ x, store.Draws id x → x = below) →
      Relation.ReflTransGen store.Draws id other → other = id ∨ Relation.ReflTransGen store.Draws below other := by
    intro id below only reached
    rcases reached.cases_head with rfl | ⟨x, draws, reached⟩
    · exact .inl rfl
    · exact .inr (only x draws ▸ reached)
  induction stands with
  | @ground id pass origin passes flag backs =>
    have ground := backs.ground
    have none : ∀ x, ¬ store.Draws id x := by
      intro x draws
      rw [Draws, supplyOf] at draws
      cases form : (store.sequence id).body with
      | iterable | produced => simp [form] at draws
      | _ => simp [form, Body.isGround] at ground
    rcases reached.cases_head with rfl | ⟨x, draws, -⟩
    · exact .inl ground
    · exact absurd draws (none x)
  | @passage id below ids pass tower steps input passes body bound apart rest ih =>
    have draws : ∀ x, store.Draws id x ↔ x = below := by
      intro x
      rw [Draws, supplyOf, body]
      simp [eq_comm]
    rcases descend (fun x => (draws x).mp) reached with rfl | reached
    · exact .inr ⟨below, (draws below).mpr rfl,
        rest.passes.exhausted.trans (honest.2.1 (passes.exhausted.symm.trans spent))⟩
    · exact ih honest.2.2 reached
  | @filter id below ids pass tower rule key limit seen passes flag body sound data rule_eq apart rest ih =>
    have draws : ∀ x, store.Draws id x ↔ x = below := by
      intro x
      rw [Draws, supplyOf, body]
      simp [eq_comm]
    rcases descend (fun x => (draws x).mp) reached with rfl | reached
    · exact .inr ⟨below, (draws below).mpr rfl,
        rest.passes.exhausted.trans (honest.2.1 (passes.exhausted.symm.trans spent))⟩
    · exact ih honest.2.2.2.2 reached

/-- A pipeline that was not built yet draws from nothing. -/
theorem Rests.not_draws {id below : SequenceId} {ids : List SequenceId} {tower : Tower}
    (rests : store.Rests D aside multi id ids tower) : ¬ store.Draws id below := by
  intro draws
  cases rests with
  | raw passes flag form bound lists taken backs free =>
    rw [Draws, supplyOf, form] at draws
    cases draws
  | upon passes form apart lists fresh rest =>
    rw [Draws, supplyOf, form] at draws
    cases draws

end Store

/-- After any history of a new pipeline over raw data, each sequence that it draws from, through however many
others, is over only if what that one draws from is over as well; an operation that signals an end leaves a
pipeline that is over. Neither holds without the assumption that looking up keys signals no end. -/
theorem only_source_ends {store : Store} {p : SequenceId} {steps : ListId} {d : Value} {multi : Bool}
    (new : store.NewPipeline p steps d multi) (tame : ∀ step ∈ store.list steps, store.TameStep multi step)
    (items : (store.originOf d).Within fun item => item.contents.Tame) {n : Nat}
    (deep : 4 * (store.list steps).length + 10 ≤ n) {history : List Op} {outcomes : List Outcome} {session : Session}
    (played : (Session.mk store []).play n p history = some (outcomes, session)) :
    (∀ id, Relation.ReflTransGen session.store.Draws p id → (session.store.sequence id).exhausted = true →
      (session.store.sequence id).body.isGround ∨
        ∃ below, session.store.Draws id below ∧ (session.store.sequence below).exhausted = true) ∧
    ∀ seen after fault, session.perform n p .next = some (seen, after) → seen.answer = .error fault →
      fault.isEnd = true → seen.exhausted = true := by
  obtain ⟨last, told, follows⟩ := (Session.play_follows history new.follows (by simp; omega)).some played
  have honest : (store.towerOf steps d multi).Honest fun item => item.contents.Tame := by
    refine ⟨by rintro _ ⟨⟩, fun none => ?_, Tower.honest_filters (fun rule member => ?_)
      ⟨by rintro _ ⟨⟩, ⟨items.openings, items.kept⟩, by rintro _ ⟨⟩⟩⟩
    · cases none
    · obtain ⟨step, there, rfl⟩ := List.mem_map.mp member
      exact Store.tame_ruleOfStep (new.sound step there) (tame step there)
  have honest' := Scene.play_keeps Tower.steady_honest honest told
  have high : last.tower.height = (store.towerOf steps d multi).height :=
    Scene.play_keeps (Tower.steady_height _) rfl told
  refine ⟨fun id reached spent => ?_, fun seen after fault performed failed ends => ?_⟩
  · rcases follows.holds with ⟨ids, stands⟩ | ⟨ids, rests, begun⟩
    · exact stands.overBelow honest' reached spent
    · have idle : (session.store.sequence p).exhausted = false := by rw [rests.passes.exhausted, begun]
      rcases reached.cases_head with rfl | ⟨x, draws, -⟩
      · rw [idle] at spent
        cases spent
      · exact absurd draws rests.not_draws
  · obtain ⟨left, ended, -⟩ := (Session.perform_follows .next follows (by rw [high]; simp; omega)).some performed
    obtain ⟨⟨answer, scene⟩, asked, same⟩ := Option.map_eq_some_iff.mp ended
    obtain ⟨⟨told, tower⟩, drawn, here⟩ := Option.map_eq_some_iff.mp asked
    cases here
    cases same
    cases told with
    | ok item => cases failed
    | error fault' =>
      cases failed
      exact (Tower.next_honest honest' drawn).ended fault rfl ends

/-- A pipeline over a list that was taken to its end. -/
theorem only_source_ends_list :
    ∃ outcomes session, (Session.mk (.sample (.object (.list ⟨1⟩))) []).play 14 ⟨0⟩ [.collect, .next] =
        some (outcomes, session) ∧ (session.store.sequence ⟨0⟩).exhausted = true ∧
      ∃ below, session.store.Draws ⟨0⟩ below ∧ (session.store.sequence below).exhausted = true := by
  have evaluated : ((Session.mk (.sample (.object (.list ⟨1⟩))) []).play 14 ⟨0⟩ [.collect, .next]).map (fun played =>
      ((played.2.store.sequence ⟨0⟩).exhausted, (played.2.store.sequence ⟨0⟩).body.kind)) =
      some (true, .pipeline) := by decide +kernel
  obtain ⟨⟨outcomes, session⟩, played, evaluated⟩ := Option.map_eq_some_iff.mp evaluated
  obtain ⟨spent, kind⟩ := Prod.mk.inj evaluated
  have tame : ∀ step ∈ (Store.sample (.object (.list ⟨1⟩))).list ⟨0⟩,
      (Store.sample (.object (.list ⟨1⟩))).TameStep false step := by
    intro step member
    obtain rfl := List.mem_singleton.mp (show step ∈ [Value.object (.step ⟨0⟩)] from member)
    refine ⟨trivial, fun item v domain answers => ?_⟩
    cases answers
    exact domain
  have items : ((Store.sample (.object (.list ⟨1⟩))).originOf (.object (.list ⟨1⟩))).Within
      fun item => item.contents.Tame := by
    refine ⟨fun n tape opens i item told => ?_, by rintro _ _ ⟨⟩⟩
    cases opens
    rcases i with _ | _ | _ | i <;> cases told <;> trivial
  have ends := (only_source_ends (Store.newPipeline_sample Store.raw_sample_list) tame items (by decide) played).1
  refine ⟨outcomes, session, played, spent, ?_⟩
  rcases ends ⟨0⟩ .refl spent with ground | below
  · cases form : (session.store.sequence ⟨0⟩).body <;>
      simp [form, Body.isGround, Body.kind] at ground kind
  · exact below

namespace Store

/-- The list of the small store with an element in the middle that signals an end when it is hashed. -/
def trapped : Store :=
  { sample (.object (.list ⟨1⟩)) with
    lists := #[[.object (.step ⟨0⟩)], [.int 1, .probe ⟨⟨0, 0⟩, 1, .fails .stop, .byNumber⟩, .int 2]] }

end Store

/-- A key that signals an end when it is hashed ends its stage and the pipeline, though the list goes on. -/
theorem hashing_ends_pipeline :
    ∃ outcomes session, (Session.mk .trapped []).play 14 ⟨0⟩ [.next, .next] = some (outcomes, session) ∧
      (session.store.sequence ⟨0⟩).exhausted = true ∧
      session.store.Draws ⟨0⟩ ⟨2⟩ ∧ (session.store.sequence ⟨2⟩).exhausted = true ∧
      session.store.Draws ⟨2⟩ ⟨1⟩ ∧ (session.store.sequence ⟨1⟩).exhausted = false := by
  have evaluated : ((Session.mk .trapped []).play 14 ⟨0⟩ [.next, .next]).map (fun played =>
      let store := played.2.store
      ((store.sequence ⟨0⟩).exhausted, store.supplyOf ⟨0⟩, (store.sequence ⟨2⟩).exhausted, store.supplyOf ⟨2⟩,
        (store.sequence ⟨1⟩).exhausted)) = some (true, some ⟨2⟩, true, some ⟨1⟩, false) := by decide +kernel
  obtain ⟨⟨outcomes, session⟩, played, evaluated⟩ := Option.map_eq_some_iff.mp evaluated
  simp only [Prod.mk.injEq] at evaluated
  exact ⟨outcomes, session, played, evaluated⟩

end FirstSeen
