import FirstSeen.Proofs.Laps
import FirstSeen.Proofs.Turning

/-!
# The laps of one sequence

What the journal tells of the laps of a sequence, whatever else happens. If nothing is done to the sequence while it hands out an
element, a line is written just where the flag turns that the end was met: the laps that are told follow one upon the other, from
where the flag was to where it is.

A stage that is spread for its own key function tells its end twice: once while its key is found, and once more where the key
then fails with a signal of the end.
-/

set_option autoImplicit false

namespace FirstSeen

open Run Store

/-- The account that the laps which are told of a sequence take its flag from where it was to where it is. -/
def Account.heralding (id : SequenceId) : Account := fun state told next =>
  Lap.follow state.exhausted (told.filterMap (Notice.lap? id)) = some next.exhausted

/-- What is told of another sequence is no lap of this one. -/
theorem Notice.lap?_aside {id : SequenceId} {notice : Notice} (apart : notice.subject ≠ id) : notice.lap? id = none := by
  cases notice <;> simp_all [Notice.lap?, Notice.subject]

instance (id : SequenceId) : (Account.heralding id).Bodiless id where
  refl _ := rfl
  trans {state next last told more} first second := by
    rw [Account.heralding, List.filterMap_append, Lap.follow_append, show Lap.follow state.exhausted _ = _ from first]
    exact second
  aside state notice apart := by
    rw [Account.heralding, List.filterMap_cons, Notice.lap?_aside apart]
    rfl
  fresh _ _ := rfl
  output _ _ := rfl
  body _ _ := rfl
  noted state notice _ unexhausted unrewound := by
    have untold : notice.lap? id = none := by
      cases notice with
      | exhausted other kind =>
        refine if_neg fun same => unexhausted kind ?_
        rw [same]
      | rewound other kind =>
        refine if_neg fun same => unrewound kind ?_
        rw [same]
      | listLookup | limitReached => rfl
    rw [Account.heralding, List.filterMap_cons, untold]
    rfl

namespace Calls

variable {c : Calls} {id : SequenceId}

/-- An account holds where the sequence changes and a line is written about it, if it allows both together. -/
theorem accords_turned {A : Account} {store : Store} (inside : id.index < store.sequences.size)
    {f : SequenceState → SequenceState} {notice : Notice} (allowed : A (store.sequence id) [notice] (f (store.sequence id))) :
    Accords A id store { store.updated id f with journal := store.journal.push notice } := by
  refine ⟨by simp, [notice], Array.toList_push, ?_⟩
  change A (store.sequence id) [notice] ((store.updated id f).sequence id)
  rwa [sequence_updated inside]

/-- A sequence that was not at its end tells of it as it signals it. -/
theorem heralds_signalEnd {store : Store} (inside : id.index < store.sequences.size)
    (before : (store.sequence id).exhausted = false) :
    Accords (.heralding id) id store ((signalEnd id).from? store).2 := by
  let ended := store.updated id fun state => { state with exhausted := true }
  let said : Store := { ended with journal := ended.journal.push (.exhausted id (ended.sequence id).body.kind) }
  have tells : Accords (.heralding id) id store said := accords_turned inside (by simp [Account.heralding, before, Notice.lap?]; rfl)
  rw [signalEnd, from?_bind_ok (from?_updateSequence ..), from?_bind_ok (from?_sequence ..), from?_bind_ok (from?_tell ..)]
  exact trans_of _ tells (Run.obeys_cleanUp (accords_bodies (A := .heralding id)) said)

/-- A sequence that is not there has nothing to pull from, and does not say that it is at its end. -/
theorem sparing_outside {store : Store} (outside : ¬id.index < store.sequences.size) (n : Nat) :
    ∃ halt, ((sparing id n).pull id).from? store = (.error halt, store) ∧ ∀ fault, halt = .fault fault → fault.isEnd = false := by
  cases n with
  | zero => exact ⟨_, rfl, fun _ same => by cases same⟩
  | succ n =>
    refine ⟨_, pullWith_outside outside, fun fault same => ?_⟩
    cases same
    rfl

/-- Operations that spare a sequence keep the account of its laps. -/
theorem obeys_heralding_sparing (id : SequenceId) (n : Nat) : (sparing id n).Obeys (.keeping (Accords (.heralding id) id)) :=
  @obeys_sparing id (.keeping (Accords (.heralding id) id)) _ accords_keepOutput
    (fun _ apart => (accords_moves apart).serves) accords_bodies.fills n

/-- If nothing else is done to a sequence while it hands out an element, it tells of its end if it meets it. -/
theorem heralds_next (id : SequenceId) (n : Nat) (store : Store) :
    Accords (.heralding id) id store (((sparing id n).nextWith id).from? store).2 := by
  cases waiting : (store.sequence id).peeked with
  | some v =>
    rw [next_awaited waiting]
    exact .of_updated store rfl
  | none =>
    cases before : (store.sequence id).exhausted with
    | true =>
      rw [next_over ⟨before, waiting⟩]
      exact refl_of _ store
    | false =>
      let marked := store.updated id fun state => { state with started := true }
      have marks : Accords (.heralding id) id store marked := .of_updated store rfl
      have pulled : Accords (.heralding id) id store _ := trans_of _ marks ((obeys_heralding_sparing id n).pull id marked)
      rw [next_unawaited waiting before]
      by_cases inside : id.index < store.sequences.size
      · -- The flag stays down while the sequence is spared.
        obtain ⟨size, _, -, lasts⟩ := (obeys_lasting_sparing (·.exhausted = false) id n).pull id marked
        have unended := lasts (by rw [sequence_updated inside]; exact before)
        rcases drawn : ((sparing id n).pull id).from? marked with ⟨(fault | _) | v, left⟩ <;>
          rw [drawn] at pulled size unended <;> simp only
        · split
          · have there : id.index < left.sequences.size := Nat.lt_of_lt_of_le inside (by simpa [marked] using size)
            exact trans_of _ pulled (heralds_signalEnd there unended)
          · exact pulled
        · exact pulled
        · exact pulled
      · obtain ⟨halt, drawn, unending⟩ := sparing_outside (show ¬id.index < marked.sequences.size by simpa [marked] using inside) n
        rw [drawn] at pulled ⊢
        cases halt with
        | outOfFuel => exact pulled
        | fault fault =>
          simp only [unending fault rfl, Bool.false_eq_true, if_false]
          exact pulled

/-- A sequence tells that it begins again wherever it is taken back. -/
theorem heralds_rewind (obeys : c.Obeys (.keeping (Accords (.heralding id) id))) (store : Store) :
    Accords (.heralding id) id store ((c.rewindWith id).from? store).2 := by
  have resets : Accords (.heralding id) id store _ := obeys.reset accords_bodies store
  change Accords (.heralding id) id store ((c.reset id >>= fun _ => restart id).from? store).2
  rcases reset : (c.reset id).from? store with ⟨halt | _, left⟩ <;> rw [reset] at resets
  · rw [from?_bind_error reset]
    exact resets
  · rw [from?_bind_ok reset]
    have there : id.index < left.sequences.size := by
      refine Nat.lt_of_lt_of_le (Decidable.byContradiction fun outside => ?_) resets.size
      rw [Calls.reset, from?_bind_ok (from?_sequence ..), sequence_outside outside] at reset
      cases reset
    exact trans_of _ resets (accords_turned there (by simp [Account.heralding, Notice.lap?]; rfl))

/-- Orderly operations keep the account of the laps of a sequence. -/
theorem obeys_heralding (id : SequenceId) (n : Nat) : (orderly id n).Obeys (.keeping (Accords (.heralding id) id)) :=
  @obeys_orderly id (.keeping (Accords (.heralding id) id)) _ accords_keepOutput
    (fun _ apart => (accords_moves apart).serves) accords_bodies.fills (fun n _ => heralds_next id n) heralds_rewind n

/-- Peeking makes an element wait, which is told of nowhere. -/
theorem heralds_peek (obeys : c.Obeys (.keeping (Accords (.heralding id) id))) (other : SequenceId) :
    (c.peek other).Keeps (Accords (.heralding id) id) := by
  intro store
  cases waiting : (store.sequence other).peeked with
  | some v =>
    rw [peek_awaited waiting]
    exact refl_of _ store
  | none =>
    have drawn : Accords (.heralding id) id store _ := obeys.next other store
    rw [peek_unawaited waiting]
    rcases asked : (c.next other).from? store with ⟨halt | v, left⟩ <;> rw [asked] at drawn
    · exact drawn
    · have waits : Accords (.heralding id) id left (left.awaiting other v) := by
        by_cases same : other = id
        · subst same
          exact .of_updated left rfl
        · exact .of_other same _
      exact trans_of _ drawn waits

/-- Whatever a program does, the laps that are told of a sequence take its flag from where it was to where it is, if neither
handing out an element nor taking it back happens while an element of it is being handed out. -/
theorem laps_told {α : Type} {operation : Calls → Run α} (program : Program operation) {n : Nat} {store : Store}
    (inOrder : IsOrderly id operation n store) :
    Accords (.heralding id) id store ((operation (calls n)).from? store).2 := by
  rw [inOrder.leaves program]
  exact program.obeys (obeys_heralding id n) (heralds_peek (obeys_heralding id n)) store

end Calls

end FirstSeen
