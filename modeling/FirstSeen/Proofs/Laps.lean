import FirstSeen.Proofs.Outcome

/-!
# Laps

A flag is raised and lowered in turns. Turns *follow* one upon the other if the flag is never raised where it is up, so that it is
lowered between any two turns that raise it. It may be lowered where it is down.

The turns of the flag of a sequence that it met its end are its *laps*. Each of them is told in the journal: a pass ends, or the
sequence begins again.
-/

set_option autoImplicit false

namespace FirstSeen

namespace Flag

/-- Whether a flag is up after some turns that raise it (`true`) or lower it (`false`), if these follow one upon the other. -/
def follow (up : Bool) : List Bool → Option Bool
  | [] => some up
  | true :: later => if up then none else follow true later
  | false :: later => follow false later

theorem follow_append (up : Bool) (turns later : List Bool) :
    follow up (turns ++ later) = (follow up turns).bind fun raised => follow raised later := by
  induction turns generalizing up with
  | nil => rfl
  | cons turn rest ih =>
    cases turn with
    | true =>
      simp only [List.cons_append, follow]
      split
      · rfl
      · exact ih true
    | false => exact ih false

/-- A flag that is up is raised again only after it was lowered. -/
theorem lowered_before {turns later : List Bool} (follows : (follow true (turns ++ true :: later)).isSome = true) :
    false ∈ turns := by
  induction turns with
  | nil => cases follows
  | cons turn rest ih =>
    cases turn with
    | true => cases follows
    | false => exact List.mem_cons_self

/-- Between two turns that raise a flag there is one that lowers it. -/
theorem lowered_between {up : Bool} {before between after : List Bool}
    (follows : (follow up (before ++ true :: (between ++ true :: after))).isSome = true) : false ∈ between := by
  rw [follow_append] at follows
  cases raised : follow up before with
  | none => simp [raised] at follows
  | some raised' =>
    rw [raised] at follows
    cases raised' with
    | true => cases follows
    | false => exact lowered_before follows

end Flag

/-- What ends a pass over a sequence, or makes it begin again. -/
inductive Lap where
  | exhausted
  | rewound
deriving DecidableEq

namespace Lap

/-- Whether a lap raises the flag that the end was met. -/
def raises : Lap → Bool
  | .exhausted => true
  | .rewound => false

/-- Whether an end is met after some laps, if these follow one upon the other: no end is met twice without beginning again. -/
def follow (exhausted : Bool) (laps : List Lap) : Option Bool := Flag.follow exhausted (laps.map raises)

theorem follow_append (exhausted : Bool) (laps later : List Lap) :
    follow exhausted (laps ++ later) = (follow exhausted laps).bind fun met => follow met later := by
  rw [follow, List.map_append, Flag.follow_append]
  rfl

/-- Between two ends of passes a sequence begins again. -/
theorem rewound_between {exhausted : Bool} {before between after : List Lap}
    (follows : (follow exhausted (before ++ .exhausted :: (between ++ .exhausted :: after))).isSome = true) :
    .rewound ∈ between := by
  rw [follow, List.map_append, List.map_cons, List.map_append, List.map_cons] at follows
  obtain ⟨lap, member, lowers⟩ := List.mem_map.mp (Flag.lowered_between follows)
  cases lap with
  | exhausted => cases lowers
  | rewound => exact member

end Lap

/-- The lap of a sequence that a notice tells. -/
def Notice.lap? (id : SequenceId) : Notice → Option Lap
  | .exhausted other _ => if other = id then some .exhausted else none
  | .rewound other _ => if other = id then some .rewound else none
  | .listLookup .. | .limitReached _ => none

end FirstSeen
