import FirstSeen.Equality

/-!
# Building sets and dictionaries

A set holds the first of equal members, and a dictionary the first of equal keys with the last of their
values, both in the order in which members and keys came.
-/

set_option autoImplicit false

namespace FirstSeen

namespace Value

/-- Whether a stored key is the one that is sought. -/
def isKey (stored sought : Value) : Except Fault Bool :=
  ifSameHash stored sought fun _ => matchesStored stored sought

/-- The members with one more, unless an equal one is there. -/
def insertMember (members : List Value) (v : Value) : Except Fault (List Value) := do
  match v.hashFault? with
  | some fault => .error fault
  | none => if ← search (isKey · v) members then return members else return members ++ [v]

/-- The members of the set that holds these values. -/
def membersOf (values : List Value) : Except Fault (List Value) := values.foldlM insertMember []

/-- The entries with the value under a key set. -/
def setEntry (key value : Value) : List (Value × Value) → Except Fault (List (Value × Value))
  | [] => .ok [(key, value)]
  | (k, v) :: rest => do
    if ← isKey k key then return (k, value) :: rest
    return (k, v) :: (← setEntry key value rest)

/-- The entries with one more, or with its value in the place of another. -/
def insertEntry (entries : List (Value × Value)) (entry : Value × Value) :
    Except Fault (List (Value × Value)) :=
  match entry.1.hashFault? with
  | some fault => .error fault
  | none => setEntry entry.1 entry.2 entries

/-- The entries of the dictionary that is given these entries in turn. -/
def entriesOf (entries : List (Value × Value)) : Except Fault (List (Value × Value)) :=
  entries.foldlM insertEntry []

end Value

end FirstSeen
