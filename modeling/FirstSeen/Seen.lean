import FirstSeen.Equality

/-!
# Seen keys

The memory of a distinct stage: which keys came earlier in the current pass.

Keys that can be hashed are kept in one collection, where only members that hash alike are compared;
all others in a plain list, where every member is compared. A key goes to the list when the look-up
in the first collection, or the addition to it, fails with a fault of a type kind. Two consequences
are worth knowing:

* a set is looked up as the frozen set of its members, so it is a duplicate of an equal frozen set
  that came earlier, and goes to the list otherwise;
* a frozen set is never looked for in the list, so it is fresh even after an equal set.
-/

set_option autoImplicit false

namespace FirstSeen

/-- The keys seen in a pass, both collections in the order in which their members came. -/
structure Seen where
  hashed : List Value := []
  listed : List Value := []
deriving Inhabited

/-- What recording a key may have to tell. -/
inductive SeenNotice where
  /-- The list is looked through although it is empty. -/
  | listLookup
  /-- The list holds exactly as many keys as the limit says. -/
  | limitReached
deriving DecidableEq

/-- How recording a key ends: whether the key is fresh, or a fault; the keys seen from then on; and
what there is to tell, in order. -/
structure Recording where
  outcome : Except Fault Bool
  seen : Seen
  notices : List SeenNotice := []

namespace Seen

/-- No keys. -/
def empty : Seen := {}

/-- Whether a hashable key is among the hashed ones. -/
def findHashed (seen : Seen) (key : Value) : Except Fault Bool :=
  Value.search (fun stored => Value.ifSameHash stored key fun _ => Value.matchesStored stored key)
    seen.hashed

/-- Whether a key is among the hashed ones, where a set stands for the frozen set of its members. -/
def lookUp (seen : Seen) (key : Value) : Except Fault Bool :=
  match key with
  | .set members => seen.findHashed (.frozenset members)
  | _ =>
    match key.hashFault? with
    | some fault => .error fault
    | none => seen.findHashed key

/-- Looks a key up among the hashed ones and adds it if it is fresh. -/
def recordHashed (seen : Seen) (key : Value) : Except Fault (Bool × Seen) :=
  match seen.lookUp key with
  | .error fault => .error fault
  | .ok true => .ok (false, seen)
  | .ok false =>
    match key.hashFault? with
    | some fault => .error fault
    | none => .ok (true, { seen with hashed := seen.hashed ++ [key] })

/-- Whether a key is in the list. -/
def findListed (seen : Seen) (key : Value) : Except Fault Bool :=
  Value.search (fun stored => Value.matchesStored stored key) seen.listed

/-- Whether the list holds exactly as many keys as the limit says. The limit may be any value. -/
def atLimit (seen : Seen) (limit : Value) : Except Fault Bool :=
  Value.equals (.ofNat seen.listed.length) limit

/-- Looks a key up in the list and adds it if it is fresh. The limit is looked at first, so that a
duplicate meets it too. -/
def recordListed (limit : Value) (raising : Bool) (seen : Seen) (key : Value) : Recording :=
  let opening := if seen.listed.isEmpty then [SeenNotice.listLookup] else []
  match seen.atLimit limit with
  | .error fault => ⟨.error fault, seen, opening⟩
  | .ok full =>
    if full && raising then ⟨.error .limitReached, seen, opening⟩
    else
      let notices := opening ++ if full then [SeenNotice.limitReached] else []
      match seen.findListed key with
      | .error fault => ⟨.error fault, seen, notices⟩
      | .ok true => ⟨.ok false, seen, notices⟩
      | .ok false => ⟨.ok true, { seen with listed := seen.listed ++ [key] }, notices⟩

/-- Records a key. If `raising`, reaching the limit is a fault; else it is only told. -/
def record (limit : Value) (raising : Bool) (seen : Seen) (key : Value) : Recording :=
  match seen.recordHashed key with
  | .ok (fresh, after) => ⟨.ok fresh, after, []⟩
  | .error fault =>
    if fault.isType then seen.recordListed limit raising key else ⟨.error fault, seen, []⟩

end Seen

end FirstSeen
