import FirstSeen.Value

/-!
# Equality, identity and hashing of values

When two values are equal, when they are the same object, which values can be hashed, and which of
them hash alike.

Numbers are compared exactly and whatever their type, byte strings by content, lists and tuples item
by item, sets by their members and dictionaries by their entries. Inside a container, and in a search
among seen keys, two items that are the same object are not compared at all: `same` asks for identity
first and for equality second.

Comparison has a direction, because a probe that is asked may fail. Sets and dictionaries look up the
members of the left operand in the right one, and in such a look-up the stored member becomes the left
operand. The functions recurse on their first argument, and the flag `flipped` tells that this is
the right operand.
-/

set_option autoImplicit false

namespace FirstSeen

/-- What hashing a value that is no container comes to: two values hash alike if these agree. Only
the numbers matter across types, since the hash of a probe is a number. -/
inductive HashCode where
  | number (n : Int)
  | text (s : String)
  | bytes (content : List UInt8)
  | null
  | notANumber (identity : Identity)
  | range (key : Nat × Option Int × Option Int)
  | object (ref : Ref)
deriving DecidableEq

namespace Value

/-- The same object, as far as it shows. Values that equal themselves need no identity. -/
def identical : Value → Value → Bool
  | nan a, nan b => a == b
  | probe p, probe q => p.identity == q.identity
  | object a, object b => a == b
  | _, _ => false

/-- The fault by which a probe's hash function fails. -/
def probeHashFault (p : Probe) (kind : ErrorKind) : Fault :=
  .scripted kind ("hash of probe " ++ toString p.number)

/-- The fault by which a probe's comparison fails. -/
def probeEqualityFault (p : Probe) (kind : ErrorKind) : Fault :=
  .scripted kind ("eq of probe " ++ toString p.number)

/-- The hash code of a value that is neither a container nor a probe that fails. Empty text and empty
byte strings hash to zero. -/
def hashCode? : Value → Option HashCode
  | null => some .null
  | bool b => some (.number (Numeral.whole (if b then 1 else 0)).hash)
  | int n => some (.number (Numeral.whole n).hash)
  | float x => some (.number (Numeral.ofFloat x).hash)
  | nan identity => some (.notANumber identity)
  | str text => some (if text.isEmpty then .number 0 else .text text)
  | bytes content => some (if content.isEmpty then .number 0 else .bytes content)
  | probe p =>
    match p.hash with
    | .number n => some (.number (Numeral.whole n).hash)
    | .fails _ => none
  | range start stop step => some (.range (rangeKey start stop step))
  | object ref => some (.object ref)
  | bytearray _ | list _ | tuple _ | dict _ | set _ | frozenset _ => none

mutual

/-- Why a value cannot be hashed, if it cannot: it is, or a tuple in it holds, something that can
change, or a probe in it fails. -/
def hashFault? : Value → Option Fault
  | bytearray _ => some (.unhashable "bytearray")
  | list _ => some (.unhashable "list")
  | dict _ => some (.unhashable "dict")
  | set _ => some (.unhashable "set")
  | tuple items => itemsHashFault? items
  | probe p =>
    match p.hash with
    | .number _ => none
    | .fails kind => some (probeHashFault p kind)
  | _ => none

/-- The first item that cannot be hashed decides. -/
def itemsHashFault? : List Value → Option Fault
  | [] => none
  | item :: rest =>
    match hashFault? item with
    | some fault => some fault
    | none => itemsHashFault? rest

end

/-- Whether a value can be hashed. -/
def isHashable (v : Value) : Bool := (hashFault? v).isNone

mutual

/-- Whether two values hash alike. -/
def sameHash : Value → Value → Bool
  | tuple xs, other =>
    match other with
    | tuple ys => sameHashes xs ys
    | _ => false
  | frozenset xs, other =>
    match other with
    | frozenset ys => xs.length == ys.length && allHashedIn xs ys
    | _ => false
  | x, y =>
    match hashCode? x, hashCode? y with
    | some a, some b => a == b
    | _, _ => false

/-- Whether two lists of values hash alike item by item. -/
def sameHashes : List Value → List Value → Bool
  | [], ys => ys.isEmpty
  | x :: xs, ys =>
    match ys with
    | [] => false
    | y :: rest => sameHash x y && sameHashes xs rest

/-- Whether every value of the first list hashes like one of the second. -/
def allHashedIn : List Value → List Value → Bool
  | [], _ => true
  | x :: xs, ys => ys.any (fun y => sameHash x y) && allHashedIn xs ys

end

/-- Whether two values are equal that are neither containers nor probes. -/
def equalAtoms : Value → Value → Bool
  | null, null => true
  | int a, int b => a == b
  | str a, str b => a == b
  | bytes a, bytes b | bytes a, bytearray b | bytearray a, bytes b | bytearray a, bytearray b => a == b
  | range a b c, range a' b' c' => rangeKey a b c == rangeKey a' b' c'
  | object a, object b => a == b
  | x, y =>
    match x.numeral?, y.numeral? with
    | some m, some n => m == n
    | _, _ => false

/-- Comparison with a probe in it. The left operand answers if it is a probe that fails, or if both
are probes; else the right one is asked. A probe equals only probes of its own number. -/
def equalProbes (left right : Value) : Except Fault Bool :=
  match left, right with
  | probe p, probe q =>
    match p.equality with
    | .fails kind => .error (probeEqualityFault p kind)
    | .byNumber => .ok (p.number == q.number)
  | probe p, _ | _, probe p =>
    match p.equality with
    | .fails kind => .error (probeEqualityFault p kind)
    | .byNumber => .ok false
  | _, _ => .ok false

/-- Whether a value is a probe. -/
def isProbe : Value → Bool
  | probe _ => true
  | _ => false

/-- Equality of two values of which not both are containers of one sort. -/
def equalOthers (flipped : Bool) (x y : Value) : Except Fault Bool :=
  if x.isProbe || y.isProbe then if flipped then equalProbes y x else equalProbes x y
  else .ok (equalAtoms x y)

/-- The members of a set of either sort. -/
def members? : Value → Option (List Value)
  | set members | frozenset members => some members
  | _ => none

/-- Whether one of the candidates satisfies a test that may fail. They are tried in order. -/
def search {α : Type} (test : α → Except Fault Bool) : List α → Except Fault Bool
  | [] => .ok false
  | a :: rest => do
    if ← test a then return true
    search test rest

/-- The first of the candidates that satisfies a test that may fail. -/
def searchFirst {α : Type} (test : α → Except Fault Bool) : List α → Except Fault (Option α)
  | [] => .ok none
  | a :: rest => do
    if ← test a then return some a
    searchFirst test rest

/-- Whether all of the candidates satisfy a test that may fail. -/
def searchAll {α : Type} (test : α → Except Fault Bool) : List α → Except Fault Bool
  | [] => .ok true
  | a :: rest => do
    if ← test a then searchAll test rest else return false

/-- Looks at a test of two values that hash differently: they are not compared. -/
@[inline] def ifSameHash (x y : Value) (test : Unit → Except Fault Bool) : Except Fault Bool :=
  if sameHash x y then test () else .ok false

/-- Looks at a test of two values that are the same object: they are not compared. -/
@[inline] def unlessIdentical (x y : Value) (test : Unit → Except Fault Bool) : Except Fault Bool :=
  if identical x y then .ok true else test ()

mutual

/-- Whether two values are equal. If `flipped`, the second is the left operand. -/
def equal (flipped : Bool) : Value → Value → Except Fault Bool
  | list xs, other =>
    match other with
    | list ys => if xs.length = ys.length then equalItems flipped xs ys else .ok false
    | _ => equalOthers flipped (list xs) other
  | tuple xs, other =>
    match other with
    | tuple ys => equalItems flipped xs ys
    | _ => equalOthers flipped (tuple xs) other
  | set xs, other =>
    match other.members? with
    | some ys =>
      if xs.length = ys.length then
        if flipped then searchAll (fun y => hasMember xs y) ys else membersIn xs ys
      else .ok false
    | none => equalOthers flipped (set xs) other
  | frozenset xs, other =>
    match other.members? with
    | some ys =>
      if xs.length = ys.length then
        if flipped then searchAll (fun y => hasMember xs y) ys else membersIn xs ys
      else .ok false
    | none => equalOthers flipped (frozenset xs) other
  | dict xs, other =>
    match other with
    | dict ys =>
      if xs.length = ys.length then
        if flipped then searchAll (fun entry => hasEntry xs entry) ys else entriesIn xs ys
      else .ok false
    | _ => equalOthers flipped (dict xs) other
  | x, y => equalOthers flipped x y
termination_by structural x => x

/-- Whether two lists of values are the same item by item, up to the first difference. -/
def equalItems (flipped : Bool) : List Value → List Value → Except Fault Bool
  | [], ys => .ok ys.isEmpty
  | x :: xs, ys =>
    match ys with
    | [] => .ok false
    | y :: rest => do
      if ← unlessIdentical x y fun _ => equal flipped x y then equalItems flipped xs rest
      else return false
termination_by structural xs => xs

/-- Whether all of the values are members of a set. -/
def membersIn : List Value → List Value → Except Fault Bool
  | [], _ => .ok true
  | x :: xs, ys => do
    let found ← search (fun y => ifSameHash x y fun _ => unlessIdentical x y fun _ => equal true x y) ys
    if found then membersIn xs ys else return false
termination_by structural xs => xs

/-- Whether a value is among the members of a set. -/
def hasMember : List Value → Value → Except Fault Bool
  | [], _ => .ok false
  | x :: xs, y => do
    if ← ifSameHash x y fun _ => unlessIdentical x y fun _ => equal false x y then return true
    hasMember xs y
termination_by structural xs => xs

/-- Whether all of the entries are entries of a dictionary. -/
def entriesIn : List (Value × Value) → List (Value × Value) → Except Fault Bool
  | [], _ => .ok true
  | (k, v) :: xs, ys => do
    let found ← searchFirst
      (fun entry => ifSameHash k entry.1 fun _ => unlessIdentical k entry.1 fun _ => equal true k entry.1) ys
    match found with
    | none => return false
    | some entry =>
      if ← unlessIdentical v entry.2 fun _ => equal true v entry.2 then entriesIn xs ys
      else return false
termination_by structural xs => xs

/-- Whether an entry is among the entries of a dictionary. -/
def hasEntry : List (Value × Value) → Value × Value → Except Fault Bool
  | [], _ => .ok false
  | (k, v) :: xs, entry => do
    if ← ifSameHash k entry.1 fun _ => unlessIdentical k entry.1 fun _ => equal false k entry.1 then
      unlessIdentical v entry.2 fun _ => equal false v entry.2
    else hasEntry xs entry
termination_by structural xs => xs

end

/-- Whether two values are the same object, or else equal. If `flipped`, the second is the left
operand. -/
def same (flipped : Bool) (x y : Value) : Except Fault Bool :=
  unlessIdentical x y fun _ => equal flipped x y

/-- Whether `left == right`. -/
def equals (left right : Value) : Except Fault Bool := equal false left right

/-- Whether a stored value and a sought one are the same object, or else equal. -/
def matchesStored (stored sought : Value) : Except Fault Bool := same false stored sought

end Value

end FirstSeen
