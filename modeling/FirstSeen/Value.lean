import FirstSeen.Fault
import FirstSeen.Binary64

/-!
# Values

The data that sequences carry: numbers, text, bytes, containers and references to the objects of a
store.

Two values may be the *same object* or merely *equal*. In a comparison the difference shows only for
objects that do not equal themselves, which are the NaNs, and for probes, whose comparison may fail;
these two carry an `Identity`. All other values are compared by their contents. Where it matters which
object a value is, or where a list may change, the value is a reference: to a `DatumId` for an object
that stays as it is, to a `ListId` for a list. The store knows their contents.
-/

set_option autoImplicit false

namespace FirstSeen

/-- A sequence of a store. -/
structure SequenceId where
  index : Nat
deriving DecidableEq, Inhabited

/-- An iterator of a store. -/
structure CursorId where
  index : Nat
deriving DecidableEq, Inhabited

/-- An object of a store that stays as it is, told apart from others with the same contents. -/
structure DatumId where
  index : Nat
deriving DecidableEq, Inhabited

/-- A list of a store, which its holders share and may change. -/
structure ListId where
  index : Nat
deriving DecidableEq, Inhabited

/-- A source object of a store: something that can be iterated or called. -/
structure SourceId where
  index : Nat
deriving DecidableEq, Inhabited

/-- A key function of a store. -/
structure KeyId where
  index : Nat
deriving DecidableEq, Inhabited

/-- A step of a store. -/
structure StepId where
  index : Nat
deriving DecidableEq, Inhabited

/-- A fault held as an object of a store. -/
structure FaultId where
  index : Nat
deriving DecidableEq, Inhabited

/-- A reference to an object of a store. Two references are the same object exactly if they are
equal. -/
inductive Ref where
  | sequence (id : SequenceId)
  | cursor (id : CursorId)
  | datum (id : DatumId)
  | list (id : ListId)
  | source (id : SourceId)
  | key (id : KeyId)
  | step (id : StepId)
  | fault (id : FaultId)
deriving DecidableEq, Inhabited

/-- Which object a NaN or a probe is: where it was written, and in which call of a key function it
was made (zero for an object that was there from the start). -/
structure Identity where
  site : Nat
  call : Nat
deriving DecidableEq, Inhabited

/-- How hashing a probe ends: with a number or with a fault. -/
inductive ProbeHash where
  | number (n : Int)
  | fails (kind : ErrorKind)
deriving DecidableEq, Inhabited

/-- How comparing a probe ends: by its number, or with a fault. -/
inductive ProbeEquality where
  | byNumber
  | fails (kind : ErrorKind)
deriving DecidableEq, Inhabited

/-- An object made to observe hashing and comparison. -/
structure Probe where
  identity : Identity
  number : Int
  hash : ProbeHash
  equality : ProbeEquality
deriving DecidableEq, Inhabited

/-- The values that sequences carry. -/
inductive Value where
  /-- The value that stands for "nothing" and for "not given". -/
  | null
  | bool (b : Bool)
  | int (n : Int)
  /-- A float that is a number or infinite. -/
  | float (x : Binary64)
  /-- The float that is no number. -/
  | nan (identity : Identity)
  | str (text : String)
  | bytes (content : List UInt8)
  | bytearray (content : List UInt8)
  | list (items : List Value)
  | tuple (items : List Value)
  /-- Entries in the order in which their keys came, with pairwise different keys. -/
  | dict (entries : List (Value × Value))
  /-- Members in the order in which they came, pairwise different. -/
  | set (members : List Value)
  /-- Members in the order in which they came, pairwise different. -/
  | frozenset (members : List Value)
  | probe (p : Probe)
  /-- The numbers from `start` towards `stop` in steps of `step`, which is not zero. -/
  | range (start stop step : Int)
  | object (ref : Ref)
deriving Inhabited

namespace Value

/-- A sequence as a value. -/
abbrev ofSequence (id : SequenceId) : Value := .object (.sequence id)

/-- An iterator as a value. -/
abbrev ofCursor (id : CursorId) : Value := .object (.cursor id)

/-- A natural number as a value. -/
abbrev ofNat (n : Nat) : Value := .int n

/-- Whether a value stands for "not given". -/
def isNull : Value → Bool
  | null => true
  | _ => false

/-- Whether there is only one object with these contents: small integers, the empty text and byte
string, single characters up to code point 255 and single bytes, and the empty tuple are never made
twice. NaNs and probes know which object they are. -/
def isCanonical : Value → Bool
  | null | bool _ | nan _ | probe _ | object _ => true
  | int n => -5 ≤ n && n ≤ 256
  | str text =>
    match text.toList with
    | [] => true
    | [c] => c.toNat < 256
    | _ => false
  | bytes content => content.length ≤ 1
  | tuple items => items.isEmpty
  | float _ | bytearray _ | list _ | dict _ | set _ | frozenset _ | range .. => false

/-- Whether two values are one object. Values that are held by their contents are one object only if
there is no other object with these contents. -/
def isSame : Value → Value → Bool
  | null, null => true
  | bool a, bool b => a == b
  | int a, int b => a == b && isCanonical (int a)
  | str a, str b => a == b && isCanonical (str a)
  | bytes a, bytes b => a == b && isCanonical (bytes a)
  | tuple [], tuple [] => true
  | nan a, nan b => a == b
  | probe p, probe q => p.identity == q.identity
  | object a, object b => a == b
  | _, _ => false

/-- The exact number that a value is. -/
def numeral? : Value → Option Numeral
  | bool b => some (.whole (if b then 1 else 0))
  | int n => some (.whole n)
  | float x => some (.ofFloat x)
  | _ => none

/-- The integer that a value is by its type: booleans count as zero and one. -/
def integer? : Value → Option Int
  | bool b => some (if b then 1 else 0)
  | int n => some n
  | _ => none

/-- How many numbers a range holds. -/
def rangeLength (start stop step : Int) : Nat :=
  if 0 < step then ((stop - start + step - 1) / step).toNat
  else ((start - stop - step - 1) / -step).toNat

/-- The numbers of a range, which equal ranges share: its length, its first number unless it is
empty, and its step unless there is at most one number. -/
def rangeKey (start stop step : Int) : Nat × Option Int × Option Int :=
  let n := rangeLength start stop step
  (n, if n = 0 then none else some start, if n ≤ 1 then none else some step)

/-- The `i`-th number of a range. -/
def rangeItem? (start stop step : Int) (i : Nat) : Option Value :=
  if i < rangeLength start stop step then some (.int (start + i * step)) else none

/-- The characters of a text, each a text of its own. -/
def characters (text : String) : List Value := text.toList.map fun c => .str (String.singleton c)

/-- The bytes of a byte string, as numbers. -/
def byteNumbers (content : List UInt8) : List Value := content.map fun b => .int b.toNat

/-- What a value that is no object of a store gives when it is iterated, if it can be. -/
def items? : Value → Option (List Value)
  | str text => some (characters text)
  | bytes content | bytearray content => some (byteNumbers content)
  | list items | tuple items | set items | frozenset items => some items
  | dict entries => some (entries.map Prod.fst)
  | range start stop step =>
    some ((List.range (rangeLength start stop step)).map fun (i : Nat) => .int (start + i * step))
  | _ => none

mutual

/-- The value with each reference replaced. -/
def mapRefs (f : Ref → Value) : Value → Value
  | list items => list (mapRefsIn f items)
  | tuple items => tuple (mapRefsIn f items)
  | dict entries => dict (mapRefsInEntries f entries)
  | set members => set (mapRefsIn f members)
  | frozenset members => frozenset (mapRefsIn f members)
  | object ref => f ref
  | v => v

/-- The values with each reference replaced. -/
def mapRefsIn (f : Ref → Value) : List Value → List Value
  | [] => []
  | item :: rest => mapRefs f item :: mapRefsIn f rest

/-- The entries with each reference replaced. -/
def mapRefsInEntries (f : Ref → Value) : List (Value × Value) → List (Value × Value)
  | [] => []
  | (k, v) :: rest => (mapRefs f k, mapRefs f v) :: mapRefsInEntries f rest

end

mutual

/-- The references in a value. -/
def refs : Value → List Ref
  | list items | tuple items | set items | frozenset items => refsIn items
  | dict entries => refsInEntries entries
  | object ref => [ref]
  | _ => []

/-- The references in several values. -/
def refsIn : List Value → List Ref
  | [] => []
  | item :: rest => refs item ++ refsIn rest

/-- The references in several entries. -/
def refsInEntries : List (Value × Value) → List Ref
  | [] => []
  | (k, v) :: rest => refs k ++ refs v ++ refsInEntries rest

end

/-- How many items a value has that is no object of a store. -/
def length? : Value → Option Nat
  | str text => some text.length
  | bytes content | bytearray content => some content.length
  | list items | tuple items | set items | frozenset items => some items.length
  | dict entries => some entries.length
  | range start stop step => some (rangeLength start stop step)
  | _ => none

/-- The name of a value's type. Objects of a store are named by the store. -/
def typeName? : Value → Option String
  | null => some "NoneType"
  | bool _ => some "bool"
  | int _ => some "int"
  | float _ | nan _ => some "float"
  | str _ => some "str"
  | bytes _ => some "bytes"
  | bytearray _ => some "bytearray"
  | list _ => some "list"
  | tuple _ => some "tuple"
  | dict _ => some "dict"
  | set _ => some "set"
  | frozenset _ => some "frozenset"
  | probe _ => some "Probe"
  | range .. => some "range"
  | object _ => none

/-- The first number past the signed words of 64 bits. -/
def wordLimit : Nat := 1 <<< 63

/-- The name of the type of a value's iterator, where the value is no object of a store. A range
that would leave the signed word of 64 bits while it is counted through has an iterator of its
own type. -/
def iteratorName : Value → String
  | str text => if text.toList.all (fun c => c.toNat < 128) then "str_ascii_iterator" else "str_iterator"
  | bytes _ => "bytes_iterator"
  | bytearray _ => "bytearray_iterator"
  | tuple _ => "tuple_iterator"
  | dict _ => "dict_keyiterator"
  | set _ | frozenset _ => "set_iterator"
  | range start stop step =>
    let inWord (n : Int) : Bool := -(wordLimit : Int) ≤ n && n < wordLimit
    let length := rangeLength start stop step
    let past := if 0 < step then stop + (step - 1) else stop + (step + 1)
    if inWord start && inWord stop && inWord step && inWord length && (length == 0 || inWord past)
    then "range_iterator" else "longrange_iterator"
  | _ => "list_iterator"

end Value

end FirstSeen
