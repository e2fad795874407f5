import FirstSeen.Store
import FirstSeen.Text.Quoted
import FirstSeen.Decimal.Shortest

/-!
# Values in writing

The written form of a value, as messages show it: numbers in base ten, text quoted, items between the
brackets of their container, a tuple of one item with a comma after it. Objects of a store are written
by the name of their type.
-/

set_option autoImplicit false

namespace FirstSeen

/-- Written items with commas between them. -/
def commaSeparated (items : List String) : String := ", ".intercalate items

namespace Value

mutual

/-- The written form of a value. Types of objects are named by `nameOf`. -/
def shown (nameOf : Value → String) : Value → String
  | null => "None"
  | bool b => if b then "True" else "False"
  | int n => toString n
  | float x => Decimal.writeFloat x
  | nan _ => "nan"
  | str text => Text.quote text
  | bytes content => Text.quoteBytes content
  | bytearray content => "bytearray(" ++ Text.quoteBytes content ++ ")"
  | list items => "[" ++ commaSeparated (shownItems nameOf items) ++ "]"
  | tuple items =>
    match shownItems nameOf items with
    | [item] => "(" ++ item ++ ",)"
    | all => "(" ++ commaSeparated all ++ ")"
  | dict entries => "\x7b" ++ commaSeparated (shownEntries nameOf entries) ++ "\x7d"
  | set members =>
    if members.isEmpty then "set()"
    else "\x7b" ++ commaSeparated (shownItems nameOf members) ++ "\x7d"
  | frozenset members =>
    if members.isEmpty then "frozenset()"
    else "frozenset(\x7b" ++ commaSeparated (shownItems nameOf members) ++ "\x7d)"
  | probe _ => "<Probe>"
  | range start stop step =>
    let ends := [toString start, toString stop]
    "range(" ++ commaSeparated (if step = 1 then ends else ends ++ [toString step]) ++ ")"
  | object ref => "<" ++ nameOf (object ref) ++ ">"

/-- The written forms of several values. -/
def shownItems (nameOf : Value → String) : List Value → List String
  | [] => []
  | item :: rest => shown nameOf item :: shownItems nameOf rest

/-- The written forms of several entries. -/
def shownEntries (nameOf : Value → String) : List (Value × Value) → List String
  | [] => []
  | (k, v) :: rest => (shown nameOf k ++ ": " ++ shown nameOf v) :: shownEntries nameOf rest

end

end Value

namespace Store

/-- The written form of a value of this store. -/
def shown (store : Store) (v : Value) : String := Value.shown store.typeName (store.contents v)

/-- A value as text: a text is its own. -/
def asText (store : Store) (v : Value) : String :=
  match store.plain v with
  | .str text => text
  | _ => store.shown v

/-- The text of a fault that is an object, as its arguments are now. -/
def faultText (store : Store) (object : FaultObject) : String :=
  match object.arguments with
  | [] => ""
  | [v] => store.asText v
  | arguments => store.shown (.tuple arguments)

/-- How a value is spoken of when it is called. -/
def calleeName (store : Store) (v : Value) : String :=
  match v with
  | .object (.key _) => "key()"
  | .object (.source id) => ((store.source id).className.map (· ++ "()")).getD (store.asText v)
  | _ => store.asText v

end Store

end FirstSeen
