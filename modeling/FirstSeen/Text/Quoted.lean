import FirstSeen.Text.Printable

/-!
# Quoted text

The written form of texts and byte strings. It stands between single quotes, or between double quotes
if the text holds a single quote and no double one. The quote in use, the backslash and what is not
printable are escaped: line feed, carriage return and tab by a letter, all else by the hexadecimal
digits of its code point, as few of two, four and eight as suffice.
-/

set_option autoImplicit false

namespace FirstSeen.Text

/-- The lowest `width` hexadecimal digits of a number, in lower case. -/
def hexDigits : (width : Nat) → Nat → List Char
  | 0, _ => []
  | width + 1, n => hexDigits width (n / 16) ++ [Nat.digitChar (n % 16)]

/-- The escape of a code point by its digits. -/
def escapeByDigits (point : Nat) : List Char :=
  if point < 1 <<< 8 then '\\' :: 'x' :: hexDigits 2 point
  else if point < 1 <<< 16 then '\\' :: 'u' :: hexDigits 4 point
  else '\\' :: 'U' :: hexDigits 8 point

/-- A character between quotes of one sort. -/
def quoteChar (quote : Char) (printable : Char → Bool) (c : Char) : List Char :=
  if c = quote || c = '\\' then ['\\', c]
  else if c = '\n' then ['\\', 'n']
  else if c = '\r' then ['\\', 'r']
  else if c = '\t' then ['\\', 't']
  else if printable c then [c]
  else escapeByDigits c.toNat

/-- The single quote. -/
def singleQuote : Char := Char.ofNat 39

/-- The double quote. -/
def doubleQuote : Char := Char.ofNat 34

/-- The sort of quote that a text stands between. -/
def quoteFor (cs : List Char) : Char :=
  if cs.contains singleQuote && !cs.contains doubleQuote then doubleQuote else singleQuote

/-- Characters between quotes. -/
def quoteChars (printable : Char → Bool) (cs : List Char) : String :=
  let quote := quoteFor cs
  String.ofList (quote :: cs.flatMap (quoteChar quote printable) ++ [quote])

/-- The written form of a text. -/
def quote (text : String) : String := quoteChars isPrintable text.toList

/-- The written form of a byte string: each byte is a character, and only ASCII is printable. -/
def quoteBytes (content : List UInt8) : String :=
  "b" ++ quoteChars (fun c => c.toNat < 128 && isPrintable c)
    (content.map fun b => Char.ofNat b.toNat)

end FirstSeen.Text
