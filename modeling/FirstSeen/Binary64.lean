/-!
# Binary floating point

Numbers of the IEEE format with 64 bits, held by their bits, and the exact number that a bit pattern
stands for: a significand times a power of two. Comparison and hashing go through that exact number
and never through rounding, so that a float equals an integer only if it is that integer.
-/

set_option autoImplicit false

namespace FirstSeen

/-- A floating-point number of 64 bits, highest bit the sign. -/
structure Binary64 where
  bits : UInt64
deriving DecidableEq, Inhabited

namespace Binary64

/-- The sign bit: set for negative numbers and for negative zero. -/
def negative (x : Binary64) : Bool := (1 <<< 63) ≤ x.bits.toNat

/-- The eleven bits of the exponent, as they are stored. -/
def storedExponent (x : Binary64) : Nat := (x.bits.toNat >>> 52) % (1 <<< 11)

/-- The fifty-two bits after the leading one. -/
def fraction (x : Binary64) : Nat := x.bits.toNat % (1 <<< 52)

/-- All exponent bits set and a fraction: no number at all. -/
def isNaN (x : Binary64) : Bool := x.storedExponent == 2047 && x.fraction != 0

/-- All exponent bits set and no fraction. -/
def isInfinite (x : Binary64) : Bool := x.storedExponent == 2047 && x.fraction == 0

/-- The magnitude is this times two to the `exponent`: normal numbers have a leading one. -/
def significand (x : Binary64) : Nat :=
  if x.storedExponent = 0 then x.fraction else (1 <<< 52) + x.fraction

/-- The power of two by which the significand is scaled. -/
def exponent (x : Binary64) : Int :=
  if x.storedExponent = 0 then -1074 else (x.storedExponent : Int) - 1075

/-- The integer that a number is, if it is one. -/
def whole? (x : Binary64) : Option Int :=
  if x.storedExponent = 2047 then none
  else
    let magnitude : Option Nat :=
      match x.exponent with
      | .ofNat e => some (x.significand <<< e)
      | .negSucc e =>
        if x.significand % (1 <<< (e + 1)) = 0 then some (x.significand >>> (e + 1)) else none
    magnitude.map fun m => if x.negative then -(m : Int) else m

/-- The same number without its sign. -/
def abs (x : Binary64) : Binary64 := ⟨x.bits &&& 0x7fffffffffffffff⟩

/-- The same number with the other sign. -/
def neg (x : Binary64) : Binary64 := ⟨x.bits ^^^ 0x8000000000000000⟩

/-- Greater than zero. Not meant for the patterns that are no number. -/
def isPositive (x : Binary64) : Bool :=
  !x.negative && (x.significand != 0 || x.storedExponent == 2047)

end Binary64

/-- The exact number behind an integer or a float, in a form in which equal numbers are equal: an
integer if it is one, else the bits of the float. -/
inductive Numeral where
  | whole (n : Int)
  | other (x : Binary64)
deriving DecidableEq, Inhabited

namespace Numeral

/-- The exact number behind a float. -/
def ofFloat (x : Binary64) : Numeral :=
  match x.whole? with
  | some n => .whole n
  | none => .other x

/-- The modulus of numeric hashing, a Mersenne prime. It is kept as one number, since a literal of this
size would be read anew at every use. -/
@[noinline] def hashModulus : Nat := (1 <<< 61) - 1

/-- The remainder of a magnitude with its sign, where the one value kept for errors moves on. -/
private def signed (negative : Bool) (remainder : Nat) : Int :=
  let h : Int := if negative then -(remainder : Int) else remainder
  if h = -1 then -2 else h

/-- Numbers that are equal hash alike, whatever their type: the number is taken modulo a prime, and
halving is multiplication by `2 ^ 60`, since `2 ^ 61` is one there. -/
def hash : Numeral → Int
  | .whole n => signed (n < 0) (n.natAbs % hashModulus)
  | .other x =>
    if x.isInfinite then (if x.negative then -314159 else 314159)
    else signed x.negative ((x.significand <<< (x.exponent % 61).toNat) % hashModulus)

end Numeral

end FirstSeen
