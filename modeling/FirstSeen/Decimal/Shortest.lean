import FirstSeen.Binary64

/-!
# Shortest decimals

The decimal with the fewest digits that reads back as a given float, and its written form.

A float is read back from every number that is nearer to it than to its neighbours, its *interval*. The
ends of the interval belong to it if the significand is even. On the grid of the multiples of a power
of ten, only the two grid points next to the float can be the nearest in its interval; the coarsest
grid with such a point gives the fewest digits, and of two points the nearer one is taken, or the even
one if they are equally near.
-/

set_option autoImplicit false

namespace FirstSeen.Decimal

/-- A positive number `digits * 10 ^ exponent`. -/
structure Decimal where
  digits : Nat
  exponent : Int
deriving DecidableEq, Inhabited

/-- A positive number as the midpoint of its interval, all scaled by one factor to be natural
numbers: `low`, `mid` and `high` stand for themselves divided by `unit`. -/
structure Interval where
  low : Nat
  mid : Nat
  high : Nat
  unit : Nat
  closed : Bool
deriving DecidableEq, Inhabited

/-- The interval of a finite, nonzero magnitude. The gap below a power of two is half of the gap above
it, except at the lowest exponent. -/
def Interval.ofFloat (x : Binary64) : Interval :=
  let m := x.significand
  let below := if x.fraction = 0 && 1 < x.storedExponent then 1 else 2
  let scale : Nat × Nat := match x.exponent - 2 with
    | .ofNat e => (1 <<< e, 1)
    | .negSucc e => (1, 1 <<< (e + 1))
  ⟨(4 * m - below) * scale.1, 4 * m * scale.1, (4 * m + 2) * scale.1, scale.2, m % 2 = 0⟩

/-- Whether `point / unit` lies in the interval. -/
def Interval.contains (i : Interval) (point : Nat) : Bool :=
  if i.closed then i.low ≤ point && point ≤ i.high else i.low < point && point < i.high

/-- The interval in units of ten to the `exponent`. -/
def Interval.scaled (i : Interval) (exponent : Int) : Interval :=
  match exponent with
  | .ofNat e => { i with unit := i.unit * Nat.pow 10 e }
  | .negSucc e =>
    let f := Nat.pow 10 (e + 1)
    { i with low := i.low * f, mid := i.mid * f, high := i.high * f }

/-- The best grid point in an interval, for the grid of the multiples of its unit. -/
def Interval.nearest? (i : Interval) : Option Nat :=
  let d := i.mid / i.unit
  let down := d * i.unit
  let up := down + i.unit
  match d ≠ 0 && i.contains down, i.contains up with
  | true, true =>
    if i.mid - down < up - i.mid then some d
    else if up - i.mid < i.mid - down then some (d + 1)
    else if d % 2 = 0 then some d else some (d + 1)
  | true, false => some d
  | false, true => some (d + 1)
  | false, false => none

/-- The first of so many grids, from the coarsest on, that has a point in the interval. -/
def search (i : Interval) : (grids : Nat) → (exponent : Int) → Option Decimal
  | 0, _ => none
  | grids + 1, exponent =>
    match (i.scaled exponent).nearest? with
    | some digits => some ⟨digits, exponent⟩
    | none => search i grids (exponent - 1)

/-- The shortest decimal of a finite, nonzero magnitude. All such numbers lie below ten to the 309th,
and seventeen digits always suffice, so that no float needs a grid finer than ten to the minus
324th. -/
def shortest (x : Binary64) : Decimal := (search (.ofFloat x) 640 309).getD ⟨0, 0⟩

/-- How a float is written. -/
structure Layout where
  /-- The number of places before the point from which on an exponent is written. -/
  maxPlaces : Int
  /-- The number of zeros after the point from which on an exponent is written. -/
  maxZeros : Int
  /-- The least number of digits of an exponent. -/
  exponentDigits : Nat

/-- Exponents are written from ten to the 16th on and below ten to the minus fourth, with a sign and at
least two digits. -/
def standard : Layout := ⟨16, 4, 2⟩

/-- As many zeros. -/
def zeros (n : Nat) : List Char := List.replicate n '0'

/-- The digits of a natural number in base ten. -/
def digitsOf (n : Nat) : List Char := Nat.toDigits 10 n

/-- A positive decimal in writing. A number without an exponent has a point and a digit after it. -/
def Layout.write (layout : Layout) (d : Decimal) : List Char :=
  let digits := digitsOf d.digits
  let count : Int := digits.length
  let places := count + d.exponent
  if places ≤ layout.maxPlaces && -layout.maxZeros < places then
    if places ≤ 0 then '0' :: '.' :: zeros (-places).toNat ++ digits
    else if 0 ≤ d.exponent then digits ++ zeros d.exponent.toNat ++ ['.', '0']
    else digits.take places.toNat ++ '.' :: digits.drop places.toNat
  else
    let e := places - 1
    let ed := digitsOf e.natAbs
    let mantissa := match digits with
      | [] => []
      | [c] => [c]
      | c :: rest => c :: '.' :: rest
    mantissa ++ 'e' :: (if e < 0 then '-' else '+') :: zeros (layout.exponentDigits - ed.length) ++ ed

/-- A float that is a number or infinite, in writing. -/
def writeFloat (x : Binary64) : String :=
  let magnitude :=
    if x.isInfinite then ['i', 'n', 'f']
    else if x.significand = 0 then ['0', '.', '0']
    else standard.write (shortest x)
  String.ofList (if x.negative then '-' :: magnitude else magnitude)

end FirstSeen.Decimal
