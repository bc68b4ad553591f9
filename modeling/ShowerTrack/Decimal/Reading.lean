/-!
# Reading numbers

Digit strings in a radix, and decimal literals with a fraction and an exponent,
which are read as the nearest double precision number.
-/

set_option autoImplicit false

namespace ShowerTrack

namespace Digits

/-- The value of a digit, lower or upper case. -/
def value? (radix : Nat) (c : Char) : Option Nat :=
  let v :=
    if c.isDigit then c.toNat - '0'.toNat
    else if c.isLower then c.toNat - 'a'.toNat + 10
    else if c.isUpper then c.toNat - 'A'.toNat + 10
    else radix
  if v < radix then some v else none

def readOn (radix : Nat) : Nat → List Char → Option Nat
  | n, [] => some n
  | n, c :: cs => (value? radix c).bind fun d => readOn radix (n * radix + d) cs

def read? (radix : Nat) : List Char → Option Nat
  | [] => none
  | cs => readOn radix 0 cs

end Digits

/-- The number `digits * 10 ^ exponent` with a sign. -/
structure Decimal where
  negative : Bool
  digits : Nat
  exponent : Int
  deriving DecidableEq, Repr

namespace Decimal

def number (cs : List Char) : Nat := (Digits.readOn 10 0 cs).getD 0

def exponent? : List Char → Option Int
  | [] => some 0
  | e :: cs =>
    if e = 'e' ∨ e = 'E' then
      match cs with
      | '+' :: ds => (Digits.read? 10 ds).map fun n => (n : Int)
      | '-' :: ds => (Digits.read? 10 ds).map fun n => -(n : Int)
      | ds => (Digits.read? 10 ds).map fun n => (n : Int)
    else none

/-- What follows the sign: digits around an optional point, then an exponent. -/
def magnitude? (negative : Bool) (cs : List Char) : Option Decimal :=
  let whole := cs.takeWhile Char.isDigit
  let rest := cs.dropWhile Char.isDigit
  let (fraction, rest) :=
    match rest with
    | '.' :: ds => (ds.takeWhile Char.isDigit, ds.dropWhile Char.isDigit)
    | _ => ([], rest)
  if whole.isEmpty && fraction.isEmpty then none
  else (exponent? rest).map fun e =>
    ⟨negative, number (whole ++ fraction), e - fraction.length⟩

def read? : List Char → Option Decimal
  | '-' :: cs => magnitude? true cs
  | cs => magnitude? false cs

/-- The nearest double. Magnitudes far outside of its range are decided without
raising ten to their power. -/
def toDouble (d : Decimal) : Float :=
  let size : Int := (Nat.toDigits 10 d.digits).length + d.exponent
  let magnitude : Float :=
    if d.digits = 0 ∨ size < -400 then 0
    else if 400 < size then 1 / 0
    else Float.ofScientific d.digits (d.exponent < 0) d.exponent.natAbs
  if d.negative then -magnitude else magnitude

end Decimal

end ShowerTrack
