import ShowerTrack.Decimal.Reading

/-!
# Shortest decimals

A binary number is written with the fewest decimal digits that read back as it,
and of those with the nearest. The search compares exact fractions only.
-/

set_option autoImplicit false

namespace ShowerTrack

/-- The positive number `mantissa * 2 ^ exponent`, and whether it is the least of
its binade, so that the numbers below it lie half as far apart. -/
structure Binary where
  mantissa : Nat
  exponent : Int
  isLeast : Bool
  deriving DecidableEq, Repr

structure Shortest where
  digits : Nat
  exponent : Int
  deriving DecidableEq, Repr

namespace Binary

/-- Splits the bits of a positive finite number with `width` mantissa bits, whose
smallest positive number is `2 ^ low`. -/
def ofBits (width : Nat) (low : Int) (bits : Nat) : Binary :=
  let field := bits / Nat.pow 2 width
  let mantissa := bits % Nat.pow 2 width
  if field = 0 then ⟨mantissa, low, false⟩
  else ⟨mantissa + Nat.pow 2 width, low + field - 1, mantissa = 0 ∧ 1 < field⟩

/-- The number in quarters of its last place, over a power of ten: numerator and
denominator of `4 * mantissa * 2 ^ (exponent - 2) / 10 ^ grid`, the numerator
without the factor `4 * mantissa`. -/
def scale (b : Binary) (grid : Int) : Nat × Nat :=
  (Nat.pow 2 (b.exponent - 2).toNat * Nat.pow 10 (-grid).toNat,
    Nat.pow 2 (2 - b.exponent).toNat * Nat.pow 10 grid.toNat)

/-- Whether `n * 10 ^ grid` reads back as the number; the ends of the interval do
if the mantissa is even. -/
def readsBack (b : Binary) (grid : Int) (n : Nat) : Bool :=
  let (num, den) := b.scale grid
  let below := (4 * b.mantissa - (if b.isLeast then 1 else 2)) * num
  let above := (4 * b.mantissa + 2) * num
  if b.mantissa % 2 = 0 then below ≤ n * den && n * den ≤ above
  else below < n * den && n * den < above

def onGrid? (b : Binary) (grid : Int) : Option Nat :=
  let (num, den) := b.scale grid
  let value := 4 * b.mantissa * num
  let n := value / den
  let r := value % den
  match 0 < n && b.readsBack grid n, b.readsBack grid (n + 1) with
  | true, true =>
    some (if 2 * r < den then n else if den < 2 * r then n + 1
      else if n % 2 = 0 then n else n + 1)
  | true, false => some n
  | false, true => some (n + 1)
  | false, false => none

def searchFrom (b : Binary) : Nat → Int → Shortest
  | 0, grid => ⟨(b.onGrid? grid).getD 0, grid⟩
  | fuel + 1, grid =>
    match b.onGrid? grid with
    | some n => ⟨n, grid⟩
    | none => searchFrom b fuel (grid - 1)

end Binary

namespace Shortest

def strip : Nat → Shortest → Shortest
  | 0, s => s
  | fuel + 1, s =>
    if s.digits ≠ 0 ∧ s.digits % 10 = 0 then strip fuel ⟨s.digits / 10, s.exponent + 1⟩ else s

/-- The coarsest grid that can hold the number lies at most one digit above the
number of digits of its integer part. -/
def ofBinary (b : Binary) : Shortest :=
  let whole := (b.mantissa * Nat.pow 2 b.exponent.toNat)
  let grid : Int :=
    if 0 ≤ b.exponent then (Nat.toDigits 10 whole).length
    else (Nat.toDigits 10 (b.mantissa / Nat.pow 2 (-b.exponent).toNat)).length
  strip 400 (b.searchFrom 400 grid)

def text (s : Shortest) : List Char := Nat.toDigits 10 s.digits

end Shortest

/-- How decimals are laid out: numbers of at least one have no more than `whole`
digits before the point, and numbers below one fewer than `zeros` zeros after it,
unless they are written with an exponent. -/
structure DecimalLayout where
  whole : Int
  zeros : Int
  deriving DecidableEq, Repr

namespace DecimalLayout

def single : DecimalLayout := ⟨13, 6⟩

def double : DecimalLayout := ⟨16, 5⟩

def render (l : DecimalLayout) (s : Shortest) : List Char :=
  let ds := s.text
  let point : Int := ds.length + s.exponent
  if 0 ≤ s.exponent ∧ point ≤ l.whole then
    ds ++ List.replicate s.exponent.toNat '0' ++ ['.', '0']
  else if 0 < point ∧ point ≤ l.whole then
    ds.take point.toNat ++ ['.'] ++ ds.drop point.toNat
  else if -l.zeros < point ∧ point ≤ 0 then
    ['0', '.'] ++ List.replicate (-point).toNat '0' ++ ds
  else
    let exponent := (toString (point - 1)).toList
    match ds with
    | [d] => d :: 'e' :: exponent
    | d :: rest => d :: '.' :: rest ++ 'e' :: exponent
    | [] => []

end DecimalLayout

def decimalText (l : DecimalLayout) (width : Nat) (low : Int) (bits : Nat)
    (isNaN isInf isNegative : Bool) : String :=
  if isNaN then ".nan"
  else
    let sign := if isNegative then "-" else ""
    if isInf then sign ++ ".inf"
    else if bits = 0 then sign ++ "0.0"
    else sign ++ String.ofList (l.render (.ofBinary (.ofBits width low bits)))

def singleText (x : Float32) : String :=
  let bits := x.toBits.toNat
  decimalText .single 23 (-149) (bits % Nat.pow 2 31) x.isNaN x.isInf (Nat.pow 2 31 ≤ bits)

def doubleText (x : Float) : String :=
  let bits := x.toBits.toNat
  decimalText .double 52 (-1074) (bits % Nat.pow 2 63) x.isNaN x.isInf (Nat.pow 2 63 ≤ bits)

end ShowerTrack
