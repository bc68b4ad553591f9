/-!
# Scalars

The reconstruction is written once over an abstract scalar. Single precision
numbers run it; nothing below depends on laws that rounding breaks, so every
sum, product and comparison stands in the order in which it is taken.
-/

set_option autoImplicit false

namespace ShowerTrack

class Scalar (α : Type) extends Add α, Sub α, Mul α, Div α, Neg α, LT α, LE α,
    OfScientific α where
  decLt : DecidableLT α
  decLe : DecidableLE α
  ofNat : Nat → α
  ofInt : Int → α
  /-- The integer part of a positive number, 0 for a negative one. -/
  truncate : α → Nat
  abs : α → α
  sqrt : α → α

instance (priority := low) Scalar.instDecidableLT {α : Type} [Scalar α] : DecidableLT α :=
  Scalar.decLt

instance (priority := low) Scalar.instDecidableLE {α : Type} [Scalar α] : DecidableLE α :=
  Scalar.decLe

/-- Scalars with the transcendental functions of the reconstruction. -/
class Elementary (α : Type) extends Scalar α where
  ln : α → α
  log2 : α → α
  sin : α → α
  cos : α → α
  hypot : α → α → α

/-- A scalar with a wider one that its long sums are taken in. -/
class Widening (α : Type) (β : outParam Type) [Scalar α] [Scalar β] where
  widen : α → β
  narrow : β → α

namespace Scalar

variable {α : Type} [Scalar α]

instance (priority := low) instOfNat (n : Nat) : OfNat α n := ⟨ofNat n⟩

instance (priority := low) instInhabited : Inhabited α := ⟨0⟩

/-- Equality as the order sees it: a number that is not comparable with itself
equals nothing. -/
def same (a b : α) : Bool := a ≤ b && b ≤ a

def isNumber (a : α) : Bool := a ≤ a

/-- The larger of two numbers; one that is not a number yields to the other. -/
def max (a b : α) : α :=
  if a < b then b else if isNumber a then a else b

/-- Sums start at minus zero, the neutral element of a rounded addition. -/
def sum (xs : List α) : α := xs.foldl (· + ·) (-0)

end Scalar

def firstLeast? {κ : Type} (less : κ → κ → Bool) : List κ → Option κ
  | [] => none
  | k :: ks => some (ks.foldl (fun best key => if less key best then key else best) k)

instance : Scalar Float32 where
  decLt := Float32.decLt
  decLe := Float32.decLe
  ofNat := Float32.ofNat
  ofInt := Float32.ofInt
  truncate x := x.toUInt64.toNat
  abs := Float32.abs
  sqrt := Float32.sqrt

instance : Scalar Float where
  decLt := Float.decLt
  decLe := Float.decLe
  ofNat := Float.ofNat
  ofInt := Float.ofInt
  truncate x := x.toUInt64.toNat
  abs := Float.abs
  sqrt := Float.sqrt

instance : Widening Float32 Float where
  widen := Float32.toFloat
  narrow := Float.toFloat32

/-- The hypotenuse is computed in double precision and rounded once, and has no
sign; an infinite side makes it infinite, whatever the other side is. -/
instance : Elementary Float32 where
  ln := Float32.log
  log2 := Float32.log2
  sin := Float32.sin
  cos := Float32.cos
  hypot x y :=
    if x.isInf || y.isInf then 1 / 0
    else (x.toFloat * x.toFloat + y.toFloat * y.toFloat).sqrt.toFloat32.abs

end ShowerTrack
