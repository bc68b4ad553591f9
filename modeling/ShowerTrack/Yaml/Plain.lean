import ShowerTrack.Decimal.Reading

/-!
# Plain scalars

What a scalar without quotes stands for: nothing, a truth value, an integer in one
of four radices, a number, or else its own text.
-/

set_option autoImplicit false

namespace ShowerTrack.Yaml.Plain

def isNull (s : String) : Bool := ["null", "Null", "NULL", "~"].contains s

def bool? (s : String) : Option Bool :=
  if ["true", "True", "TRUE"].contains s then some true
  else if ["false", "False", "FALSE"].contains s then some false
  else none

def isSign (c : Char) : Bool := c == '+' || c == '-'

def startsSigned : List Char → Bool
  | c :: _ => isSign c
  | [] => false

/-- A zero in front of further digits makes a text, not a number. -/
def isPadded (cs : List Char) : Bool :=
  match (if startsSigned cs then cs.drop 1 else cs) with
  | '0' :: d :: ds => (d :: ds).all (·.isDigit)
  | _ => false

/-- Digits behind a mark of the radix 16, 8 or 2. -/
def marked? : List Char → Option Nat
  | '0' :: 'x' :: cs => Digits.read? 16 cs
  | '0' :: 'o' :: cs => Digits.read? 8 cs
  | '0' :: 'b' :: cs => Digits.read? 2 cs
  | _ => none

def unplus : List Char → List Char
  | '+' :: cs => cs
  | cs => cs

def natural? (cs : List Char) : Option Nat :=
  match marked? (unplus cs) with
  | some n => some n
  | none => if isPadded cs then none else Digits.read? 10 (unplus cs)

def negated? : List Char → Option Int
  | '-' :: cs =>
    match marked? cs with
    | some n => some (-(n : Int))
    | none => if isPadded cs then none else (Digits.read? 10 cs).map fun n => -(n : Int)
  | _ => none

def int? (cs : List Char) : Option Int :=
  match natural? cs with
  | some n => some n
  | none => negated? cs

def isInfinity (s : String) : Bool := [".inf", ".Inf", ".INF"].contains s

/-- A finite literal, an infinity or the mark of what is not a number. -/
def double? (cs : List Char) : Option Float :=
  let magnitude := unplus cs
  if magnitude.length < cs.length && startsSigned magnitude then none
  else if isInfinity (String.ofList magnitude) then some (1 / 0)
  else
    match cs with
    | '-' :: rest =>
      if isInfinity (String.ofList rest) then some (-1 / 0) else finite? magnitude
    | _ =>
      if [".nan", ".NaN", ".NAN"].contains (String.ofList cs) then some (0 / 0)
      else finite? magnitude
where
  finite? (cs : List Char) : Option Float :=
    match Decimal.read? cs with
    | some d => if d.toDouble.isFinite then some d.toDouble else none
    | none => none

end ShowerTrack.Yaml.Plain
