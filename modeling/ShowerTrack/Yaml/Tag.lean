import ShowerTrack.Decimal.Reading

/-!
# Tags

The text of a tag. It may be written with escapes, each a byte in hexadecimal; the bytes
that the first of them announces spell one character together. A spelling that is no
character is kept as a gap.
-/

set_option autoImplicit false

namespace ShowerTrack.Yaml

/-- The characters of a tag; `none` is a gap. -/
structure Tag where
  chars : List (Option Char)
  deriving DecidableEq, Repr

namespace Tag

def ofString (s : String) : Tag := ⟨s.toList.map some⟩

def append (t u : Tag) : Tag := ⟨t.chars ++ u.chars⟩

def core (name : String) : Tag := ofString ("tag:yaml.org,2002:" ++ name)

def bang : Tag := ofString "!"

def isEmpty (t : Tag) : Bool := t.chars.isEmpty

/-- A tag ends before its first zero character. -/
def cut (t : Tag) : Tag := ⟨t.chars.takeWhile (· != some '\x00')⟩

def text? (t : Tag) : Option String := (t.chars.mapM id).map String.ofList

def startsLocal (t : Tag) : Bool := t.chars.head? == some (some '!')

/-- Takes an exclamation mark off the front of a name, unless it is all of it. -/
def unmarked (name : String) : String :=
  match name.toList with
  | '!' :: c :: cs => String.ofList (c :: cs)
  | _ => name

def localName? (t : Tag) : Option String :=
  if t.startsLocal then t.text?.map unmarked else none

end Tag

/-- A character that is being spelled: how many bytes are still to come, the value of
those before, and the least value that needs so many. -/
structure Spelling where
  left : Nat
  value : Nat
  least : Nat
  deriving DecidableEq, Repr

namespace Spelling

def ofLead? (byte : Nat) : Option Spelling :=
  if byte < 0x80 then some ⟨0, byte, 0⟩
  else if byte < 0xC0 then none
  else if byte < 0xE0 then some ⟨1, byte - 0xC0, 0x80⟩
  else if byte < 0xF0 then some ⟨2, byte - 0xE0, 0x800⟩
  else if byte < 0xF8 then some ⟨3, byte - 0xF0, 0x10000⟩
  else none

def next? (s : Spelling) (byte : Nat) : Option Spelling :=
  if 0x80 ≤ byte && byte < 0xC0 then some ⟨s.left - 1, s.value * 64 + (byte - 0x80), s.least⟩
  else none

def char? (s : Spelling) : Option Char :=
  if h : s.value.isValidChar then
    if s.least ≤ s.value then some (.ofNatAux s.value h) else none
  else none

end Spelling

namespace Tag

def byte? (a b : Char) : Option Nat := do
  return 16 * (← Digits.value? 16 a) + (← Digits.value? 16 b)

/-- Reads the escapes in the text of a tag, given the character that has begun. -/
def unescape? : Option Spelling → List Char → Option (List (Option Char))
  | none, [] => some []
  | some _, [] => none
  | begun, '%' :: a :: b :: cs => do
    let byte ← byte? a b
    let s ← match begun with
      | none => Spelling.ofLead? byte
      | some s => s.next? byte
    if s.left = 0 then return s.char? :: (← unescape? none cs)
    unescape? (some s) cs
  | none, c :: cs => if c = '%' then none else (unescape? none cs).map (some c :: ·)
  | some _, _ :: _ => none

def ofChars? (cs : List Char) : Option Tag := (unescape? none cs).map Tag.mk

end Tag

end ShowerTrack.Yaml
