import ShowerTrack.Yaml.Decode
import ShowerTrack.Yaml.Plain

/-!
# Records

Decoders of nodes whose type is known. A record is a mapping with named fields: the
order is free, fields without a meaning are passed over, and a field must not occur
twice.
-/

set_option autoImplicit false

namespace ShowerTrack.Yaml.Node

open Decode (follow ofOption)

def text (n : Node) : Decode String := do
  match ← follow n with
  | .scalar s _ _ => return s
  | _ => failure

/-- A scalar that may be other than text: it is plain, or a literal with a tag. -/
def plain (type : String) (n : Node) : Decode String := do
  match ← follow n with
  | .scalar s .plain _ => return s
  | .scalar s .literal tag => if tag = some (.core type) then return s else failure
  | _ => failure

def bool (n : Node) : Decode Bool := do ofOption (Plain.bool? (← n.plain "bool"))

def int (low high : Int) (n : Node) : Decode Int := do
  let i ← ofOption (Plain.int? (← n.plain "int").toList)
  if low ≤ i ∧ i ≤ high then return i else failure

def natural (bound : Nat) (n : Node) : Decode Nat := do
  let i ← ofOption (Plain.natural? (← n.plain "int").toList)
  if i < bound then return i else failure

def int32 (n : Node) : Decode Int := n.int (-Int.pow 2 31) (Int.pow 2 31 - 1)

def word32 (n : Node) : Decode Nat := n.natural (Nat.pow 2 32)

def word64 (n : Node) : Decode Nat := n.natural (Nat.pow 2 64)

def single (n : Node) : Decode Float32 := do
  return (← ofOption (Plain.double? (← n.plain "float").toList)).toFloat32

/-- A plain scalar without a tag that is empty or null. -/
def isAbsent : Node → Bool
  | .scalar s .plain none => s.isEmpty || Plain.isNull s
  | _ => false

def isMarkedNull : Node → Bool
  | .scalar _ .plain (some tag) => tag == .core "null"
  | _ => false

def optional {α : Type} (f : Node → Decode α) (n : Node) : Decode (Option α) := do
  let n ← follow n
  if n.isAbsent then return none
  if n.isMarkedNull then
    if Plain.isNull (← n.text) then return none else failure
  return some (← f n)

def items (n : Node) : Decode (List Node) := do
  match ← follow n with
  | .sequence items _ => return items
  | n => if n.isBlank then return [] else failure

def list {α : Type} (f : Node → Decode α) (n : Node) : Decode (List α) := do
  (← n.items).mapM f

def pair {α β : Type} (f : Node → Decode α) (g : Node → Decode β) (n : Node) :
    Decode (α × β) := do
  match ← follow n with
  | .sequence [a, b] _ => return (← f a, ← g b)
  | _ => failure

/-- The name of a choice: a text, or a local tag on nothing. -/
def choice (n : Node) : Decode String := do
  match ← follow n with
  | .scalar s style tag =>
    match tag.bind Tag.localName? with
    | some name =>
      if style == .plain && (s.isEmpty || Plain.isNull s) then return name else failure
    | none => return s
  | _ => failure

end Node

structure Record where
  fields : List (String × Node)

namespace Record

def named (r : Record) (name : String) : List Node :=
  (r.fields.filter (·.1 == name)).map (·.2)

/-- A record, if none of some names occurs twice. -/
def ofNode (names : List String) (n : Node) : Decode Record := do
  let entries ← match ← Decode.follow n with
    | .mapping entries _ => pure entries
    | n => if n.isBlank then pure [] else failure
  let r : Record := ⟨← entries.mapM fun (k, v) => do return (← k.text, v)⟩
  if names.all fun name => (r.named name).length ≤ 1 then return r else failure

def get {α : Type} (r : Record) (name : String) (f : Node → Decode α) : Decode α :=
  match (r.named name).head? with
  | some n => f n
  | none => failure

def getOr {α : Type} (r : Record) (name : String) (default : α) (f : Node → Decode α) :
    Decode α :=
  match (r.named name).head? with
  | some n => f n
  | none => return default

def optional {α : Type} (r : Record) (name : String) (f : Node → Decode α) :
    Decode (Option α) :=
  r.getOr name none (·.optional f)

end Record

end ShowerTrack.Yaml
