import ShowerTrack.Decimal.Shortest
import ShowerTrack.Text.Quoted
import ShowerTrack.Yaml.Decode
import ShowerTrack.Yaml.Plain

/-!
# Values

What a document stands for when its reader expects nothing in particular. Plain
scalars are resolved to null, truth values and numbers; a key must not occur twice
in a mapping.
-/

set_option autoImplicit false

namespace ShowerTrack.Yaml

inductive Value where
  | null
  | bool (b : Bool)
  | int (n : Int)
  | float (x : Float)
  | string (s : String)
  | sequence (items : List Value)
  | mapping (entries : List (Value × Value))
  | tagged (tag : String) (content : Value)

/-- The integers that a value can hold: 64 bits, with a sign or without. -/
def isWord (n : Int) : Bool := -Int.pow 2 63 ≤ n && n < Int.pow 2 64

/-- Twice as wide integers are read, but no value can hold them. -/
def isDoubleWord (n : Int) : Bool := -Int.pow 2 127 ≤ n && n < Int.pow 2 128

namespace Value

def ofFraction (s : String) : Value :=
  let cs := s.toList
  match (if Plain.isPadded cs then none else Plain.double? cs) with
  | some x => float x
  | none => string s

def ofPlain? (s : String) : Option Value :=
  if s.isEmpty || Plain.isNull s then some null
  else
    match Plain.bool? s with
    | some b => some (bool b)
    | none =>
      match Plain.int? s.toList with
      | some n =>
        if isWord n then some (int n)
        else if isDoubleWord n then none
        else some (ofFraction s)
      | none => some (ofFraction s)

def ofInt? (s : String) : Option Value :=
  ((Plain.int? s.toList).filter isWord).map int

def ofScalar? (s : String) (style : Style) (tag : Option Tag) : Option Value :=
  match tag with
  | none => if style == .plain then ofPlain? s else some (string s)
  | some t =>
    if t == .core "bool" then (Plain.bool? s).map bool
    else if t == .core "int" then ofInt? s
    else if t == .core "float" then (Plain.double? s.toList).map float
    else if t == .core "null" then if Plain.isNull s then some null else none
    else if t.startsLocal && style == .plain then ofPlain? s
    else some (string s)

def named (name : Option String) (v : Value) : Value :=
  match name with
  | some name => tagged (Tag.unmarked name) v
  | none => v

def text : Value → String
  | null => "Null"
  | bool b => "Bool(" ++ (if b then "true" else "false") ++ ")"
  | int n => "Number(" ++ toString n ++ ")"
  | float x => "Number(" ++ doubleText x ++ ")"
  | string s => "String(" ++ Text.quoted s ++ ")"
  | sequence items => "Sequence [" ++ listText items ++ "]"
  | mapping entries => "Mapping \x7b" ++ entriesText entries ++ "\x7d"
  | tagged tag v => "TaggedValue \x7b tag: !" ++ tag ++ ", value: " ++ text v ++ " \x7d"
where
  listText : List Value → String
    | [] => ""
    | [v] => text v
    | v :: vs => text v ++ ", " ++ listText vs
  entriesText : List (Value × Value) → String
    | [] => ""
    | [(k, v)] => keyText k ++ ": " ++ text v
    | (k, v) :: rest => keyText k ++ ": " ++ text v ++ ", " ++ entriesText rest
  keyText : Value → String
    | bool b => if b then "true" else "false"
    | int n => toString n
    | float x => doubleText x
    | string s => Text.quoted s
    | v => text v

/-- Whether two values are the same key. Not the order of entries counts, nor the sign of
zero; what is not a number is the same as itself. -/
def same : Value → Value → Bool
  | null, null => true
  | bool a, bool b => a == b
  | int m, int n => m == n
  | float x, float y => x == y || (x.isNaN && y.isNaN)
  | string s, string t => s == t
  | sequence vs, sequence ws => sameItems vs ws
  | mapping es, mapping fs => es.length == fs.length && sameEntries es fs
  | tagged s v, tagged t w => s == t && same v w
  | _, _ => false
where
  sameItems : List Value → List Value → Bool
    | [], [] => true
    | v :: vs, w :: ws => same v w && sameItems vs ws
    | _, _ => false
  sameEntries : List (Value × Value) → List (Value × Value) → Bool
    | [], _ => true
    | (k, v) :: es, fs => (fs.any fun (l, w) => same k l && same v w) && sameEntries es fs

def hasDistinctKeys : List (Value × Value) → Bool
  | [] => true
  | (k, _) :: rest => !(rest.any fun (l, _) => k.same l) && hasDistinctKeys rest

def ofNode (depth : Nat) (n : Node) : Decode Value := do
  match ← Decode.follow n, depth with
  | .scalar s style tag, _ =>
    match tag.bind Tag.localName? with
    | some name =>
      let v ← Decode.ofOption (if style == .plain then ofPlain? s else some (string s))
      return named (some name) v
    | none => Decode.ofOption (ofScalar? s style tag)
  | .sequence items tag, depth + 1 =>
    let vs ← items.mapM (ofNode depth)
    return named (tag.bind Tag.localName?) (sequence vs)
  | .mapping entries tag, depth + 1 =>
    let kvs ← entries.mapM fun (k, v) => do return (← ofNode depth k, ← ofNode depth v)
    if !hasDistinctKeys kvs then failure
    return named (tag.bind Tag.localName?) (mapping kvs)
  | _, _ => failure
termination_by depth

def maxDepth : Nat := 128

def read? (text : String) : Option Value := Yaml.read? (ofNode maxDepth) text

def untagged : Value → Value
  | tagged _ v => untagged v
  | v => v

def bool? (v : Value) : Option Bool :=
  match v.untagged with
  | bool b => some b
  | _ => none

def int? (low high : Int) (v : Value) : Option Int :=
  match v.untagged with
  | int n => if low ≤ n ∧ n ≤ high then some n else none
  | _ => none

def natural? (v : Value) : Option Nat := (v.int? 0 (Int.pow 2 64 - 1)).map (·.toNat)

def single? (v : Value) : Option Float32 :=
  match v.untagged with
  | int n => some (Float32.ofInt n)
  | float x => some x.toFloat32
  | _ => none

def list? (v : Value) : Option (List Value) :=
  match v.untagged with
  | sequence items => some items
  | null => some []
  | _ => none

def choice? : Value → Option String
  | string s => some s
  | tagged name v =>
    match v.untagged with
    | null => some name
    | _ => none
  | _ => none

end Value

end ShowerTrack.Yaml
