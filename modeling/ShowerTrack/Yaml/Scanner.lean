import ShowerTrack.Yaml.Scalar

/-!
# Scanning

Cuts a text into tokens. Outside of flow collections the column decides where block
collections open and close. What may turn out to be a key is remembered, and its
token is put in when the colon behind it shows up on the same line.
-/

set_option autoImplicit false

namespace ShowerTrack.Yaml

structure KeyStart where
  required : Bool
  /-- The number of tokens before it. -/
  tokens : Nat
  line : Nat
  column : Nat
  index : Nat

/-- A text that is being scanned. Tokens are kept last first. -/
structure Scanner where
  pos : Cursor
  /-- More steps than the text has characters. -/
  fuel : Nat
  tokens : List Token
  count : Nat
  flow : Nat
  indent : Int
  indents : List Int
  keyAllowed : Bool
  /-- One possible key for every open flow collection and for the block around. -/
  keys : List (Option KeyStart)

namespace Scanner

def ofList (cs : List Char) : Scanner :=
  { pos := .ofList cs, fuel := cs.length + 1, tokens := [], count := 0, flow := 0, indent := -1
    indents := [], keyAllowed := true, keys := [none] }

def push (s : Scanner) (t : Token) : Scanner :=
  { s with tokens := t :: s.tokens, count := s.count + 1 }

def insert (s : Scanner) (n : Nat) (t : Token) : Scanner :=
  let later := s.tokens.take (s.count - n)
  { s with tokens := later ++ t :: s.tokens.drop (s.count - n), count := s.count + 1 }

def move (s : Scanner) (c : Cursor) : Scanner := { s with pos := c }

def inFlow (s : Scanner) : Bool := 0 < s.flow

def column (s : Scanner) : Int := s.pos.column

def setKey (s : Scanner) (k : Option KeyStart) : Scanner :=
  { s with keys := match s.keys with
      | [] => [k]
      | _ :: ks => k :: ks }

def key? (s : Scanner) : Option KeyStart := s.keys.head?.join

def allow (s : Scanner) (keyAllowed : Bool) : Scanner := { s with keyAllowed }

/-- Gives up the possible key of this level; one that was required is missed. -/
def dropKey (s : Scanner) : Except Fault Scanner :=
  if s.key?.any (·.required) then .error .missingColon else .ok (s.setKey none)

def saveKey (s : Scanner) : Except Fault Scanner := do
  if !s.keyAllowed then return s
  let s ← s.dropKey
  let required := !s.inFlow && s.indent == s.column
  return s.setKey (some ⟨required, s.count, s.pos.line, s.pos.column, s.pos.index⟩)

/-- Keys end on their line and within 1024 bytes. -/
def isStale (s : Scanner) (k : KeyStart) : Bool :=
  k.line < s.pos.line || k.index + 1024 < s.pos.index

def dropStale (s : Scanner) : Except Fault Scanner :=
  if s.keys.any fun k => k.any fun k => k.required && s.isStale k then .error .missingColon
  else .ok { s with keys := s.keys.map fun k => k.filter fun k => !s.isStale k }

def openBlock (s : Scanner) (column : Int) (n : Nat) (t : Token) : Scanner :=
  if s.inFlow || column ≤ s.indent then s
  else { s.insert n t with indent := column, indents := s.indent :: s.indents }

def closeBlocksOf (column : Int) : List Int → Int → Scanner → Scanner
  | outer :: indents, indent, s =>
    if column < indent then closeBlocksOf column indents outer (s.push .blockEnd)
    else { s with indent, indents := outer :: indents }
  | [], indent, s => { s with indent, indents := [] }

def closeBlocks (s : Scanner) (column : Int) : Scanner :=
  if s.inFlow then s else closeBlocksOf column s.indents s.indent s

/-- Skips blanks, breaks and comments up to the next token. A mark of the byte order may
start a line; it takes up a column. -/
def skipGaps (inFlow : Bool) : Nat → Bool → Cursor → Cursor × Bool
  | 0, allowed, c => (c, allowed)
  | fuel + 1, allowed, c =>
    match c.peek with
    | none => (c, allowed)
    | some d =>
      if d == ' ' || (d == '\uFEFF' && c.column == 0) || (d == '\t' && (inFlow || !allowed)) then
        skipGaps inFlow fuel allowed c.next
      else if d == '#' then skipGaps inFlow fuel allowed (c.skipWhile (!isBreak ·))
      else if isBreak d then skipGaps inFlow fuel (allowed || !inFlow) c.next
      else (c, allowed)

def isNameChar (c : Char) : Bool := c.isAlphanum || c == '_' || c == '-'

def isTagChar (c : Char) : Bool := isNameChar c || ";/?:@&=+$.%!~*'()".toList.contains c

def isUriChar (c : Char) : Bool := isTagChar c || c == ',' || c == '[' || c == ']'

def scanName (c : Cursor) : Except Fault (String × Cursor) :=
  let (cs, c) := c.spanWhile isNameChar
  let ends := c.isGapAt 0 || c.peek.any fun d => "?:,]\x7d%@\x60".toList.contains d
  if cs.isEmpty || !ends then .error .badAnchor else .ok (String.ofList cs, c)

/-- The text of a tag as far as its characters go; it must not be empty. -/
def readTag (cs : List Char) : Except Fault Tag :=
  match Tag.ofChars? cs with
  | some t => if t.isEmpty then .error .badTag else .ok t.cut
  | none => .error .badTag

/-- A tag: a handle and what follows it, or a whole name between angle brackets. -/
def scanTag (inFlow : Bool) (c : Cursor) : Except Fault (Token × Cursor) := do
  let (token, c) ← if c.peekAt 1 == some '<' then verbatim (c.skip 2) else shorthand c.next
  if c.isGapAt 0 || (inFlow && c.peek == some ',') then return (token, c)
  throw .badTag
where
  verbatim (c : Cursor) : Except Fault (Token × Cursor) := do
    let (cs, c) := c.spanWhile isUriChar
    let tag ← readTag cs
    if c.peek != some '>' then throw .badTag
    return (.tag "" tag, c.next)
  shorthand (c : Cursor) : Except Fault (Token × Cursor) := do
    let (cs, c) := c.spanWhile isTagChar
    match cs.dropWhile isNameChar with
    | '!' :: suffix =>
      let handle := '!' :: cs.takeWhile isNameChar ++ ['!']
      return (.tag (String.ofList handle) (← readTag suffix), c)
    | _ =>
      let some suffix := (Tag.ofChars? cs).map Tag.cut | throw .badTag
      return (if suffix.isEmpty then .tag "" .bang else .tag "!" suffix, c)

def scanNumber (c : Cursor) : Except Fault (Nat × Cursor) :=
  let (ds, c) := c.spanWhile Char.isDigit
  if ds.isEmpty || 9 < ds.length then .error .badDirective else .ok (Decimal.number ds, c)

def scanVersion (c : Cursor) : Except Fault (Token × Cursor) := do
  let (major, c) ← scanNumber (c.skipWhile isBlank)
  if c.peek != some '.' then throw .badDirective
  let (minor, c) ← scanNumber c.next
  if major == 1 && (minor == 1 || minor == 2) then return (.version, c)
  throw .badDirective

def scanHandle (c : Cursor) : Except Fault (String × Cursor) := do
  if c.peek != some '!' then throw .badDirective
  let (name, c) := c.next.spanWhile isNameChar
  if c.peek == some '!' then return (String.ofList ('!' :: name ++ ['!']), c.next)
  if name.isEmpty then return ("!", c)
  throw .badDirective

def scanHandleUri (c : Cursor) : Except Fault (Token × Cursor) := do
  let (handle, c) ← scanHandle (c.skipWhile isBlank)
  if !c.isAtBlank then throw .badDirective
  let (cs, c) := (c.skipWhile isBlank).spanWhile isUriChar
  let uri ← readTag cs
  if !c.isGapAt 0 then throw .badDirective
  return (.directive handle uri, c)

def scanDirective (c : Cursor) : Except Fault (Token × Cursor) := do
  let (name, c) := c.next.spanWhile isNameChar
  if !c.isGapAt 0 then throw .badDirective
  let (token, c) ← match String.ofList name with
    | "YAML" => scanVersion c
    | "TAG" => scanHandleUri c
    | _ => throw .badDirective
  let some c := nextLine? c | throw .badDirective
  return (token, c)

def flowStart (s : Scanner) (t : Token) : Except Fault Scanner := do
  let s ← s.saveKey
  return ({ s with flow := s.flow + 1, keys := none :: s.keys, keyAllowed := true }.push t).move
    s.pos.next

def flowEnd (s : Scanner) (t : Token) : Except Fault Scanner := do
  let s ← s.dropKey
  let keys := if s.inFlow then s.keys.drop 1 else s.keys
  return ({ s with flow := s.flow - 1, keys, keyAllowed := false }.push t).move s.pos.next

def blockEntry (s : Scanner) : Except Fault Scanner := do
  if !s.inFlow && !s.keyAllowed then throw .misplacedEntry
  let s := s.openBlock s.column s.count .blockSequenceStart
  let s ← s.dropKey
  return ((s.allow true).push .blockEntry).move s.pos.next

def explicitKey (s : Scanner) : Except Fault Scanner := do
  if !s.inFlow && !s.keyAllowed then throw .misplacedKey
  let s := s.openBlock s.column s.count .blockMappingStart
  let s ← s.dropKey
  return ((s.allow (!s.inFlow)).push .key).move s.pos.next

def value (s : Scanner) : Except Fault Scanner := do
  match s.key? with
  | some k =>
    let s := s.insert k.tokens .key
    let s := s.openBlock k.column k.tokens .blockMappingStart
    return (((s.setKey none).allow false).push .value).move s.pos.next
  | none =>
    if !s.inFlow && !s.keyAllowed then throw .misplacedValue
    let s := s.openBlock s.column s.count .blockMappingStart
    return ((s.allow (!s.inFlow)).push .value).move s.pos.next

def closeAll (s : Scanner) : Except Fault Scanner := do
  let s ← (s.closeBlocks (-1)).dropKey
  return s.allow false

def named (s : Scanner) (token : String → Token) : Except Fault Scanner := do
  let s ← s.saveKey
  let (name, c) ← scanName s.pos.next
  return ((s.allow false).push (token name)).move c

def scalar (s : Scanner) (style : Style) (scan : Cursor → Except Fault (List Char × Cursor)) :
    Except Fault Scanner := do
  let s ← s.saveKey
  let (cs, c) ← scan s.pos.next
  return ((s.allow false).push (.scalar (String.ofList cs) style)).move c

def blockScalar (s : Scanner) (style : Style) : Except Fault Scanner := do
  let s ← s.dropKey
  let (cs, c) ← scanBlock (style == .literal) s.indent s.fuel s.pos.next
  return ((s.allow true).push (.scalar (String.ofList cs) style)).move c

def plainScalar (s : Scanner) : Except Fault Scanner := do
  let s ← s.saveKey
  let ctx : Context := ⟨s.inFlow, (s.indent + 1).toNat⟩
  let (cs, c, broken) ← scanPlain ctx s.fuel .none s.pos
  return ((s.allow broken).push (.scalar (String.ofList cs) .plain)).move c

def isIndicator (c : Char) : Bool := "-?:,[]\x7b\x7d#&*!|>'\"%@\x60".toList.contains c

def startsPlain (s : Scanner) (d : Char) : Bool :=
  !(s.pos.isGapAt 0 || isIndicator d) ||
    (d == '-' && !(s.pos.peekAt 1).any isBlank) ||
    (!s.inFlow && (d == '?' || d == ':') && !s.pos.isGapAt 1)

def token (s : Scanner) (d : Char) : Except Fault Scanner := do
  let gap := s.pos.isGapAt 1
  if s.pos.column == 0 && d == '%' then
    let s ← s.closeAll
    let (t, c) ← scanDirective s.pos
    return (s.push t).move c
  else if s.pos.isMarker '-' then
    let s ← s.closeAll
    return (s.push .documentStart).move (s.pos.skip 3)
  else if s.pos.isMarker '.' then
    let s ← s.closeAll
    return (s.push .documentEnd).move (s.pos.skip 3)
  else if d == '[' then s.flowStart .flowSequenceStart
  else if d == '{' then s.flowStart .flowMappingStart
  else if d == ']' then s.flowEnd .flowSequenceEnd
  else if d == '}' then s.flowEnd .flowMappingEnd
  else if d == ',' then
    let s ← s.dropKey
    return ((s.allow true).push .flowEntry).move s.pos.next
  else if d == '-' && gap then s.blockEntry
  else if d == '?' && (s.inFlow || gap) then s.explicitKey
  else if d == ':' && (s.inFlow || gap) then s.value
  else if d == '*' then s.named .alias
  else if d == '&' then s.named .anchor
  else if d == '!' then
    let s ← s.saveKey
    let (t, c) ← scanTag s.inFlow s.pos
    return ((s.allow false).push t).move c
  else if d == '|' && !s.inFlow then s.blockScalar .literal
  else if d == '>' && !s.inFlow then s.blockScalar .folded
  else if d == '\'' then s.scalar .singleQuoted (scanQuoted '\'' s.fuel)
  else if d == '"' then s.scalar .doubleQuoted (scanQuoted '"' s.fuel)
  else if s.startsPlain d then s.plainScalar
  else throw .unexpectedCharacter

def atNextToken (s : Scanner) : Except Fault Scanner := do
  let (c, keyAllowed) := skipGaps s.inFlow s.fuel s.keyAllowed s.pos
  let s ← { s with pos := c, keyAllowed }.dropStale
  return s.closeBlocks s.column

def run : Nat → Scanner → Except Fault (List Token)
  | 0, _ => .error .unexpectedCharacter
  | fuel + 1, s => do
    let s ← s.atNextToken
    match s.pos.peek with
    | some d => run fuel (← s.token d)
    | none =>
      let s ← s.closeAll
      return (s.push .streamEnd).tokens.reverse

end Scanner

def isPrintable (c : Char) : Bool :=
  let n := c.toNat
  n == 0x09 || n == 0x0A || n == 0x0D || n == 0x85 || (0x20 ≤ n && n ≤ 0x7E) ||
    (0xA0 ≤ n && n ≤ 0xFFFD) || 0x10000 ≤ n

def tokens (text : String) : Except Fault (List Token) :=
  let cs := text.toList
  if cs.all isPrintable then
    let s := Scanner.ofList cs
    s.run (s.fuel + 1)
  else .error .forbiddenCharacter

end ShowerTrack.Yaml
