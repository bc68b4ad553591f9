import ShowerTrack.Decimal.Reading
import ShowerTrack.Yaml.Cursor
import ShowerTrack.Yaml.Token

/-!
# Scalars

The texts of scalars in their five styles. Line breaks inside a plain or quoted
scalar fold: a single one becomes a space, and of several the first is dropped.
-/

set_option autoImplicit false

namespace ShowerTrack.Yaml

structure Gap where
  blanks : List Char
  /-- The first line break; an escaped one counts as no character. -/
  first : Option (Option Char)
  further : List Char

namespace Gap

def none : Gap := ⟨[], .none, []⟩

def hasBreak (g : Gap) : Bool := g.first.isSome

def text (g : Gap) : List Char :=
  match g.first with
  | .none => g.blanks
  | some (some '\n') => if g.further.isEmpty then [' '] else g.further
  | some (some c) => c :: g.further
  | some .none => g.further

def addBlank (g : Gap) (c : Char) : Gap :=
  if g.hasBreak then g else { g with blanks := g.blanks ++ [c] }

def addBreak (g : Gap) (c : Char) : Gap :=
  if g.hasBreak then { g with further := g.further ++ [c] } else ⟨[], some (some c), []⟩

end Gap

/-- Reads the blanks and breaks ahead onto a gap. On a further line a tab must not stand
before a given column. -/
def scanGap (noTabBelow : Nat) (g : Gap) (c : Cursor) : Except Fault (Gap × Cursor) :=
  match _h : c.rest with
  | [] => .ok (g, c)
  | d :: _ =>
    if isBlank d then
      if d == '\t' && g.hasBreak && c.column < noTabBelow then
        .error .tabIndentation
      else scanGap noTabBelow (g.addBlank d) c.next
    else if isBreak d then scanGap noTabBelow (g.addBreak c.breakChar) c.next
    else .ok (g, c)
termination_by c.rest.length
decreasing_by all_goals exact Cursor.next_rest_length_lt c _ _ _h

/-- The context that a plain scalar stands in: whether in a flow collection, and
the least column of its further lines. -/
structure Context where
  inFlow : Bool
  indent : Nat

def isFlowIndicator (c : Char) : Bool :=
  c == ',' || c == '[' || c == ']' || c == '{' || c == '}'

def endsPlain (ctx : Context) (c : Cursor) (d : Char) : Bool :=
  (d == ':' && c.isGapAt 1) || (ctx.inFlow && isFlowIndicator d)

/-- A colon that a flow indicator follows belongs to nothing. -/
def isStrayColon (ctx : Context) (c : Cursor) (d : Char) : Bool :=
  ctx.inFlow && d == ':' && match c.peekAt 1 with
    | some e => isFlowIndicator e || e == '?'
    | none => false

/-- The text of a word of a plain scalar, and whether the scalar ends behind it. -/
def scanWord (ctx : Context) (c : Cursor) : Except Fault (List Char × Cursor × Bool) :=
  match _h : c.rest with
  | [] => .ok ([], c, true)
  | d :: _ =>
    if isBlank d || isBreak d then .ok ([], c, false)
    else if isStrayColon ctx c d then .error .unexpectedCharacter
    else if endsPlain ctx c d then .ok ([], c, true)
    else
      match scanWord ctx c.next with
      | .error e => .error e
      | .ok (cs, c, ended) => .ok (d :: cs, c, ended)
termination_by c.rest.length
decreasing_by exact Cursor.next_rest_length_lt c _ _ _h

/-- A plain scalar from the word ahead on. Gives the text with the gap before it, the
place behind the scalar and its blanks, and whether those blanks hold a break. -/
def scanPlain (ctx : Context) : Nat → Gap → Cursor → Except Fault (List Char × Cursor × Bool)
  | 0, gap, c => .ok ([], c, gap.hasBreak)
  | fuel + 1, gap, c =>
    if c.isDocumentMarker || c.peek == some '#' then .ok ([], c, gap.hasBreak)
    else do
      let (word, c, ended) ← scanWord ctx c
      if word.isEmpty then return ([], c, gap.hasBreak)
      if ended then return (gap.text ++ word, c, false)
      let (next, c) ← scanGap ctx.indent .none c
      if !ctx.inFlow && c.column < ctx.indent then
        return (gap.text ++ word, c, next.hasBreak)
      let (more, c, broken) ← scanPlain ctx fuel next c
      return (gap.text ++ word ++ more, c, broken)

def hexValue? (cs : List Char) (count : Nat) : Option Nat :=
  let ds := cs.take count
  if ds.length = count then Digits.read? 16 ds else none

def codePoint? (n : Nat) : Option Char := if h : n.isValidChar then some (.ofNatAux n h) else none

def simpleEscape? : Char → Option Char
  | '0' => some '\x00'
  | 'a' => some '\x07'
  | 'b' => some '\x08'
  | 't' => some '\t'
  | '\t' => some '\t'
  | 'n' => some '\n'
  | 'v' => some '\x0b'
  | 'f' => some '\x0c'
  | 'r' => some '\r'
  | 'e' => some '\x1b'
  | ' ' => some ' '
  | '"' => some '"'
  | '/' => some '/'
  | '\\' => some '\\'
  | 'N' => some '\u0085'
  | '_' => some '\u00a0'
  | 'L' => some '\u2028'
  | 'P' => some '\u2029'
  | _ => none

def hexDigits : Char → Nat
  | 'x' => 2
  | 'u' => 4
  | 'U' => 8
  | _ => 0

/-- The character behind a backslash, and how many characters spell it. -/
def escape? : List Char → Option (Char × Nat)
  | [] => none
  | c :: cs =>
    match simpleEscape? c with
    | some d => some (d, 1)
    | none =>
      let n := hexDigits c
      if n = 0 then none
      else ((hexValue? cs n).bind codePoint?).map fun d => (d, n + 1)

def scanQuoted (quote : Char) : Nat → Cursor → Except Fault (List Char × Cursor)
  | 0, _ => .error .unclosedQuote
  | fuel + 1, c =>
    match c.rest with
    | [] => .error .unclosedQuote
    | d :: ds =>
      if c.isDocumentMarker then .error .unclosedQuote
      else if d == quote then
        if quote == '\'' && ds.head? == some quote then do
          let (cs, c) ← scanQuoted quote fuel (c.skip 2)
          return (quote :: cs, c)
        else .ok ([], c.next)
      else if d == '\\' && quote == '"' then
        if c.next.isAtBreak then do
          let (gap, c) ← scanGap 0 ⟨[], some none, []⟩ c.next.next
          let (cs, c) ← scanQuoted quote fuel c
          return (gap.text ++ cs, c)
        else
          match escape? ds with
          | none => .error .badEscape
          | some (e, n) => do
            let (cs, c) ← scanQuoted quote fuel (c.next.skip n)
            return (e :: cs, c)
      else if isBlank d || isBreak d then do
        let (gap, c) ← scanGap 0 .none c
        let (cs, c) ← scanQuoted quote fuel c
        return (gap.text ++ cs, c)
      else do
        let (cs, c) ← scanQuoted quote fuel c.next
        return (d :: cs, c)

inductive Chomping where
  | strip
  | clip
  | keep
  deriving DecidableEq, Repr

/-- The header of a block scalar: how its end is chomped, and its indentation if it
is given. -/
structure BlockHeader where
  chomping : Chomping
  indent : Option Nat

def chomping? : Option Char → Option Chomping
  | some '+' => some .keep
  | some '-' => some .strip
  | _ => none

def indentDigit? (c : Option Char) : Except Fault (Option Nat) :=
  match c with
  | some d =>
    if d == '0' then .error .badBlockHeader
    else .ok (if d.isDigit then some (d.toNat - '0'.toNat) else none)
  | none => .ok none

def nextLine? (c : Cursor) : Option Cursor :=
  let c := c.skipWhile isBlank
  let c := if c.peek == some '#' then c.skipWhile (!isBreak ·) else c
  if c.rest.isEmpty || c.isAtBreak then some c.next else none

/-- The indicators of a block scalar, in either order, up to the end of their line. -/
def scanBlockHeader (c : Cursor) : Except Fault (BlockHeader × Cursor) := do
  let (header, c) ← indicators c
  let some c := nextLine? c | throw .badBlockHeader
  return (header, c)
where
  indicators (c : Cursor) : Except Fault (BlockHeader × Cursor) := do
    match chomping? c.peek with
    | some chomping =>
      let indent ← indentDigit? c.next.peek
      return (⟨chomping, indent⟩, if indent.isSome then c.skip 2 else c.next)
    | none =>
      match ← indentDigit? c.peek with
      | none => return (⟨.clip, none⟩, c)
      | some n =>
        match chomping? c.next.peek with
        | some chomping => return (⟨chomping, some n⟩, c.skip 2)
        | none => return (⟨.clip, some n⟩, c.next)

/-- Skips indentation and empty lines. Gives the breaks of the empty lines and the
greatest column met. -/
def scanIndent (indent : Option Nat) (deepest : Nat) (c : Cursor) :
    Except Fault (List Char × Nat × Cursor) :=
  match _h : c.rest with
  | [] => .ok ([], Nat.max deepest c.column, c)
  | d :: _ =>
    let due := indent.all fun n => decide (c.column < n)
    if due && d == ' ' then scanIndent indent deepest c.next
    else if due && d == '\t' then .error .tabIndentation
    else if isBreak d then
      match scanIndent indent (Nat.max deepest c.column) c.next with
      | .error e => .error e
      | .ok (breaks, deepest, end_) => .ok (c.breakChar :: breaks, deepest, end_)
    else .ok ([], Nat.max deepest c.column, c)
termination_by c.rest.length
decreasing_by all_goals exact Cursor.next_rest_length_lt c _ _ _h

/-- The lines of a block scalar. `pending` is the break of the line before and
`breaks` are those of the empty lines since. -/
def scanLines (isLiteral : Bool) (chomping : Chomping) (indent : Nat) :
    Nat → Option Char → List Char → Bool → Cursor → Except Fault (List Char × Cursor)
  | 0, _, _, _, c => .ok ([], c)
  | fuel + 1, pending, breaks, wasBlank, c =>
    if c.column = indent && !c.rest.isEmpty then do
      let isBlankLine := c.isAtBlank
      let lead :=
        if !isLiteral && pending == some '\n' && !wasBlank && !isBlankLine then
          if breaks.isEmpty then [' '] else []
        else pending.toList
      let (line, c) := c.spanWhile (!isBreak ·)
      let pending := if c.isAtBreak then some c.breakChar else none
      let (further, _, c) ← scanIndent (some indent) 0 c.next
      let (more, c) ← scanLines isLiteral chomping indent fuel pending further isBlankLine c
      return (lead ++ breaks ++ line ++ more, c)
    else
      .ok (match chomping with
        | .strip => []
        | .clip => pending.toList
        | .keep => pending.toList ++ breaks, c)

/-- A block scalar behind its indicator, within a collection indented by `parent`. -/
def scanBlock (isLiteral : Bool) (parent : Int) (fuel : Nat) (c : Cursor) :
    Except Fault (List Char × Cursor) := do
  let (header, c) ← scanBlockHeader c
  let given := header.indent.map fun n => if 0 ≤ parent then parent.toNat + n else n
  let (breaks, deepest, c) ← scanIndent given 0 c
  let indent := given.getD (Nat.max deepest (Nat.max (parent + 1).toNat 1))
  scanLines isLiteral header.chomping indent fuel none breaks false c

end ShowerTrack.Yaml
