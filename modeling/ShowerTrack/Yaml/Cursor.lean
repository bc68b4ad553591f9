/-!
# Cursors

A place in a text: what follows, the line, the column in characters, and the number of
bytes before it.
-/

set_option autoImplicit false

namespace ShowerTrack.Yaml

def isBlank (c : Char) : Bool := c == ' ' || c == '\t'

def isBreak (c : Char) : Bool :=
  c == '\r' || c == '\n' || c == '\u0085' || c == '\u2028' || c == '\u2029'

structure Cursor where
  rest : List Char
  line : Nat
  column : Nat
  index : Nat

namespace Cursor

def ofList (cs : List Char) : Cursor := ⟨cs, 0, 0, 0⟩

/-- Moves over one character, or over one line break of two characters. -/
def next (c : Cursor) : Cursor :=
  match c.rest with
  | [] => c
  | '\r' :: '\n' :: cs => ⟨cs, c.line + 1, 0, c.index + 2⟩
  | d :: cs =>
    if isBreak d then ⟨cs, c.line + 1, 0, c.index + d.utf8Size⟩
    else ⟨cs, c.line, c.column + 1, c.index + d.utf8Size⟩

theorem next_rest_length_lt (c : Cursor) (d : Char) (cs : List Char) (h : c.rest = d :: cs) :
    c.next.rest.length < c.rest.length := by
  unfold next
  split
  · simp_all
  · rename_i h'
    rw [h']
    simp only [List.length_cons]
    omega
  · rename_i d' cs' _ h'
    rw [h']
    split <;> simp

def peek (c : Cursor) : Option Char := c.rest.head?

def peekAt (c : Cursor) (n : Nat) : Option Char := (c.rest.drop n).head?

/-- Whether a blank, a break or the end of the text is `n` characters ahead. -/
def isGapAt (c : Cursor) (n : Nat) : Bool :=
  match c.peekAt n with
  | none => true
  | some d => isBlank d || isBreak d

def skip : Nat → Cursor → Cursor
  | 0, c => c
  | n + 1, c => skip n c.next

def spanWhile (p : Char → Bool) (c : Cursor) : List Char × Cursor :=
  match _h : c.rest with
  | [] => ([], c)
  | d :: _ =>
    if p d then
      let (cs, c) := spanWhile p c.next
      (d :: cs, c)
    else ([], c)
termination_by c.rest.length
decreasing_by exact next_rest_length_lt c _ _ _h

def skipWhile (p : Char → Bool) (c : Cursor) : Cursor := (c.spanWhile p).2

def breakChar (c : Cursor) : Char :=
  match c.peek with
  | some '\u2028' => '\u2028'
  | some '\u2029' => '\u2029'
  | _ => '\n'

/-- Whether a line starts here with three given characters and a gap. -/
def isMarker (c : Cursor) (d : Char) : Bool :=
  c.column == 0 && c.rest.take 3 == [d, d, d] && c.isGapAt 3

def isDocumentMarker (c : Cursor) : Bool := c.isMarker '-' || c.isMarker '.'

def isAtBreak (c : Cursor) : Bool :=
  match c.peek with
  | some d => isBreak d
  | none => false

def isAtBlank (c : Cursor) : Bool :=
  match c.peek with
  | some d => isBlank d
  | none => false

end Cursor

end ShowerTrack.Yaml
