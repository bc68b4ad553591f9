import ShowerTrack.Yaml.Scanner

/-!
# Nodes

The tree of a document. Tags are written out, and an alias has the number of its
anchor. A value that is left out is an empty plain scalar, and so is a text without a
document.
-/

set_option autoImplicit false

namespace ShowerTrack.Yaml

inductive Node where
  | scalar (text : String) (style : Style) (tag : Option Tag)
  | sequence (items : List Node) (tag : Option Tag)
  | mapping (entries : List (Node × Node)) (tag : Option Tag)
  /-- Stands for the node with the anchor of a number. -/
  | alias (number : Nat)
  deriving Repr

namespace Node

def blank : Node := .scalar "" .plain none

def isBlank : Node → Bool
  | .scalar text .plain _ => text.isEmpty
  | _ => false

/-- The number of scalars, of aliases and of ends of collections. -/
def size : Node → Nat
  | .scalar _ _ _ => 1
  | .sequence items _ => 2 + sizeOfItems items
  | .mapping entries _ => 2 + sizeOfEntries entries
  | .alias _ => 1
where
  sizeOfItems : List Node → Nat
    | [] => 0
    | n :: ns => n.size + sizeOfItems ns
  sizeOfEntries : List (Node × Node) → Nat
    | [] => 0
    | (k, v) :: es => k.size + v.size + sizeOfEntries es

end Node

/-- A tree with the nodes that have anchors, by the numbers of these. -/
structure Document where
  root : Node
  anchored : List (Nat × Node)
  deriving Repr

/-- The anchors of a document so far. The number of an anchor is how many names were in
use when it was set, so that a name in new use may share its number with the name
after it; aliases of that number then stand for the node whose anchor was set last. -/
structure Anchors where
  names : List (String × Nat)
  /-- The numbers of the anchors, the last set first. -/
  numbers : List Nat
  /-- The nodes that are complete, by the place of their anchor among all that were set. -/
  nodes : List (Nat × Node)

namespace Anchors

def empty : Anchors := ⟨[], [], []⟩

def declare (a : Anchors) (name : String) : Nat × Anchors :=
  let number := a.names.length
  (a.numbers.length,
    { a with
      names := (name, number) :: a.names.filter (·.1 != name)
      numbers := number :: a.numbers })

def complete (a : Anchors) (place : Nat) (n : Node) : Anchors :=
  { a with nodes := (place, n) :: a.nodes }

def number? (a : Anchors) (name : String) : Option Nat := a.names.lookup name

/-- The nodes by number, the one whose anchor was set last first. -/
def byNumber (a : Anchors) : List (Nat × Node) :=
  (a.numbers.reverse.zipIdx.reverse).filterMap fun (number, place) =>
    (a.nodes.lookup place).map (number, ·)

end Anchors

structure Feed where
  tokens : List Token
  anchors : Anchors
  handles : List (String × Tag)

abbrev Reader := StateT Feed (Except Fault)

namespace Reader

def peek : Reader Token := do return (← get).tokens.headD .streamEnd

def skip : Reader Unit := modify fun f => { f with tokens := f.tokens.drop 1 }

def take? (t : Token) : Reader Bool := do
  if (← peek) == t then
    skip
    return true
  return false

def isAt (ts : List Token) : Reader Bool := do return ts.contains (← peek)

def expect (t : Token) : Reader Unit := do
  if !(← take? t) then throw .unexpectedToken

def anchor? : Reader (Option String) := do
  match ← peek with
  | .anchor name =>
    skip
    return some name
  | _ => return none

def tag? : Reader (Option Tag) := do
  match ← peek with
  | .tag handle suffix =>
    skip
    if handle.isEmpty then return some suffix
    match (← get).handles.lookup handle with
    | some base => return some (base.append suffix)
    | none => throw .unknownHandle
  | _ => return none

/-- An anchor and a tag, in either order. -/
def properties : Reader (Option String × Option Tag) := do
  match ← anchor? with
  | some name => return (some name, ← tag?)
  | none =>
    let tag ← tag?
    return (← anchor?, tag)

def declare (name : Option String) : Reader (Option Nat) := do
  let some name := name | return none
  let (place, anchors) := (← get).anchors.declare name
  modify fun f => { f with anchors }
  return some place

def bind (place : Option Nat) (n : Node) : Reader Node := do
  if let some place := place then
    modify fun f => { f with anchors := f.anchors.complete place n }
  return n

/-- Which collections may start: block collections, and sequences whose entries stand
at the column of their key. -/
structure Place where
  block : Bool
  indentless : Bool
  deriving DecidableEq, Repr

def Place.inBlock : Place := ⟨true, false⟩

def Place.ofKey : Place := ⟨true, true⟩

def Place.inFlow : Place := ⟨false, false⟩

def endsEntry : List Token := [.blockEntry, .blockEnd]

def endsIndentless : List Token := [.blockEntry, .key, .value, .blockEnd]

def endsBlockPart : List Token := [.key, .value, .blockEnd]

def endsPairKey : List Token := [.value, .flowEntry, .flowSequenceEnd]

def endsPairValue : List Token := [.flowEntry, .flowSequenceEnd]

def endsFlowKey : List Token := [.value, .flowEntry, .flowMappingEnd]

def endsFlowValue : List Token := [.flowEntry, .flowMappingEnd]

mutual

def node (p : Place) : Nat → Reader Node
  | 0 => throw .tooDeep
  | fuel + 1 => do
    if let .alias name := ← peek then
      skip
      match (← get).anchors.number? name with
      | some number => return .alias number
      | none => throw .unknownAnchor
    let (name, tag) ← properties
    let place ← declare name
    match ← peek with
    | .scalar text style =>
      skip
      bind place (.scalar text style tag)
    | .flowSequenceStart =>
      skip
      bind place (.sequence (← flowItems true fuel) tag)
    | .flowMappingStart =>
      skip
      bind place (.mapping (← flowEntries true fuel) tag)
    | token =>
      if p.indentless && token == .blockEntry then
        bind place (.sequence (← indentlessItems fuel) tag)
      else if p.block && token == .blockSequenceStart then
        skip
        bind place (.sequence (← blockItems fuel) tag)
      else if p.block && token == .blockMappingStart then
        skip
        bind place (.mapping (← blockEntries fuel) tag)
      else if name.isSome || tag.isSome then bind place (.scalar "" .plain tag)
      else throw .unexpectedToken

def nodeUnless (stops : List Token) (p : Place) : Nat → Reader Node
  | 0 => throw .tooDeep
  | fuel + 1 => do if ← isAt stops then return .blank else node p fuel

def blockItems : Nat → Reader (List Node)
  | 0 => throw .tooDeep
  | fuel + 1 => do
    if ← take? .blockEnd then return []
    expect .blockEntry
    let item ← nodeUnless endsEntry .inBlock fuel
    return item :: (← blockItems fuel)

def indentlessItems : Nat → Reader (List Node)
  | 0 => throw .tooDeep
  | fuel + 1 => do
    if ← take? .blockEntry then
      let item ← nodeUnless endsIndentless .inBlock fuel
      return item :: (← indentlessItems fuel)
    return []

def blockEntries : Nat → Reader (List (Node × Node))
  | 0 => throw .tooDeep
  | fuel + 1 => do
    if ← take? .blockEnd then return []
    expect .key
    let key ← nodeUnless endsBlockPart .ofKey fuel
    let value ←
      if ← take? .value then nodeUnless endsBlockPart .ofKey fuel else pure .blank
    return (key, value) :: (← blockEntries fuel)

def flowItems (isFirst : Bool) : Nat → Reader (List Node)
  | 0 => throw .tooDeep
  | fuel + 1 => do
    if ← take? .flowSequenceEnd then return []
    if !isFirst then expect .flowEntry
    if ← take? .flowSequenceEnd then return []
    let item ← if ← take? .key then pair fuel else node .inFlow fuel
    return item :: (← flowItems false fuel)

/-- A single pair that stands for a mapping. -/
def pair : Nat → Reader Node
  | 0 => throw .tooDeep
  | fuel + 1 => do
    let key ←
      if ← isAt endsPairKey then
        skip
        pure .blank
      else node .inFlow fuel
    let value ←
      if ← take? .value then nodeUnless endsPairValue .inFlow fuel else pure .blank
    return .mapping [(key, value)] none

def flowEntries (isFirst : Bool) : Nat → Reader (List (Node × Node))
  | 0 => throw .tooDeep
  | fuel + 1 => do
    if ← take? .flowMappingEnd then return []
    if !isFirst then expect .flowEntry
    if ← take? .flowMappingEnd then return []
    if ← take? .key then
      let key ← nodeUnless endsFlowKey .inFlow fuel
      let value ←
        if ← take? .value then nodeUnless endsFlowValue .inFlow fuel else pure .blank
      return (key, value) :: (← flowEntries false fuel)
    let key ← node .inFlow fuel
    return (key, .blank) :: (← flowEntries false fuel)

end

def standardHandles : List (String × Tag) := [("!", .bang), ("!!", .core "")]

/-- The directives in front of a document, and whether there are any. Neither the
version nor a handle must be declared twice. -/
def directives : Nat → Bool → Reader Bool
  | 0, versioned => return versioned
  | fuel + 1, versioned => do
    match ← peek with
    | .version =>
      if versioned then throw .badDirective
      skip
      directives fuel true
    | .directive handle uri =>
      skip
      if ((← get).handles.lookup handle).isSome then throw .badDirective
      modify fun f => { f with handles := (handle, uri) :: f.handles }
      directives fuel versioned
    | _ => return versioned || !(← get).handles.isEmpty

def closeDocument : Nat → Reader Unit
  | 0 => return
  | fuel + 1 => do if ← take? .documentEnd then closeDocument fuel

def document (fuel : Nat) : Reader Document := do
  let declared ← directives fuel false
  modify fun f => { f with handles := f.handles ++ standardHandles }
  if declared && (← peek) != .documentStart then throw .unexpectedToken
  let root ←
    if ← take? .documentStart then
      nodeUnless [.version, .documentStart, .documentEnd, .streamEnd] .inBlock fuel
    else if (← peek) == .streamEnd then pure .blank
    else node .inBlock fuel
  closeDocument fuel
  if (← peek) != .streamEnd then throw .severalDocuments
  return ⟨root, (← get).anchors.byNumber⟩

end Reader

def Document.read (text : String) : Except Fault Document := do
  let ts ← tokens text
  let fuel := 3 * ts.length + 8
  return (← (Reader.document fuel).run ⟨ts, .empty, []⟩).1

end ShowerTrack.Yaml
