import ShowerTrack.Yaml.Node

/-!
# Decoding

Decoding reads a value off the tree of a document. Aliases are followed on the way, but
only a bounded number of times for each node of the document, so that a short text
cannot stand for an endless value.
-/

set_option autoImplicit false

namespace ShowerTrack.Yaml

/-- A computation with the anchored nodes at hand. Its state is how many more aliases may
be followed; it may find that the document does not fit. -/
abbrev Decode (α : Type) : Type := ReaderT (List (Nat × Node)) (StateT Nat Option) α

namespace Decode

def ofOption {α : Type} (x : Option α) : Decode α :=
  match x with
  | some a => return a
  | none => failure

/-- The node that an alias stands for; any other node itself. -/
def follow (n : Node) : Decode Node := do
  match n with
  | .alias number =>
    let left ← get
    if left = 0 then failure
    set (left - 1)
    ofOption ((← read).lookup number)
  | n => return n

end Decode

namespace Document

def aliasesPerNode : Nat := 100

def decode {α : Type} (d : Document) (f : Node → Decode α) : Option α :=
  (((f d.root).run d.anchored).run (aliasesPerNode * d.root.size)).map (·.1)

end Document

def read? {α : Type} (f : Node → Decode α) (text : String) : Option α :=
  match Document.read text with
  | .ok d => d.decode f
  | .error _ => none

end ShowerTrack.Yaml
