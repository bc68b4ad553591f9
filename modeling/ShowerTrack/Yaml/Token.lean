import ShowerTrack.Yaml.Tag

/-!
# Tokens

The tokens of a document. Indentation shows as opening and closing tokens of block
collections, and a key is announced before its first token.
-/

set_option autoImplicit false

namespace ShowerTrack.Yaml

inductive Style where
  | plain
  | singleQuoted
  | doubleQuoted
  | literal
  | folded
  deriving DecidableEq, Repr

inductive Token where
  | streamEnd
  | directive (handle : String) (uri : Tag)
  | version
  | documentStart
  | documentEnd
  | blockSequenceStart
  | blockMappingStart
  | blockEnd
  | flowSequenceStart
  | flowSequenceEnd
  | flowMappingStart
  | flowMappingEnd
  | blockEntry
  | flowEntry
  | key
  | value
  | alias (name : String)
  | anchor (name : String)
  | tag (handle : String) (suffix : Tag)
  | scalar (text : String) (style : Style)
  deriving DecidableEq, Repr

inductive Fault where
  | forbiddenCharacter
  | unexpectedCharacter
  | missingColon
  | misplacedEntry
  | misplacedKey
  | misplacedValue
  | badDirective
  | badAnchor
  | badTag
  | badBlockHeader
  | badEscape
  | tabIndentation
  | unclosedQuote
  | unexpectedToken
  | unknownAnchor
  | unknownHandle
  | severalDocuments
  | tooDeep
  deriving DecidableEq, Repr

end ShowerTrack.Yaml
