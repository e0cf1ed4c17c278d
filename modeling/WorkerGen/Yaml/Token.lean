/-!
# Tokens of a YAML text

The lexical units of a document.  Besides the indicators and scalars that are written, there are
tokens that stand for indentation: a block collection starts where its first entry stands deeper
than the collection around it, and ends before the first line that stands less deep.  A key that is
written without an indicator of its own gets one too.

Each token knows the byte offsets between which it stands; the tokens of indentation are empty.
-/

namespace WorkerGen.Yaml

/-- How a scalar is written. -/
inductive Style where
  | plain
  | singleQuoted
  | doubleQuoted
  | literal
  | folded
deriving DecidableEq, Inhabited, Repr

/-- What a token is. -/
inductive Lexeme where
  | versionDirective (major minor : Nat)
  | tagDirective (handle : String) (start : List UInt8)
  | documentStart
  | documentEnd
  | streamEnd
  | blockSequenceStart
  | blockMappingStart
  | blockEnd
  | flowSequenceStart
  | flowSequenceEnd
  | flowMappingStart
  | flowMappingEnd
  | blockEntry
  | flowEntry
  | key
  | value
  | anchor (name : String)
  | alias (name : String)
  | tag (handle : String) (suffix : List UInt8)
  | scalar (text : String) (style : Style)
deriving DecidableEq, Inhabited, Repr

/-- A token and the byte offsets between which it stands. -/
structure Token where
  lexeme : Lexeme
  start : Nat
  stop : Nat
deriving DecidableEq, Inhabited, Repr

/-- Why a text is no YAML document. -/
inductive SyntaxFault where
  /-- A character that no document may hold. -/
  | forbiddenCharacter
  /-- A character that starts no token. -/
  | unexpectedCharacter
  /-- An entry, key or value where the block structure allows none. -/
  | misplacedIndicator
  /-- A line that has to be a key and has no `:`. -/
  | missingColon
  | badDirective
  | badAnchor
  | badTag
  | badBlockHeader
  /-- A tab where indentation is expected. -/
  | tabIndentation
  | badEscape
  /-- A quoted scalar that does not end. -/
  | unterminatedScalar
  /-- A token where another is expected. -/
  | unexpectedToken
  | undefinedTagHandle
  | unknownAnchor
  | severalDocuments
deriving DecidableEq, Inhabited, Repr

end WorkerGen.Yaml
