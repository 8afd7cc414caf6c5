/-!
# Tokens of a YAML text

The lexer cuts a document into tokens: the marks of structure (indentation
opening and closing block collections, brackets and braces of flow
collections, entry, key and value indicators), node properties (anchors,
aliases, tags), scalars with their style, and directives and document
markers.
-/

namespace Branching.Yaml

/-- How a scalar was written. -/
inductive ScalarStyle where
  | plain
  | singleQuoted
  | doubleQuoted
  | literal
  | folded
  deriving DecidableEq

/-- A token. -/
inductive Token where
  | streamStart
  | streamEnd
  /-- `%YAML major.minor`. -/
  | versionDirective (major minor : Nat)
  /-- `%TAG handle prefix`. -/
  | tagDirective (handle pfx : String)
  /-- A directive of another name, ignored. -/
  | otherDirective
  | documentStart
  | documentEnd
  | blockSequenceStart
  | blockMappingStart
  | blockEnd
  | flowSequenceStart
  | flowMappingStart
  | flowSequenceEnd
  | flowMappingEnd
  | blockEntry
  | flowEntry
  | key
  | value
  | aliasOf (name : String)
  | anchor (name : String)
  /-- A tag: its handle, if it has one, and its suffix. -/
  | tag (handle : Option String) (suffix : String)
  | scalar (text : String) (style : ScalarStyle)
  deriving DecidableEq

/-- The name messages give a token's kind. -/
def Token.name : Token → String
  | streamStart => "<stream start>"
  | streamEnd => "<stream end>"
  | versionDirective _ _ | tagDirective _ _ | otherDirective => "<directive>"
  | documentStart => "<document start>"
  | documentEnd => "<document end>"
  | blockSequenceStart => "<block sequence start>"
  | blockMappingStart => "<block mapping start>"
  | blockEnd => "<block end>"
  | flowSequenceStart => "["
  | flowMappingStart => "\x7b"
  | flowSequenceEnd => "]"
  | flowMappingEnd => "\x7d"
  | blockEntry => "-"
  | flowEntry => ","
  | key => "?"
  | value => ":"
  | aliasOf _ => "<alias>"
  | anchor _ => "<anchor>"
  | tag _ _ => "<tag>"
  | scalar _ _ => "<scalar>"

/-- Whether a token is a directive. -/
def Token.isDirective : Token → Bool
  | versionDirective _ _ | tagDirective _ _ | otherDirective => true
  | _ => false

end Branching.Yaml
