import QueryGate.Yaml.Fault

/-!
# Tokens of configuration texts

The marks of a text, its scalars, and the marks that indentation stands for: where a list or a
mapping of the lines begins and ends, and where the key of an entry begins.
-/

namespace QueryGate
namespace Yaml

/-- An instruction in front of a document. -/
inductive Directive where
  | version (major minor : Nat)
  /-- A short form of the tags that start alike. -/
  | handle (name : String) (address : String)
  | reserved
  deriving DecidableEq, Repr

/-- What a token is. -/
inductive TokenKind where
  | directive (d : Directive)
  | documentStart
  | documentEnd
  | streamEnd
  | blockSequenceStart
  | blockMappingStart
  | blockEnd
  | flowSequenceStart
  | flowMappingStart
  | flowSequenceEnd
  | flowMappingEnd
  | blockEntry
  | flowEntry
  | key
  | value
  | reference (name : String)
  | anchor (name : String)
  /-- A tag: the handle it starts with, if it has one, and the rest. -/
  | tag (handle : Option String) (rest : String)
  | scalar (text : List Char) (plain : Bool)
  deriving DecidableEq, Repr

/-- The name of a kind of token in messages. -/
def TokenKind.name : TokenKind → String
  | .directive _ => "<directive>"
  | .documentStart => "<document start>"
  | .documentEnd => "<document end>"
  | .streamEnd => "<stream end>"
  | .blockSequenceStart => "<block sequence start>"
  | .blockMappingStart => "<block mapping start>"
  | .blockEnd => "<block end>"
  | .flowSequenceStart => "["
  | .flowMappingStart => "\x7b"
  | .flowSequenceEnd => "]"
  | .flowMappingEnd => "\x7d"
  | .blockEntry => "-"
  | .flowEntry => ","
  | .key => "?"
  | .value => ":"
  | .reference _ => "<alias>"
  | .anchor _ => "<anchor>"
  | .tag _ _ => "<tag>"
  | .scalar _ _ => "<scalar>"

/-- A token with the places where it starts and stops. -/
structure Token where
  kind : TokenKind
  start : Mark
  stop : Mark
  deriving DecidableEq, Repr

end Yaml
end QueryGate
