import QueryGate.Text.Blank
import QueryGate.Text.WordSearch

/-!
# Statements

The text of a query together with where it comes from.  The text is never changed; only a limit
is put at its end when it has none.
-/

namespace QueryGate

/-- Where a statement comes from. -/
inductive Provenance where
  | template
  | external
  deriving DecidableEq, Repr

/-- The name of an origin. -/
def Provenance.name : Provenance → String
  | .template => "template"
  | .external => "external"

/-- The origin with the given name. -/
def Provenance.ofName? (name : String) : Option Provenance :=
  [Provenance.template, .external].find? fun p => p.name == name

/-- A query text, its origin, and for templates the name of the intent. -/
structure Statement where
  text : String
  provenance : Provenance
  intent : Option String
  deriving DecidableEq, Repr

namespace Statement

/-- Whether the text contains the word `LIMIT`, letter case aside. -/
def hasLimit (s : Statement) : Bool := Text.containsWord "LIMIT".toList s.text.toList

/-- The statement with a limit at its end, unless it has one. -/
def withLimit (s : Statement) (rows : Int) : Statement :=
  if s.hasLimit then s
  else
    { s with text := String.ofList (Text.trimRight s.text.toList) ++ " LIMIT " ++ toString rows }

end Statement
end QueryGate
