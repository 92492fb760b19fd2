import QueryGate.Text.Digit
import QueryGate.Text.Utf8

/-!
# Request targets

A target is a path, perhaps with parameters behind a question mark.  Octets can be written with
percent signs in all of it, and a fragment behind a number sign does not count.
-/

namespace QueryGate
namespace Http

open Text

/-- Text with the octets written with percent signs in it; `octets` are those just in front. -/
def percentDecoded (octets : List UInt8) : List Char → List Char
  | '%' :: a :: b :: r =>
    match hexValue? a, hexValue? b with
    | some high, some low => percentDecoded (octets ++ [UInt8.ofNat (16 * high + low)]) r
    | _, _ => decodeLossy octets ++ '%' :: percentDecoded [] (a :: b :: r)
  | c :: r => decodeLossy octets ++ c :: percentDecoded [] r
  | [] => decodeLossy octets

/-- The pieces of a text between separators. -/
def pieces (separator : Char) : List Char → List (List Char)
  | [] => [[]]
  | c :: r =>
    if c = separator then [] :: pieces separator r
    else
      match pieces separator r with
      | piece :: more => (c :: piece) :: more
      | [] => [[c]]

/-- The part of a text in front of a mark, and what stands behind the mark. -/
def splitAtMark (mark : Char) (cs : List Char) : List Char × List Char :=
  (cs.takeWhile (· != mark), (cs.dropWhile (· != mark)).drop 1)

/-- The text that a name or a value of a parameter writes, in which a plus is a space. -/
def parameterText (cs : List Char) : String :=
  String.ofList (percentDecoded [] (cs.map fun c => if c = '+' then ' ' else c))

/-- The parameters of a query; one without an equals sign has no characters as its value. -/
def parameters (cs : List Char) : List (String × String) :=
  ((pieces '&' cs).filter (!·.isEmpty)).map fun piece =>
    let (name, value) := splitAtMark '=' piece
    (parameterText name, parameterText value)

/-- The path of a target and its parameters. -/
structure Target where
  path : String
  query : List (String × String)
  deriving DecidableEq, Repr

/-- Reads a target; its path starts with a slash, written or not. -/
def Target.ofText (text : String) : Target :=
  let (path, query) := splitAtMark '?' (splitAtMark '#' text.toList).1
  let path := if path.head? = some '/' then path else '/' :: path
  ⟨String.ofList (percentDecoded [] path), parameters query⟩

end Http
end QueryGate
