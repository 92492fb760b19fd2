import QueryGate.Text.Blank
import QueryGate.Yaml.Timestamp

/-!
# Tags

A tag says of what kind a node is.  A scalar without quotes has the tag of the notation that its
text is written in: a truth value, a number, a point in time, nothing, or else text.  The notations
exclude one another, so their order does not matter.  A scalar in quotes has it too where the tag
leaves the kind open, and then its text may end in a line break.
-/

namespace QueryGate
namespace Yaml
namespace Tag

open Text

/-- What the tags of the common kinds start with. -/
def common : String := "tag:yaml.org,2002:"

/-- The tag that leaves the kind open. -/
def unspecific : String := "!"

/-- Nothing. -/
def null : String := common ++ "null"

/-- Truth values. -/
def bool : String := common ++ "bool"

/-- Whole numbers. -/
def int : String := common ++ "int"

/-- Numbers with a point. -/
def float : String := common ++ "float"

/-- Octets. -/
def binary : String := common ++ "binary"

/-- Days and points in time. -/
def timestamp : String := common ++ "timestamp"

/-- Text. -/
def text : String := common ++ "str"

/-- Lists. -/
def sequence : String := common ++ "seq"

/-- Mappings. -/
def mapping : String := common ++ "map"

/-- The keys of a mapping alone. -/
def set : String := common ++ "set"

/-- Lists of mappings with one entry each, no key twice. -/
def orderedMap : String := common ++ "omap"

/-- Lists of mappings with one entry each. -/
def pairs : String := common ++ "pairs"

/-- The key whose value is merged into the mapping. -/
def merge : String := common ++ "merge"

/-- The key whose value stands for the mapping. -/
def value : String := common ++ "value"

/-- Signs that stand for no value of their own. -/
def sign : String := common ++ "yaml"

/-- The tags of scalars whose value depends on their characters alone. -/
def scalars : List String := [text, null, bool, int, float, timestamp]

/-- The spellings of nothing. -/
def nullWords : List String := ["", "~", "null", "Null", "NULL"]

/-- The spellings of truth values. -/
def boolWords : List String :=
  ["yes", "Yes", "YES", "no", "No", "NO", "true", "True", "TRUE", "false", "False", "FALSE",
    "on", "On", "ON", "off", "Off", "OFF"]

/-- A text without the sign in front. -/
def unsigned : List Char → List Char
  | c :: r => if c = '-' ∨ c = '+' then r else c :: r
  | [] => []

/-- A digit or an underscore. -/
def isGrouped (c : Char) : Bool := isAsciiDigit c || c == '_'

/-- Whether a text is a digit with digits and underscores behind it. -/
def isGroupedRun (cs : List Char) : Bool :=
  match cs with
  | c :: r => isAsciiDigit c && r.all isGrouped
  | [] => false

/-- Whether a text is a non-empty run of digits of a base and underscores. -/
def isRunOf (isDigit : Char → Bool) (cs : List Char) : Bool :=
  !cs.isEmpty && cs.all fun c => isDigit c || c == '_'

/-- A digit of base sixteen. -/
def isHexDigit (c : Char) : Bool :=
  isAsciiDigit c || ('a' ≤ c && c ≤ 'f') || ('A' ≤ c && c ≤ 'F')

/-- Whether a text is a part of a number in base sixty: below sixty, in one or two digits. -/
def isSixtieth : List Char → Bool
  | [a] => isAsciiDigit a
  | [a, b] => isAsciiDigit a && isAsciiDigit b && a ≤ '5'
  | _ => false

/-- The parts of a text between colons. -/
def colonParts : List Char → List (List Char)
  | [] => [[]]
  | c :: r =>
    if c = ':' then [] :: colonParts r
    else
      match colonParts r with
      | part :: more => (c :: part) :: more
      | [] => [[c]]

/-- Whether a text is a whole number: in base two, eight, sixteen, ten, or in base sixty with
colons between the parts. -/
def isWhole (cs : List Char) : Bool :=
  match unsigned cs with
  | ['0'] => true
  | '0' :: 'b' :: ds => isRunOf (fun c => c == '0' || c == '1') ds
  | '0' :: 'x' :: ds => isRunOf isHexDigit ds
  | '0' :: ds => isRunOf (fun c => '0' ≤ c && c ≤ '7') ds
  | body =>
    match colonParts body with
    | first :: more => isGroupedRun first && more.all isSixtieth
    | [] => false

/-- Whether a text is an exponent with its sign, or empty. -/
def isExponent : List Char → Bool
  | [] => true
  | e :: s :: ds => (e == 'e' || e == 'E') && (s == '-' || s == '+') && isDigits ds
  | _ => false

/-- Whether a text is what follows the point of a number. -/
def isFraction (cs : List Char) : Bool := isExponent (cs.dropWhile isGrouped)

/-- The spellings of the infinity and of what is not a number, without a sign. -/
def infinityWords : List String := [".inf", ".Inf", ".INF"]

/-- The spellings of what is not a number. -/
def nanWords : List String := [".nan", ".NaN", ".NAN"]

/-- Whether a text is a number with a point.  Without digits in front of the point there is no
sign; in base sixty there is no exponent. -/
def isPointed (cs : List Char) : Bool :=
  let body := unsigned cs
  let whole := body.takeWhile (· != '.')
  infinityWords.contains (String.ofList body) || nanWords.contains (String.ofList cs) ||
    match body.dropWhile (· != '.') with
    | '.' :: places =>
      match colonParts whole with
      | [] => false
      | [[]] => body == cs && (places.head?.map isAsciiDigit).getD false && isFraction places
      | [first] => isGroupedRun first && isFraction places
      | first :: more => isGroupedRun first && more.all isSixtieth && places.all isGrouped
    | _ => false

/-- The spellings of signs: those in front of tags, anchors and references. -/
def signWords : List String := ["!", "&", "*"]

/-- The tag of the notation that a text is written in. -/
def ofNotation (cs : List Char) : String :=
  let word := String.ofList cs
  if nullWords.contains word then null
  else if boolWords.contains word then bool
  else if isPointed cs then float
  else if isWhole cs then int
  else if Timestamp.isNotation cs then timestamp
  else if word = "<<" then merge
  else if word = "=" then value
  else if signWords.contains word then sign
  else text

/-- The tag of a scalar whose text tells its kind.  A line break behind the text does not count; the
line break alone is text. -/
def ofText (cs : List Char) : String :=
  if cs = ['\n'] then text else ofNotation (withoutLineBreak cs)

end Tag
end Yaml
end QueryGate
