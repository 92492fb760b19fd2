/-!
# Places in a configuration text

A `Mark` is a place in a text and a `Cursor` a mark with the characters behind it.  Lines are
counted by their breaks, of which there are five; the two characters of a return with a line feed
are one break.
-/

namespace QueryGate
namespace Yaml

/-- The character that stands for the end of a text; no readable text holds it. -/
def endChar : Char := Char.ofNat 0

/-- The byte order mark, which takes no column. -/
def orderMark : Char := Char.ofNat 0xFEFF

/-- The characters that break a line. -/
def isBreak (c : Char) : Bool :=
  c == '\n' || c == '\r' || c.toNat == 0x85 || c.toNat == 0x2028 || c.toNat == 0x2029

/-- A break or the end of the text. -/
def isLineEnd (c : Char) : Bool := c == endChar || isBreak c

/-- A space, a tab or the end of a line. -/
def isGap (c : Char) : Bool := c == ' ' || c == '\t' || isLineEnd c

/-- A place in a text: the number of characters and of breaks in front of it, and its column. -/
structure Mark where
  index : Nat
  line : Nat
  column : Nat
  deriving DecidableEq, Repr, Inhabited

namespace Mark

/-- The start of a text. -/
def start : Mark := ⟨0, 0, 0⟩

/-- The place behind a character; `rest` is what follows it. -/
def past (m : Mark) (c : Char) (rest : List Char) : Mark :=
  if isBreak c ∧ ¬(c = '\r' ∧ rest.head? = some '\n') then ⟨m.index + 1, m.line + 1, 0⟩
  else if c = orderMark then { m with index := m.index + 1 }
  else { m with index := m.index + 1, column := m.column + 1 }

/-- The most characters of a line that are shown on one side of a place, and how many are shown
when there are more. -/
def shownSide : Nat × Nat := (36, 32)

/-- The part of a line on one side of a place, going away from it, and what stands for the part
that is left out. -/
def side (cs : List Char) : List Char × List Char :=
  let line := cs.takeWhile fun c => !isLineEnd c
  if shownSide.1 < line.length then (line.take shownSide.2, " ... ".toList) else (line, [])

/-- The line around a place, with a pointer to it below. -/
def snippet (text : List Char) (m : Mark) : List Char :=
  let (before, head) := side (text.take m.index).reverse
  let (after, tail) := side (text.drop m.index)
  let indent := List.replicate 4 ' '
  indent ++ head ++ before.reverse ++ after ++ tail ++ '\n' :: indent
    ++ List.replicate (before.length + head.length) ' ' ++ ['^']

/-- The place and the line around it, for a message. -/
def shown (text : List Char) (m : Mark) : String :=
  "  in \"<unicode string>\", line " ++ toString (m.line + 1) ++ ", column "
    ++ toString (m.column + 1) ++ ":\n" ++ String.ofList (m.snippet text)

end Mark

/-- A place in a text with the characters behind it. -/
structure Cursor where
  mark : Mark
  rest : List Char
  deriving DecidableEq, Repr

namespace Cursor

/-- The start of a text. -/
def ofText (text : List Char) : Cursor := ⟨.start, text⟩

/-- The next character. -/
def peek (c : Cursor) : Char := c.rest.headD endChar

/-- The character a number of places ahead. -/
def peekAt (c : Cursor) (k : Nat) : Char := (c.rest[k]?).getD endChar

/-- Goes a number of characters ahead. -/
def advance : Nat → Cursor → Cursor
  | 0, c => c
  | n + 1, ⟨m, x :: r⟩ => advance n ⟨m.past x r, r⟩
  | _ + 1, ⟨m, []⟩ => ⟨m, []⟩

/-- Whether three equal marks of a document and a gap follow. -/
def atDocumentMark (c : Cursor) : Bool :=
  (c.rest.take 3 == "---".toList || c.rest.take 3 == "...".toList) && isGap (c.peekAt 3)

end Cursor

end Yaml
end QueryGate
