/-!
# Blanks

The characters that count as white space, and the three things that texts undergo because of
them: trimming, collapsing of runs, and both at once.  `collapse` keeps one space for every run,
so a text and its collapsed form have the same words in the same order.  Where a whole text is
compared with a notation, the line break at its end may be left out.
-/

namespace QueryGate
namespace Text

/-- White space: the ASCII controls and separators, the next-line and no-break spaces, and the
space separators of the wider character set.  Zero-width characters do not count. -/
def isBlank (c : Char) : Bool :=
  let n := c.toNat
  (9 ≤ n && n ≤ 13) || (28 ≤ n && n ≤ 32) || n == 0x85 || n == 0xA0 || n == 0x1680 ||
    (0x2000 ≤ n && n ≤ 0x200A) || n == 0x2028 || n == 0x2029 || n == 0x202F || n == 0x205F ||
    n == 0x3000

/-- Removes the blanks in front. -/
def trimLeft (cs : List Char) : List Char := cs.dropWhile isBlank

/-- Removes the blanks at the end. -/
def trimRight : List Char → List Char
  | [] => []
  | c :: r =>
    match trimRight r with
    | [] => if isBlank c then [] else [c]
    | kept => c :: kept

/-- Removes the blanks at both ends. -/
def trim (cs : List Char) : List Char := trimRight (trimLeft cs)

/-- Whether a text starts with a blank. -/
def startsBlank : List Char → Bool
  | [] => false
  | c :: _ => isBlank c

/-- Replaces every run of blanks by one space, which stands for the last blank of the run. -/
def collapse : List Char → List Char
  | [] => []
  | c :: r =>
    if isBlank c then
      if startsBlank r then collapse r else ' ' :: collapse r
    else c :: collapse r

/-- The words of a text with one space between them. -/
def squeeze (cs : List Char) : List Char := trim (collapse cs)

/-- A text without the line break at its end. -/
def withoutLineBreak (cs : List Char) : List Char :=
  match cs.reverse with
  | '\n' :: r => r.reverse
  | _ => cs

@[simp] theorem trimRight_nil : trimRight [] = [] := rfl

@[simp] theorem collapse_nil : collapse [] = [] := rfl

end Text
end QueryGate
