import QueryGate.Text.Blank
import QueryGate.Text.Case
import QueryGate.Text.WordChar

/-!
# Searching a text

A text contains a word when the characters of the word stand in it with an edge of a word in
front of the first and behind the last of them.  What counts as the same character is a parameter:
equality, or equality up to letter case.  `firstMatch?` finds the first place where a reader of
larger patterns succeeds.
-/

namespace QueryGate
namespace Text

/-- Whether the word stands at the front of the text and ends at an edge; `before` is the character
in front. -/
def wordHere (same : Char → Char → Bool) (before : Option Char) : List Char → List Char → Bool
  | [], text => wordEdge before text.head?
  | _ :: _, [] => false
  | k :: word, c :: text => same k c && wordHere same (some c) word text

/-- Whether the word starts somewhere in the text; `before` is the character in front of it. -/
def containsWordFrom (same : Char → Char → Bool) (word : List Char) (before : Option Char) :
    List Char → Bool
  | [] => wordEdge before none && wordHere same before word []
  | c :: r =>
    (wordEdge before (some c) && wordHere same before word (c :: r))
      || containsWordFrom same word (some c) r

/-- Whether a text contains a word, letter case aside. -/
def containsWord (word text : List Char) : Bool := containsWordFrom sameLetter word none text

/-- Whether a text contains a word exactly. -/
def containsExactWord (word text : List Char) : Bool :=
  containsWordFrom (fun a b => a == b) word none text

/-- Whether a text contains another one, character by character. -/
def containsText (part : List Char) : List Char → Bool
  | [] => part.isEmpty
  | c :: r => part.isPrefixOf (c :: r) || containsText part r

/-- The result of a reader at the first edge of a word where it succeeds; `before` is the
character in front of the text. -/
def firstMatchFrom? {α : Type} (read : List Char → Option α) (before : Option Char) :
    List Char → Option α
  | [] => none
  | c :: r =>
    match (if wordEdge before (some c) then read (c :: r) else none) with
    | some found => some found
    | none => firstMatchFrom? read (some c) r

/-- The result of a reader at the first edge of a word where it succeeds. -/
def firstMatch? {α : Type} (read : List Char → Option α) (text : List Char) : Option α :=
  firstMatchFrom? read none text

/-- What is behind the given characters at the front of a text. -/
def afterChars? : List Char → List Char → Option (List Char)
  | [], text => some text
  | _ :: _, [] => none
  | k :: ks, c :: r => if k = c then afterChars? ks r else none

/-- What is behind a run of blanks at the front of a text. -/
def afterBlanks? (text : List Char) : Option (List Char) :=
  if startsBlank text then some (trimLeft text) else none

end Text
end QueryGate
