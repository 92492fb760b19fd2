import QueryGate.Sql.SyntaxFault
import QueryGate.Sql.Token
import QueryGate.Text.Blank
import QueryGate.Text.Digit

/-!
# Reading tokens

`scan` reads a text from left to right.  At each place it skips a blank or takes the token that
starts there, whose written form is exactly the text it covers, so the place of the next token is
found by counting.  The depth of parentheses is kept on the way: it is never negative and ends at
zero.
-/

namespace QueryGate
namespace Sql

open Text

/-- A token and the place where it starts. -/
structure Placed where
  offset : Nat
  token : Token
  deriving DecidableEq, Repr

/-- Characters that start a word. -/
def isWordStart (c : Char) : Bool := c.isAlpha || c == '_'

/-- Characters that continue a word. -/
def isWordPart (c : Char) : Bool := c.isAlphanum || c == '_' || c == '$'

/-- The number at the front of a text that starts with a digit: digits, and a point with digits
after it where both are there. -/
def numberAt (cs : List Char) : List Char :=
  let whole := cs.takeWhile isAsciiDigit
  match cs.dropWhile isAsciiDigit with
  | '.' :: r =>
    let places := r.takeWhile isAsciiDigit
    if places.isEmpty then whole else whole ++ '.' :: places
  | _ => whole

/-- The inside of a literal whose opening quote has been read: it ends at the first quote that
is not doubled. -/
def literalBody? (q : Char) : List Char → Option (List Char)
  | [] => none
  | [c] => if c = q then some [] else none
  | c :: d :: r =>
    if c = q then
      if d = q then (literalBody? q r).map fun body => q :: q :: body else some []
    else (literalBody? q (d :: r)).map (c :: ·)

/-- The place of the quote that nothing closes in a literal without an end: the second one of
its last doubled quote, or the opening one.  `next` is the place of the first character. -/
def strayQuote (q : Char) (found next : Nat) : List Char → Nat
  | c :: d :: r =>
    if c = q ∧ d = q then strayQuote q (next + 1) (next + 2) r
    else strayQuote q found (next + 1) (d :: r)
  | _ => found

/-- The quoted name after an opening quote. -/
def quotedNameAt (offset : Nat) (r : List Char) : Except SyntaxFault Token :=
  let name := r.takeWhile (· != Token.nameQuote)
  if name.length = r.length then .error (.unexpected Token.nameQuote offset)
  else if name.all isBlank then .error (.emptyName offset)
  else .ok (.quotedName name)

/-- The literal after an opening quote. -/
def literalAt (quote : Quote) (offset : Nat) (r : List Char) : Except SyntaxFault Token :=
  match literalBody? quote.char r with
  | some body => .ok (.literal quote body)
  | none => .error (.unexpected quote.char (strayQuote quote.char offset (offset + 1) r))

/-- The operator at the front of a text; the longer ones come first. -/
def operatorAt? : List Char → Option Operator
  | '<' :: '=' :: _ => some .le
  | '>' :: '=' :: _ => some .ge
  | '<' :: '>' :: _ => some .ltGt
  | '!' :: '=' :: _ => some .notEq
  | '=' :: _ => some .eq
  | '<' :: _ => some .lt
  | '>' :: _ => some .gt
  | '+' :: _ => some .plus
  | '-' :: _ => some .minus
  | '/' :: _ => some .slash
  | '%' :: _ => some .percent
  | _ => none

/-- The punctuation that a character is. -/
def punctuation? : Char → Option Token
  | '*' => some .star
  | ',' => some .comma
  | '.' => some .dot
  | '(' => some .lparen
  | ')' => some .rparen
  | _ => none

/-- The token that starts a text, whose first character is given apart. -/
def tokenAt (offset : Nat) (c : Char) (r : List Char) : Except SyntaxFault Token :=
  if c = Token.nameQuote then quotedNameAt offset r
  else if c = '\'' then literalAt .single offset r
  else if c = '"' then literalAt .double offset r
  else if isAsciiDigit c then .ok (.number (numberAt (c :: r)))
  else if isWordStart c then .ok (.word (c :: r.takeWhile isWordPart))
  else
    match operatorAt? (c :: r) with
    | some op => .ok (.operator op)
    | none =>
      match punctuation? c with
      | some t => .ok t
      | none => .error (.unexpected c offset)

/-- Reads the tokens of a text that starts at `offset`, inside `depth` parentheses. -/
def scanFrom (offset depth : Nat) : List Char → Except SyntaxFault (List Placed)
  | [] => if depth = 0 then .ok [] else .error .unclosed
  | c :: r =>
    if isBlank c then scanFrom (offset + 1) depth r
    else
      match tokenAt offset c r with
      | .error fault => .error fault
      | .ok t =>
        if t = .rparen ∧ depth = 0 then .error (.unopened offset)
        else
          let inner := if t = .lparen then depth + 1 else if t = .rparen then depth - 1 else depth
          match scanFrom (offset + t.written.length) inner (r.drop (t.written.length - 1)) with
          | .error fault => .error fault
          | .ok more => .ok (⟨offset, t⟩ :: more)
  termination_by cs => cs.length
  decreasing_by
    · exact Nat.lt_succ_self _
    · exact Nat.lt_succ_of_le ((List.drop_sublist _ _).length_le)

theorem scanFrom_nil (offset depth : Nat) :
    scanFrom offset depth [] = if depth = 0 then .ok [] else .error .unclosed := by
  rw [scanFrom.eq_def]

theorem scanFrom_blank (offset depth : Nat) {c : Char} (h : isBlank c = true) (r : List Char) :
    scanFrom offset depth (c :: r) = scanFrom (offset + 1) depth r := by
  rw [scanFrom.eq_def]
  exact if_pos h

theorem scanFrom_token (offset depth : Nat) {c : Char} (h : ¬isBlank c = true) (r : List Char) :
    scanFrom offset depth (c :: r) =
      match tokenAt offset c r with
      | .error fault => .error fault
      | .ok t =>
        if t = .rparen ∧ depth = 0 then .error (.unopened offset)
        else
          let inner := if t = .lparen then depth + 1 else if t = .rparen then depth - 1 else depth
          match scanFrom (offset + t.written.length) inner (r.drop (t.written.length - 1)) with
          | .error fault => .error fault
          | .ok more => .ok (⟨offset, t⟩ :: more) := by
  rw [scanFrom.eq_def]
  exact if_neg h

/-- The tokens of a text with their places. -/
def scan (cs : List Char) : Except SyntaxFault (List Placed) := scanFrom 0 0 cs

/-- The tokens of a text. -/
def tokenize (cs : List Char) : Except SyntaxFault (List Token) :=
  (scan cs).map fun placed => placed.map (·.token)

end Sql
end QueryGate
