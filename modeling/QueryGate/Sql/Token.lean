import QueryGate.Sql.Keyword
import QueryGate.Text.Case

/-!
# Tokens

The pieces that a query consists of.  `written` is the text of a token as it stands in the query;
the lexer never drops or changes a character of it.
-/

namespace QueryGate
namespace Sql

/-- The quotes of a literal. -/
inductive Quote where
  | single | double
  deriving DecidableEq, Repr

/-- The character of a quote. -/
def Quote.char : Quote → Char
  | .single => '\''
  | .double => '"'

/-- Comparison and arithmetic operators. -/
inductive Operator where
  | eq | ltGt | notEq | lt | gt | le | ge | plus | minus | slash | percent
  deriving DecidableEq, Repr

/-- The characters of an operator. -/
def Operator.chars : Operator → List Char
  | .eq => ['=']
  | .ltGt => ['<', '>']
  | .notEq => ['!', '=']
  | .lt => ['<']
  | .gt => ['>']
  | .le => ['<', '=']
  | .ge => ['>', '=']
  | .plus => ['+']
  | .minus => ['-']
  | .slash => ['/']
  | .percent => ['%']

/-- A token.  A quoted name holds the name without its quotes, a literal the text between its
quotes with doubled quotes left doubled. -/
inductive Token where
  | word (letters : List Char)
  | quotedName (name : List Char)
  | literal (quote : Quote) (body : List Char)
  | number (digits : List Char)
  | operator (op : Operator)
  | star
  | comma
  | dot
  | lparen
  | rparen
  deriving DecidableEq, Repr

namespace Token

/-- The quote of a quoted name. -/
def nameQuote : Char := '\x60'

/-- The text of a token as it stands in the query. -/
def written : Token → List Char
  | word letters => letters
  | quotedName name => nameQuote :: name ++ [nameQuote]
  | literal quote body => quote.char :: body ++ [quote.char]
  | number digits => digits
  | operator op => op.chars
  | star => ['*']
  | comma => [',']
  | dot => ['.']
  | lparen => ['(']
  | rparen => [')']

/-- The text of a token as it stands in the query. -/
def writtenText (t : Token) : String := String.ofList t.written

/-- The keyword that a token is; a quoted name is none. -/
def keyword? : Token → Option Keyword
  | word letters => Keyword.ofWord? letters
  | _ => none

/-- Whether a token is the given keyword. -/
def isKeyword (t : Token) (k : Keyword) : Bool := t.keyword? == some k

/-- Whether a token is one of the given keywords. -/
def isOneOf (t : Token) (ks : List Keyword) : Bool := ks.any t.isKeyword

/-- The clause that a token opens. -/
def clause? (t : Token) : Option Clause := t.keyword?.bind Clause.ofKeyword?

/-- Whether a token is a reserved keyword. -/
def isReserved (t : Token) : Bool := (t.keyword?.map Keyword.reserved).getD false

/-- Whether a token can name something. -/
def isIdentifier : Token → Bool
  | word _ | quotedName _ => true
  | _ => false

/-- Whether a token can name a table or an alias without a keyword in front. -/
def isPlainIdentifier (t : Token) : Bool := t.isIdentifier && !t.isReserved

/-- The inner text of a token: of a quoted name what stands between the quotes, else all of it. -/
def inner : Token → List Char
  | quotedName name => name
  | t => t.written

/-- The name that an identifier stands for; letter case does not count. -/
def name (t : Token) : String := String.ofList (Text.lower t.inner)

/-- The upper-case form of the inner text. -/
def upperName (t : Token) : String := String.ofList (Text.upper t.inner)

/-- The change that a token makes to the depth of parentheses. -/
def depthChange : Token → Int
  | lparen => 1
  | rparen => -1
  | _ => 0

end Token

/-- Tokens as they stand in the query, with the given text between them. -/
def writtenWith (between : String) (ts : List Token) : String :=
  between.intercalate (ts.map Token.writtenText)

end Sql
end QueryGate
