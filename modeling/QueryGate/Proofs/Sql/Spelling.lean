import QueryGate.Sql.Token

/-!
# The letters of keywords

The spellings of keywords, letter by letter, so that words can be told apart without taking texts to
pieces.
-/

namespace QueryGate
namespace Sql

namespace Keyword

/-- The letters of the upper-case spelling. -/
def letters : Keyword → List Char
  | select => ['S', 'E', 'L', 'E', 'C', 'T']
  | distinct => ['D', 'I', 'S', 'T', 'I', 'N', 'C', 'T']
  | all => ['A', 'L', 'L']
  | from_ => ['F', 'R', 'O', 'M']
  | where_ => ['W', 'H', 'E', 'R', 'E']
  | group => ['G', 'R', 'O', 'U', 'P']
  | having => ['H', 'A', 'V', 'I', 'N', 'G']
  | order => ['O', 'R', 'D', 'E', 'R']
  | by_ => ['B', 'Y']
  | limit => ['L', 'I', 'M', 'I', 'T']
  | offset => ['O', 'F', 'F', 'S', 'E', 'T']
  | union => ['U', 'N', 'I', 'O', 'N']
  | join => ['J', 'O', 'I', 'N']
  | inner => ['I', 'N', 'N', 'E', 'R']
  | left => ['L', 'E', 'F', 'T']
  | right => ['R', 'I', 'G', 'H', 'T']
  | outer => ['O', 'U', 'T', 'E', 'R']
  | cross => ['C', 'R', 'O', 'S', 'S']
  | natural => ['N', 'A', 'T', 'U', 'R', 'A', 'L']
  | straightJoin => ['S', 'T', 'R', 'A', 'I', 'G', 'H', 'T', '_', 'J', 'O', 'I', 'N']
  | on_ => ['O', 'N']
  | using_ => ['U', 'S', 'I', 'N', 'G']
  | as_ => ['A', 'S']
  | and => ['A', 'N', 'D']
  | or => ['O', 'R']
  | xor => ['X', 'O', 'R']
  | not => ['N', 'O', 'T']
  | window => ['W', 'I', 'N', 'D', 'O', 'W']
  | for_ => ['F', 'O', 'R']
  | into => ['I', 'N', 'T', 'O']
  | lock => ['L', 'O', 'C', 'K']
  | procedure => ['P', 'R', 'O', 'C', 'E', 'D', 'U', 'R', 'E']
  | in_ => ['I', 'N']
  | like => ['L', 'I', 'K', 'E']
  | between => ['B', 'E', 'T', 'W', 'E', 'E', 'N']
  | is_ => ['I', 'S']
  | regexp => ['R', 'E', 'G', 'E', 'X', 'P']
  | rlike => ['R', 'L', 'I', 'K', 'E']
  | sounds => ['S', 'O', 'U', 'N', 'D', 'S']
  | member => ['M', 'E', 'M', 'B', 'E', 'R']

theorem toList_spelling (k : Keyword) : k.spelling.toList = k.letters := by
  cases k <;> rfl

theorem ofWord?_eq (word : List Char) :
    ofWord? word = list.find? fun k => k.letters == word.map Char.toUpper := by
  simp only [ofWord?, toList_spelling]

theorem ofWord?_letters (k : Keyword) : ofWord? k.letters = some k := by
  rw [ofWord?_eq]
  cases k <;> decide

end Keyword

end Sql
end QueryGate
