import QueryGate.Text.Base64
import QueryGate.Text.Utf8
import QueryGate.Yaml.Cursor

/-!
# Malformed configuration texts

Why a text has no value.  A fault tells what was being read, what is wrong, and where; `message`
words it and shows the lines.  A scalar that looks like a number or a date and is none has a fault
without a place.
-/

namespace QueryGate
namespace Yaml

/-- The first thing that a text with the fault is not. -/
inductive Stage where
  | tokens
  | grammar
  | nodes
  | values
  deriving DecidableEq, Repr

/-- What is being read when a fault shows. -/
inductive Activity where
  | nextToken
  | simpleKey
  | directive
  | reference
  | anchor
  | tag
  | tagAddress
  | directiveAddress
  | blockScalar
  | doubleQuoted
  | quoted
  | node
  | blockNode
  | flowNode
  | blockCollection
  | blockMapping
  | flowSequence
  | flowMapping
  | mappingValue
  | orderedMap
  | pairs
  | firstAnchor (name : String)
  | onlyDocument
  deriving DecidableEq, Repr

/-- The words for what is being read. -/
def Activity.text : Activity → String
  | .nextToken => "while scanning for the next token"
  | .simpleKey => "while scanning a simple key"
  | .directive => "while scanning a directive"
  | .reference => "while scanning an alias"
  | .anchor => "while scanning an anchor"
  | .tag => "while scanning a tag"
  | .tagAddress => "while parsing a tag"
  | .directiveAddress => "while parsing a directive"
  | .blockScalar => "while scanning a block scalar"
  | .doubleQuoted => "while scanning a double-quoted scalar"
  | .quoted => "while scanning a quoted scalar"
  | .node => "while parsing a node"
  | .blockNode => "while parsing a block node"
  | .flowNode => "while parsing a flow node"
  | .blockCollection => "while parsing a block collection"
  | .blockMapping => "while parsing a block mapping"
  | .flowSequence => "while parsing a flow sequence"
  | .flowMapping => "while parsing a flow mapping"
  | .mappingValue => "while constructing a mapping"
  | .orderedMap => "while constructing an ordered map"
  | .pairs => "while constructing pairs"
  | .firstAnchor name => "found duplicate anchor " ++ quotedText name ++ "; first occurrence"
  | .onlyDocument => "expected a single document in the stream"

/-- What belongs at a place where another character stands. -/
inductive Expected where
  | nameChar
  | digit
  | digitOrPoint
  | digitOrSpace
  | space
  | exclamation
  | closingAngle
  | address
  | addressEscape
  | commentOrBreak
  | blockIndicators
  | escapeDigits (count : Nat)
  deriving DecidableEq, Repr

/-- The words for what belongs at a place. -/
def Expected.text : Expected → String
  | .nameChar => "alphabetic or numeric character"
  | .digit => "a digit"
  | .digitOrPoint => "a digit or '.'"
  | .digitOrSpace => "a digit or ' '"
  | .space => "' '"
  | .exclamation => "'!'"
  | .closingAngle => "'>'"
  | .address => "URI"
  | .addressEscape => "URI escape sequence of 2 hexadecimal numbers"
  | .commentOrBreak => "a comment or a line break"
  | .blockIndicators => "chomping or indentation indicators"
  | .escapeDigits count => "escape sequence of " ++ toString count ++ " hexadecimal numbers"

/-- What is wrong. -/
inductive Problem where
  | unexpected (expected : Expected) (found : Char)
  | startsNothing (found : Char)
  | noColon
  | listEntryHere
  | mappingKeyHere
  | mappingValueHere
  | zeroIndentation
  | unknownEscape (found : Char)
  | endOfStream
  | documentMarkInside
  | secondVersion
  | otherVersion
  | secondHandle (handle : String)
  | noDocumentStart (found : String)
  | undefinedHandle (handle : String)
  | noContent (found : String)
  | noBlockEnd (found : String)
  | noFlowSequenceEnd (found : String)
  | noFlowMappingEnd (found : String)
  | undefinedReference (name : String)
  | secondAnchor
  | anotherDocument
  | unknownTag (tag : String)
  | unhashableKey
  | notMergeable (found : String)
  | notMergeableItem (found : String)
  | notOfKind (kind found : String)
  | notSequence (found : String)
  | notSingleEntry (found : String)
  | notSingleItem (count : Nat)
  | notOctets (fault : Text.Base64Fault)
  | notText (fault : Text.Utf8Fault)
  deriving DecidableEq, Repr

/-- The words for what is wrong. -/
def Problem.text : Problem → String
  | .unexpected expected found =>
    "expected " ++ expected.text ++ ", but found " ++ quotedText (String.singleton found)
  | .startsNothing found =>
    "found character " ++ quotedText (String.singleton found) ++ " that cannot start any token"
  | .noColon => "could not find expected ':'"
  | .listEntryHere => "sequence entries are not allowed here"
  | .mappingKeyHere => "mapping keys are not allowed here"
  | .mappingValueHere => "mapping values are not allowed here"
  | .zeroIndentation => "expected indentation indicator in the range 1-9, but found 0"
  | .unknownEscape found =>
    "found unknown escape character " ++ quotedText (String.singleton found)
  | .endOfStream => "found unexpected end of stream"
  | .documentMarkInside => "found unexpected document separator"
  | .secondVersion => "found duplicate YAML directive"
  | .otherVersion => "found incompatible YAML document (version 1.* is required)"
  | .secondHandle handle => "duplicate tag handle " ++ quotedText handle
  | .noDocumentStart found =>
    "expected '<document start>', but found " ++ quotedText found
  | .undefinedHandle handle => "found undefined tag handle " ++ quotedText handle
  | .noContent found => "expected the node content, but found " ++ quotedText found
  | .noBlockEnd found => "expected <block end>, but found " ++ quotedText found
  | .noFlowSequenceEnd found => "expected ',' or ']', but got " ++ quotedText found
  | .noFlowMappingEnd found => "expected ',' or '\x7d', but got " ++ quotedText found
  | .undefinedReference name => "found undefined alias " ++ quotedText name
  | .secondAnchor => "second occurrence"
  | .anotherDocument => "but found another document"
  | .unknownTag tag => "could not determine a constructor for the tag " ++ quotedText tag
  | .unhashableKey => "found unhashable key"
  | .notMergeable found =>
    "expected a mapping or list of mappings for merging, but found " ++ found
  | .notMergeableItem found => "expected a mapping for merging, but found " ++ found
  | .notOfKind kind found => "expected a " ++ kind ++ " node, but found " ++ found
  | .notSequence found => "expected a sequence, but found " ++ found
  | .notSingleEntry found => "expected a mapping of length 1, but found " ++ found
  | .notSingleItem count =>
    "expected a single mapping item, but found " ++ toString count ++ " items"
  | .notOctets fault => fault.message
  | .notText fault => fault.message

/-- Why the text of a scalar is no value of its kind. -/
inductive ScalarFault where
  | year (year : Nat)
  | month
  | day
  | hour
  | minute
  | second
  | clockOffset (shown : String)
  | notWhole (base : Nat) (shown : String)
  | longNumeral (digits : Nat)
  | notNumber (shown : String)
  | emptyNumeral
  | largeScale
  | codePoint
  | largeCodePoint
  | otherKind
  deriving DecidableEq, Repr

/-- The message of a scalar fault; one kind has none. -/
def ScalarFault.message : ScalarFault → String
  | .year n => "year " ++ toString n ++ " is out of range"
  | .month => "month must be in 1..12"
  | .day => "day is out of range for month"
  | .hour => "hour must be in 0..23"
  | .minute => "minute must be in 0..59"
  | .second => "second must be in 0..59"
  | .clockOffset shown =>
    "offset must be a timedelta strictly between -timedelta(hours=24) and timedelta(hours=24), not "
      ++ shown ++ "."
  | .notWhole base shown =>
    "invalid literal for int() with base " ++ toString base ++ ": "
      ++ String.ofList (shown.toList.take 200)
  | .longNumeral digits =>
    "Exceeds the limit (4300 digits) for integer string conversion: value has "
      ++ toString digits ++ " digits; use sys.set_int_max_str_digits() to increase the limit"
  | .notNumber shown => "could not convert string to float: " ++ shown
  | .emptyNumeral => "string index out of range"
  | .largeScale => "int too large to convert to float"
  | .codePoint => "chr() arg not in range(0x110000)"
  | .largeCodePoint => "code point too large"
  | .otherKind => ""

/-- Why a text has no value. -/
inductive Fault where
  /-- A character that no text may hold. -/
  | unreadable (found : Char) (index : Nat)
  /-- A problem at a place, with what was being read and, where it helps, since which place. -/
  | misplaced (stage : Stage) (context : Option (Activity × Option Mark)) (problem : Problem)
      (mark : Mark)
  | scalar (fault : ScalarFault)
  deriving DecidableEq, Repr

/-- The message of a fault in a text.  The place where reading started is left out when it is the
place of the problem. -/
def Fault.message (text : List Char) : Fault → String
  | .unreadable found index =>
    "unacceptable character #x" ++ String.ofList (Text.hexDigits 4 found.toNat)
      ++ ": special characters are not allowed\n  in \"<unicode string>\", position "
      ++ toString index
  | .misplaced _ context problem mark =>
    let reading := match context with
      | none => []
      | some (activity, since) =>
        let started := since.toList.filter fun m => m.line != mark.line || m.column != mark.column
        activity.text :: started.map (Mark.shown text)
    "\n".intercalate (reading ++ [problem.text, mark.shown text])
  | .scalar fault => fault.message

end Yaml
end QueryGate
