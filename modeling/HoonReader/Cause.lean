import HoonReader.Bytes

/-!
# Why reading fails

Every failure has a cause. A cause belongs to a kind and has a code, and it is lexical (blanks,
comments, names, digits), structural (what an expression is made of) or one of literals. Some
causes are fatal: no other alternative may be tried after them. The texts that describe a cause
are in `HoonReader.Cause.Wording`.
-/

namespace HoonReader

/-! ## 1. Kinds and codes -/

/-- The kinds of failure. -/
inductive Kind where
  | whitespaceExpected
  | letterExpected
  | digitExpected
  | literalExpected
  | expressionExpected
  | invalidLiteral
  | nestingTooDeep
  deriving DecidableEq, Repr

namespace Kind

/-- The name of the kind. -/
def name : Kind → String
  | whitespaceExpected => "WHITESPACE_EXPECTED"
  | letterExpected => "ALPHA_EXPECTED"
  | digitExpected => "DIGIT_EXPECTED"
  | literalExpected => "LITERAL_EXPECTED"
  | expressionExpected => "EXPRESSION_EXPECTED"
  | invalidLiteral => "INVALID_LITERAL"
  | nestingTooDeep => "NESTING_TOO_DEEP"

/-- The kind in words. -/
def text : Kind → String
  | whitespaceExpected => "whitespace expected"
  | letterExpected => "alphabetic character expected"
  | digitExpected => "digit expected"
  | literalExpected => "literal expected"
  | expressionExpected => "expression expected"
  | invalidLiteral => "invalid literal"
  | nestingTooDeep => "nesting too deep"

end Kind

/-- The part of the grammar that a failure belongs to. -/
inductive Sphere where
  /-- Blanks, comments, names and digits. -/
  | lexical
  /-- What an expression is made of. -/
  | structural
  /-- The text of a literal. -/
  | literal
  deriving DecidableEq, Repr

/-- The codes of failures. -/
inductive Code where
  | whitespace
  | tab
  | letter
  | digit
  | openComment
  | lexicalTag
  | literal
  | glyph
  | expression
  | nesting
  | invalidLiteral
  deriving DecidableEq, Repr

namespace Code

/-- The code as it is printed. -/
def text : Code → String
  | whitespace => "L001"
  | tab => "L002"
  | letter => "L003"
  | digit => "L004"
  | openComment => "L005"
  | lexicalTag => "L006"
  | literal => "P001"
  | glyph => "P002"
  | expression => "P003"
  | nesting => "P004"
  | invalidLiteral => "P005"

end Code

/-! ## 2. Causes -/

/-- Why reading fails. -/
inductive Cause where
  /-- A run of blanks is missing or weighs too little. -/
  | whitespace
  /-- A tab stands in or behind a run of blanks. -/
  | tab
  /-- No letter begins a name. -/
  | letter
  /-- No digit begins a run of digits. -/
  | digit
  /-- A comment is not closed by a newline. -/
  | openComment
  /-- A tag that opens something lexical is missing. -/
  | lexicalTag (tag : Bytes)
  /-- A parenthesis, separator or end marker is missing. -/
  | literal (tag : Bytes)
  /-- The glyph of a rune is missing. -/
  | glyph (glyph : Bytes)
  /-- No expression begins here; the glyphs are those that may have been meant. -/
  | expression (candidates : List String)
  /-- Applications are nested deeper than the limit allows. -/
  | tooDeep (limit : Int)
  /-- Applications are nested deeper than the stack holds, though the limit allows it. -/
  | stackExhausted (limit : Int)
  /-- The text is not one of the odor. -/
  | invalidLiteral (odor : String) (text : Bytes) (reason : String)
  deriving DecidableEq, Repr

namespace Cause

/-- The code of the cause. -/
def code : Cause → Code
  | whitespace => .whitespace
  | tab => .tab
  | letter => .letter
  | digit => .digit
  | openComment => .openComment
  | lexicalTag _ => .lexicalTag
  | literal _ => .literal
  | glyph _ => .glyph
  | expression _ => .expression
  | tooDeep _ | stackExhausted _ => .nesting
  | invalidLiteral .. => .invalidLiteral

/-- The kind of the cause. -/
def kind : Cause → Kind
  | whitespace | tab => .whitespaceExpected
  | letter => .letterExpected
  | digit => .digitExpected
  | openComment | lexicalTag _ | literal _ | glyph _ => .literalExpected
  | expression _ => .expressionExpected
  | tooDeep _ | stackExhausted _ => .nestingTooDeep
  | invalidLiteral .. => .invalidLiteral

/-- The part of the grammar that the cause belongs to. -/
def sphere : Cause → Sphere
  | whitespace | tab | letter | digit | openComment | lexicalTag _ => .lexical
  | literal _ | glyph _ | expression _ | tooDeep _ | stackExhausted _ => .structural
  | invalidLiteral .. => .literal

/-- No other alternative may be tried after the cause, wherever it arises. -/
def fatal : Cause → Bool
  | tab | tooDeep _ | stackExhausted _ | invalidLiteral .. => true
  | _ => false

/-- The bytes that should have stood at the place of the failure. -/
def expected? : Cause → Option Bytes
  | openComment => some Tag.newline
  | lexicalTag tag | literal tag | glyph tag => some tag
  | _ => none

end Cause

end HoonReader
