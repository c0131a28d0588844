import HoonReader.Cause
import HoonReader.Text.Shortened
import HoonReader.Text.Quoted

/-!
# The wording of failures

The message, the help and the suggestions for every cause.
-/

namespace HoonReader

/-! ## 1. Tags and glyphs -/

/-- A tag in words; a tag without a name of its own is quoted. -/
def Tag.description (tag : Bytes) : String :=
  if tag = Tag.comment then "comment marker '::'"
  else if tag = Tag.wideOpen then "opening parenthesis '('"
  else if tag = Tag.wideClose then "closing parenthesis ')'"
  else if tag = Tag.wideSeparator then "single space separator"
  else if tag = Tag.tallEnd then "end-of-form marker '=='"
  else if tag = Tag.wingDot then "wing separator '.'"
  else if tag = Tag.newline then "newline"
  else Text.quoted tag.text

/-- The glyphs that share a character with the first byte of what was found. -/
def glyphsSharing (found : Bytes) (glyphs : List String) : List String :=
  match found with
  | [] => []
  | b :: _ => glyphs.filter fun glyph => glyph.toList.contains (Char.ofNat b.toNat)

namespace Cause

/-! ## 2. Messages -/

/-- The number of characters of a literal that a message quotes. -/
def quotedLength : Int := 40

/-- What is wrong, in one line. -/
def message : Cause → String
  | whitespace => "Expected whitespace"
  | tab => "Tab characters are not allowed as whitespace"
  | letter => "Expected an identifier starting with a letter"
  | digit => "Expected a decimal digit"
  | openComment => "Unterminated comment"
  | lexicalTag tag | literal tag => "Expected " ++ Tag.description tag
  | glyph g => "Expected rune '" ++ g.text ++ "'"
  | expression _ => "Expected an expression"
  | tooDeep limit => "Expression nested deeper than " ++ toString limit ++ " levels"
  | stackExhausted limit =>
    "Expression nesting exceeds the interpreter's recursion limit before reaching max_depth=" ++
      toString limit
  | invalidLiteral odor text _ =>
    "Invalid @" ++ odor ++ " literal: " ++
      Text.quoted (Text.shortened text.text quotedLength)

/-! ## 3. Help -/

/-- What the grammar asks for at the place of the failure. -/
def help? : Cause → Option String
  | whitespace =>
    some "Separators between elements must be at least two spaces or a newline."
  | tab => some "Physical tabs are banned; indent with spaces."
  | letter =>
    some "Identifiers start with an ASCII letter, followed by letters, digits or '-'."
  | openComment => some "A comment runs through the next newline, but none was found."
  | literal tag =>
    some ("The parser expected to see " ++ Tag.description tag ++ " at this position.")
  | expression _ => some "An expression starts with a rune glyph or a decimal literal."
  | tooDeep _ => some "Raise ParserConfig.max_depth to accept deeper nesting."
  | stackExhausted _ =>
    some "Lower ParserConfig.max_depth or raise sys.setrecursionlimit()."
  | invalidLiteral _ _ reason => some (Text.shortened reason (2 * quotedLength))
  | digit | lexicalTag _ | glyph _ => none

/-- What may be changed; of the glyphs that may have been meant, the first three. -/
def suggestions? : Cause → Option (List String)
  | whitespace => some ["Use two spaces instead of one", "Start a new line"]
  | tab => some ["Replace the tab with spaces"]
  | openComment => some ["End the comment with a newline"]
  | literal tag =>
    if tag = Tag.wideClose then
      some ["Add a closing parenthesis ')'", "Check the rune's argument count"]
    else if tag = Tag.wideSeparator then
      some ["Separate wide-form arguments with exactly one space"]
    else if tag = Tag.tallEnd then some ["End the tall form with '==' on its own line"]
    else none
  | expression candidates =>
    some ((candidates.take 3).map fun text => "Did you mean '" ++ text ++ "'?")
  | letter | digit | lexicalTag _ | glyph _ | tooDeep _ | stackExhausted _
  | invalidLiteral .. => none

end Cause

end HoonReader
