import HoonReader.Source.Lexical

/-!
# Lexemes

The lexical elements of a source, and how a run of bytes is split behind the one it begins with.
-/

namespace HoonReader

/-- The sorts of lexical elements. -/
inductive Lexeme where
  | blanks
  | comment
  | gap
  | identifier
  | digits
  deriving DecidableEq, Repr

namespace Lexeme

/-- What is moved over, with the offset behind it. -/
def passedAt (s : Source) (skipAt : Nat → Except Report Nat) : Scan Bytes := fun start => do
  let stop ← skipAt start
  return (s.slice start stop, stop)

/-- Reads a lexical element at an offset; of a comment it gives the text. -/
def readAt (s : Source) : Lexeme → Scan Bytes
  | blanks => passedAt s s.blanksAt
  | comment => s.commentAt
  | gap => passedAt s s.gapAt
  | identifier => s.identifierAt
  | digits => s.digitsAt

/-- The element at the start of the bytes and what is left behind it. -/
def split (l : Lexeme) (bytes : Bytes) : Except Report (Bytes × Bytes) := do
  let source : Source := ⟨bytes, Source.givenFile⟩
  let (value, stop) ← l.readAt source 0
  return (value, source.remaining stop)

end Lexeme

end HoonReader
