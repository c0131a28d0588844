import HoonReader.Twig.Arguments
import HoonReader.Twig.Noun

/-!
# The wide spelling of a twig

A twig as source text on one line: the application of a rune is its glyph and, in parentheses, its
arguments with single spaces between them; a literal is its text. A cell that applies no rune has
no spelling in a source and is written as a noun is, and so is a rune that is not applied.

A rune must find as many arguments as it takes; that it does not is found before anything is
wrong with one of the arguments.
-/

namespace HoonReader

/-- Why a twig has no wide spelling. -/
inductive WideError where
  /-- A literal has no spelling. -/
  | encode (e : EncodeError)
  /-- A rune has too few arguments. -/
  | unfold (e : UnfoldError)
  deriving DecidableEq, Repr

/-- The text of the error. -/
def WideError.message : WideError → String
  | encode e => e.message
  | unfold e => e.message

namespace Twig

variable {σ : Type}

/-- The application of the rune of a glyph to arguments that are spelled already. -/
def wideApplication (glyph : Glyph) (arguments : Bytes) : Bytes :=
  glyph.bytes ++ Tag.wideOpen ++ arguments ++ Tag.wideClose

/-- The wide spelling of a first argument and `more` further ones that are folded into the twig,
    single spaces between them. -/
def wideArguments : Twig σ → (more : Nat) → Except WideError Bytes
  | cell head tail _, more + 1 => do
    let first ← head.wideArguments 0
    let others ← tail.wideArguments more
    return first ++ Tag.wideSeparator ++ others
  | t, more + 1 => .error (.unfold ⟨more + 2, t.sort⟩)
  | literal odor value _, 0 => (odor.encode value).mapError .encode
  | rune r, 0 => return r.tag
  | cell (rune r) tail _, 0 =>
    match r.glyph? with
    | none => tail.wideArguments 0
    | some glyph => do
      let _ ← (tail.unfold r.arity).mapError .unfold
      let arguments ← tail.wideArguments (r.arity - 1)
      return wideApplication glyph arguments
  | cell head tail _, 0 => do
    let h ← head.wideArguments 0
    let t ← tail.wideArguments 0
    return bracketed h t

/-- The wide spelling of the twig. -/
def wide (t : Twig σ) : Except WideError Bytes :=
  t.wideArguments 0

end Twig

end HoonReader
