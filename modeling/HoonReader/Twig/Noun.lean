import HoonReader.Twig

/-!
# The noun rendering

A twig as a bracketed noun: a cell is its two parts in brackets with a space between them, a rune
its name behind a percent sign, a literal its odor and its text.
-/

namespace HoonReader.Twig

variable {σ : Type}

/-- The parts of a cell in brackets. -/
def bracketed (head tail : Bytes) : Bytes :=
  ascii ['['] ++ head ++ [Byte.space] ++ tail ++ ascii [']']

/-- The twig as a noun; fails if a literal has no spelling. -/
def noun : Twig σ → Except EncodeError Bytes
  | literal odor value _ => do
    let text ← odor.encode value
    return odor.tag ++ [Byte.space] ++ text
  | cell head tail _ => do
    let h ← head.noun
    let t ← tail.noun
    return bracketed h t
  | rune r => return r.tag

end HoonReader.Twig
