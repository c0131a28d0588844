import HoonReader.Wing

/-!
# What a wing looks like

Names and wings as texts, said without the reader.
-/

namespace HoonReader

/-- A text that is a name: a letter, then letters, digits and hyphens. -/
def IsName (text : Bytes) : Prop :=
  letterStands text = true ∧ ∀ b ∈ text, isNameByte b

/-- The text of a wing: its names joined by single dots. -/
def wingText (names : List Bytes) : Bytes :=
  Tag.wingDot.intercalate names

end HoonReader
