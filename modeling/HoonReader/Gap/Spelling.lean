import HoonReader.Gap

/-!
# What a gap looks like

A gap as a set of texts, said without the reader: one or more pieces, each a run of blanks of at
least the long weight, or a comment.
-/

namespace HoonReader

/-- A text that is one piece of a gap. -/
inductive IsPiece : Bytes → Prop where
  | blanks {run : Bytes} (blank : ∀ b ∈ run, isBlank b) (long : longWeight ≤ weight run) :
      IsPiece run
  | comment {body : Bytes} (inside : Byte.newline ∉ body) :
      IsPiece (Tag.comment ++ body ++ Tag.newline)

/-- A text that is made of pieces of a gap, or empty. -/
inductive ArePieces : Bytes → Prop where
  | nil : ArePieces []
  | cons {piece rest : Bytes} (first : IsPiece piece) (more : ArePieces rest) :
      ArePieces (piece ++ rest)

/-- A text that is a gap. -/
def IsGap (text : Bytes) : Prop :=
  text ≠ [] ∧ ArePieces text

theorem IsPiece.ne_nil {piece : Bytes} (h : IsPiece piece) : piece ≠ [] := by
  cases h with
  | blanks _ long =>
    rintro rfl
    exact absurd long (by decide)
  | comment _ => simp [Tag.comment, ascii]

/-- **One piece is a gap.** -/
theorem IsPiece.isGap {piece : Bytes} (h : IsPiece piece) : IsGap piece :=
  ⟨h.ne_nil, by simpa using ArePieces.cons h .nil⟩

end HoonReader
