import HoonReader.Failure

/-!
# Blanks, comments and gaps

The elements of a tall form are separated by gaps. A gap is one or more pieces, each a run of
blanks of at least the long weight or a comment, which runs from two colons through the next
newline.

* `blanks` takes the whole run of blanks; a tab right behind it is a committed failure at the
  tab, whatever the run weighs;
* `comment` gives the text between the colons and the newline;
* `gap` takes pieces as long as there are any; it fails as its first piece does, or with a
  committed failure of a later one.

Main statement: `gapPiece_length`, every piece takes input, so a gap ends.
-/

namespace HoonReader

/-! ## 1. Pieces -/

/-- Moves behind a run of blanks that weighs enough to separate. -/
def blanks : Skipper := fun input =>
  let rest := input.dropWhile isBlank
  if rest.head? = some Byte.tab then .error (.of .tab rest)
  else if weight (input.takeWhile isBlank) < longWeight then .error (.of .whitespace input)
  else .ok rest

/-- A byte of the text of a comment. -/
def isCommentByte (b : UInt8) : Bool :=
  b != Byte.newline

/-- Reads a comment and gives its text, without the colons and the newline. -/
def comment : Reader Bytes := fun input =>
  match after? Tag.comment input with
  | none => .error (.of (.lexicalTag Tag.comment) input)
  | some body =>
    match body.dropWhile isCommentByte with
    | [] => .error (Failure.of .openComment input).commit
    | _ :: rest => .ok (body.takeWhile isCommentByte, rest)

/-- Moves behind one piece of a gap. -/
def gapPiece : Skipper := fun input =>
  if standsAt Tag.comment input then (comment input).map Prod.snd else blanks input

/-! ## 2. Pieces take input -/

theorem blanks_eq_ok_iff {input rest : Bytes} :
    blanks input = .ok rest ↔
      rest = input.dropWhile isBlank ∧ rest.head? ≠ some Byte.tab ∧
        longWeight ≤ weight (input.takeWhile isBlank) := by
  simp only [blanks]
  split
  · rename_i ht
    simp only [reduceCtorEq, false_iff]
    rintro ⟨rfl, h, -⟩
    exact h ht
  · rename_i ht
    split
    · rename_i hw
      simp only [reduceCtorEq, false_iff]
      rintro ⟨-, -, h⟩
      omega
    · rename_i hw
      rw [Except.ok.injEq, eq_comm]
      exact ⟨fun h => ⟨h, h ▸ ht, by omega⟩, fun h => h.1⟩

/-- **A run of blanks that separates is not empty.** -/
theorem blanks_length {input rest : Bytes} (h : blanks input = .ok rest) :
    rest.length < input.length := by
  obtain ⟨rfl, -, hw⟩ := blanks_eq_ok_iff.1 h
  have hsplit := congrArg List.length (List.takeWhile_append_dropWhile (p := isBlank) (l := input))
  rw [List.length_append] at hsplit
  have hne : input.takeWhile isBlank ≠ [] := by
    intro he
    rw [he] at hw
    exact absurd hw (by decide)
  have := List.length_pos_iff.2 hne
  omega

/-- **A comment is not empty.** -/
theorem comment_length {input body rest : Bytes} (h : comment input = .ok (body, rest)) :
    rest.length < input.length := by
  unfold comment at h
  split at h
  · cases h
  · rename_i text ht
    split at h
    · cases h
    · rename_i b r hr
      cases h
      have hle : (text.dropWhile isCommentByte).length ≤ text.length :=
        (List.dropWhile_sublist isCommentByte).length_le
      rw [hr, List.length_cons] at hle
      have := after?_length ht
      omega

/-- **Every piece of a gap takes input.** -/
theorem gapPiece_length {input rest : Bytes} (h : gapPiece input = .ok rest) :
    rest.length < input.length := by
  unfold gapPiece at h
  split at h
  · cases hc : comment input with
    | error e => rw [hc] at h; cases h
    | ok p =>
      rw [hc] at h
      cases h
      exact comment_length hc
  · exact blanks_length h

/-! ## 3. Gaps -/

/-- Moves behind all further pieces; that there is none is no failure. -/
def gapPieces (input : Bytes) : Except Failure Bytes :=
  match _h : gapPiece input with
  | .ok rest => gapPieces rest
  | .error e => if e.committed then .error e else .ok input
termination_by input.length
decreasing_by exact gapPiece_length _h

/-- Moves behind a gap. -/
def gap : Skipper := fun input =>
  match gapPiece input with
  | .ok rest => gapPieces rest
  | .error e => .error e

end HoonReader
