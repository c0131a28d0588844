import HoonReader.Gap
import HoonReader.Source
import HoonReader.Wing

/-!
# Lexical elements at an offset

Blanks, comments, gaps, names, digits and wings, read at an offset of a source. What is read is
looked at where it stands: nothing is cut off in front of it, and every offset is one of the source.

* `gapPieceAt_stop`: a piece of a gap ends behind the offset where it begins, inside of the source,
  so a gap ends;
* `identifierAt_stop`: so does a name, and with it a wing.

That this is what the readers of `HoonReader.Gap` and `HoonReader.Wing` make of what is left is
shown in `HoonReader.Proofs.Offsets`.
-/

namespace HoonReader

/-- A reader that goes from offset to offset. -/
abbrev Scan (α : Type) := Nat → Except Report (α × Nat)

namespace Source

variable (s : Source)

/-! ## 1. Tags -/

/-- Moves behind a tag that must stand here. -/
def expectAt (tag : Bytes) (offset : Nat) : Except Report Nat :=
  if s.hasTagAt tag offset then .ok (offset + tag.length)
  else .error (s.failedAt (.literal tag) offset)

/-! ## 2. Pieces of gaps -/

/-- Where the run of blanks that goes on at an offset ends, and what it weighs, where the blanks in
    front of the offset weigh `passed`. A tab is a failure. -/
def blanksFrom (offset passed : Nat) : Except Report (Nat × Nat) :=
  if h : offset < s.bytes.length then
    let b := s.bytes[offset]
    if b = Byte.tab then .error (s.failedAt .tab offset)
    else if isBlank b then blanksFrom (offset + 1) (passed + blankWeight b)
    else .ok (offset, passed)
  else .ok (offset, passed)
termination_by s.bytes.length - offset

/-- Moves behind a run of blanks that weighs enough to separate. -/
def blanksAt (start : Nat) : Except Report Nat := do
  let (stop, weight) ← s.blanksFrom start 0
  if weight < longWeight then .error (s.failedAt .whitespace start) else .ok stop

/-- Reads a comment and gives its text, without the colons and the newline. -/
def commentAt : Scan Bytes := fun start =>
  if s.hasTagAt Tag.comment start then
    let body := start + Tag.comment.length
    match s.find? Byte.newline body with
    | none => .error (s.failedAt .openComment start).commit
    | some newline => .ok (s.slice body newline, newline + 1)
  else .error (s.failedAt (.lexicalTag Tag.comment) start)

/-- Moves behind one piece of a gap. -/
def gapPieceAt (start : Nat) : Except Report Nat :=
  if s.hasTagAt Tag.comment start then (s.commentAt start).map Prod.snd else s.blanksAt start

section Progress

variable {s} {start stop : Nat}

theorem find?_bounds {sought : UInt8} (h : s.find? sought start = some stop) :
    start ≤ stop ∧ stop < s.bytes.length := by
  fun_induction find? s sought start with
  | case1 offset inside hb => cases h; exact ⟨Nat.le_refl _, inside⟩
  | case2 offset inside hb ih =>
    obtain ⟨hle, hlt⟩ := ih h
    exact ⟨Nat.le_of_succ_le hle, hlt⟩
  | case3 offset outside => cases h

/-- A run of blanks goes on inside of the source, or it weighs what was passed of it. -/
theorem blanksFrom_bounds {passed weight : Nat}
    (h : s.blanksFrom start passed = .ok (stop, weight)) :
    (stop = start ∧ weight = passed) ∨ (start < stop ∧ stop ≤ s.bytes.length) := by
  fun_induction blanksFrom s start passed with
  | case1 offset passed inside b htab => cases h
  | case2 offset passed inside b htab hblank ih =>
    rcases ih h with ⟨rfl, -⟩ | ⟨hlt, hle⟩
    · exact .inr ⟨Nat.lt_succ_self _, inside⟩
    · exact .inr ⟨Nat.lt_of_succ_lt hlt, hle⟩
  | case3 offset passed inside b htab hblank => cases h; exact .inl ⟨rfl, rfl⟩
  | case4 offset passed outside => cases h; exact .inl ⟨rfl, rfl⟩

theorem blanksAt_stop (h : s.blanksAt start = .ok stop) :
    start < stop ∧ stop ≤ s.bytes.length := by
  unfold blanksAt at h
  cases hrun : s.blanksFrom start 0 with
  | error e => rw [hrun] at h; cases h
  | ok p =>
    obtain ⟨stop', weight⟩ := p
    rw [hrun] at h
    simp only [bind, Except.bind] at h
    split at h
    · cases h
    · rename_i hweight
      cases h
      rcases blanksFrom_bounds hrun with ⟨-, rfl⟩ | hbounds
      · exact absurd (by decide) hweight
      · exact hbounds

theorem commentAt_stop {text : Bytes} (h : s.commentAt start = .ok (text, stop)) :
    start < stop ∧ stop ≤ s.bytes.length := by
  unfold commentAt at h
  split at h
  · simp only at h
    split at h
    · cases h
    · rename_i newline hfound
      cases h
      obtain ⟨hle, hlt⟩ := find?_bounds hfound
      have : Tag.comment.length = 2 := rfl
      omega
  · cases h

/-- **Every piece of a gap takes input**, and ends inside of the source. -/
theorem gapPieceAt_stop (h : s.gapPieceAt start = .ok stop) :
    start < stop ∧ stop ≤ s.bytes.length := by
  unfold gapPieceAt at h
  split at h
  · cases hcomment : s.commentAt start with
    | error e => rw [hcomment] at h; cases h
    | ok p =>
      rw [hcomment] at h
      cases h
      exact commentAt_stop hcomment
  · exact blanksAt_stop h

end Progress

/-! ## 3. Gaps -/

/-- Moves behind all further pieces; that there is none is no failure. -/
def gapPiecesAt (start : Nat) : Except Report Nat :=
  match _h : s.gapPieceAt start with
  | .ok stop => gapPiecesAt stop
  | .error e => if e.committed then .error e else .ok start
termination_by s.bytes.length - start
decreasing_by
  have := gapPieceAt_stop _h
  omega

/-- Moves behind a gap. -/
def gapAt (start : Nat) : Except Report Nat :=
  match s.gapPieceAt start with
  | .ok stop => s.gapPiecesAt stop
  | .error e => .error e

/-! ## 4. Names, digits and wings -/

/-- Reads a name. -/
def identifierAt : Scan Bytes := fun start =>
  if s.hasLetterAt start then
    let stop := s.runEnd isNameByte (start + 1)
    .ok (s.slice start stop, stop)
  else .error (s.failedAt .letter start)

/-- Reads a run of digits. -/
def digitsAt : Scan Bytes := fun start =>
  let stop := s.runEnd isDigit start
  if stop = start then .error (s.failedAt .digit start) else .ok (s.slice start stop, stop)

theorem le_runEnd (p : UInt8 → Bool) (offset : Nat) : offset ≤ s.runEnd p offset := by
  fun_induction runEnd s p offset with
  | case1 offset inside hp ih => exact Nat.le_of_succ_le ih
  | case2 offset inside hp => exact Nat.le_refl _
  | case3 offset outside => exact Nat.le_refl _

theorem hasLetterAt_inside {offset : Nat} (h : s.hasLetterAt offset = true) :
    offset < s.bytes.length := by
  rcases Nat.lt_or_ge offset s.bytes.length with inside | outside
  · exact inside
  · rw [hasLetterAt, byteAt?, List.getElem?_eq_none outside] at h
    cases h

/-- **A name takes input**, and begins inside of the source. -/
theorem identifierAt_stop {start stop : Nat} {name : Bytes}
    (h : s.identifierAt start = .ok (name, stop)) : start < s.bytes.length ∧ start < stop := by
  unfold identifierAt at h
  split at h
  · rename_i hletter
    cases h
    exact ⟨s.hasLetterAt_inside hletter, s.le_runEnd isNameByte (start + 1)⟩
  · cases h

/-- The names that follow, each behind a dot. -/
def namesBehindDotsAt : Scan (List Bytes) := fun start =>
  if s.hasTagAt Tag.wingDot start && s.hasLetterAt (start + Tag.wingDot.length) then
    match _h : s.identifierAt (start + Tag.wingDot.length) with
    | .error e => .error e
    | .ok (name, stop) => do
      let (names, stop) ← namesBehindDotsAt stop
      return (name :: names, stop)
  else .ok ([], start)
termination_by start => s.bytes.length - start
decreasing_by
  have := s.identifierAt_stop _h
  omega

/-- Reads a wing and gives its names. -/
def wingAt : Scan (List Bytes) := fun start => do
  let (first, stop) ← s.identifierAt start
  let (more, stop) ← s.namesBehindDotsAt stop
  return (first :: more, stop)

end Source

end HoonReader
