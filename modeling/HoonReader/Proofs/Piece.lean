import Mathlib.Data.List.TakeWhile
import HoonReader.Gap.Spelling

/-!
# What one piece of a gap can do

A piece of a gap is read in one of five ways, and the text decides which: a comment that is closed,
a comment that is not, a run of blanks with a tab behind it, one that weighs too little, one that
weighs enough. `ReadsPiece` lists the five ways with the texts they take; everything that is shown
about gaps is shown by going through them.

* `gapPiece_eq_iff`: the reader of a piece does what the list says, and nothing else.
-/

namespace HoonReader

/-! ## 1. The boundary of a run -/

/-- The input does not go on with a blank. -/
def BlanksEnd (input : Bytes) : Prop :=
  ∀ b ∈ input.head?, isBlank b = false

/-- Every input is a run of blanks and what ends it. -/
theorem exists_blanks (input : Bytes) : ∃ run rest, input = run ++ rest ∧
    (∀ b ∈ run, isBlank b = true) ∧ BlanksEnd rest :=
  ⟨_, _, splits_run isBlank input⟩

theorem takeWhile_blanks {run rest : Bytes} (blank : ∀ b ∈ run, isBlank b = true)
    (ends : BlanksEnd rest) : (run ++ rest).takeWhile isBlank = run :=
  takeWhile_run blank ends

theorem dropWhile_blanks {run rest : Bytes} (blank : ∀ b ∈ run, isBlank b = true)
    (ends : BlanksEnd rest) : (run ++ rest).dropWhile isBlank = rest :=
  dropWhile_run blank ends

theorem blanksEnd_tab (rest : Bytes) : BlanksEnd (Byte.tab :: rest) := by
  intro b hb
  cases hb
  rfl

theorem ne_nil_of_long {run : Bytes} (long : longWeight ≤ weight run) : run ≠ [] := by
  intro hnil
  rw [hnil] at long
  exact absurd long (by decide)

/-- The byte of which two open a comment. -/
abbrev Byte.colon : UInt8 := 0x3a

theorem not_comment_of_ne {b : UInt8} (h : b ≠ Byte.colon) (rest : Bytes) :
    standsAt Tag.comment (b :: rest) = false := by
  have hb : ¬ Byte.colon = b := fun e => h e.symm
  simp [standsAt, Tag.comment, ascii, after?, hb]

/-- No comment begins where a blank stands. -/
theorem not_comment_of_blank {b : UInt8} (h : isBlank b = true) (rest : Bytes) :
    standsAt Tag.comment (b :: rest) = false := by
  refine not_comment_of_ne ?_ rest
  intro e
  rw [e] at h
  exact absurd h (by decide)

/-- Blanks in front of it make no comment of what is none. -/
theorem not_comment_of_blanks {run rest : Bytes} (blank : ∀ b ∈ run, isBlank b = true)
    (h : standsAt Tag.comment rest = false) : standsAt Tag.comment (run ++ rest) = false := by
  cases run with
  | nil => exact h
  | cons b run => exact not_comment_of_blank (blank b List.mem_cons_self) _

/-- No comment begins at a tab, blanks in front of it or not. -/
theorem not_comment_of_tab {run : Bytes} (blank : ∀ b ∈ run, isBlank b = true) (rest : Bytes) :
    standsAt Tag.comment (run ++ Byte.tab :: rest) = false :=
  not_comment_of_blanks blank (not_comment_of_ne (by decide) rest)

/-! ## 2. Blanks and comments as equations -/

section Blanks

variable {run rest : Bytes} (blank : ∀ b ∈ run, isBlank b = true)

include blank

theorem blanks_long (ends : BlanksEnd rest) (tab : rest.head? ≠ some Byte.tab)
    (long : longWeight ≤ weight run) : blanks (run ++ rest) = .ok rest := by
  have htake := takeWhile_blanks blank ends
  have hdrop := dropWhile_blanks blank ends
  exact blanks_eq_ok_iff.2 ⟨hdrop.symm, tab, by rw [htake]; exact long⟩

theorem blanks_tab : blanks (run ++ Byte.tab :: rest) = .error (.of .tab (Byte.tab :: rest)) := by
  have hdrop := dropWhile_blanks blank (blanksEnd_tab rest)
  simp [blanks, hdrop]

theorem blanks_light (ends : BlanksEnd rest) (tab : rest.head? ≠ some Byte.tab)
    (light : weight run < longWeight) :
    blanks (run ++ rest) = .error (.of .whitespace (run ++ rest)) := by
  have htake := takeWhile_blanks blank ends
  have hdrop := dropWhile_blanks blank ends
  simp only [blanks, htake, hdrop]
  rw [if_neg tab, if_pos light]

end Blanks

theorem commentBytes {body : Bytes} (inside : Byte.newline ∉ body) :
    ∀ b ∈ body, isCommentByte b = true := by
  intro b hb
  have hne : b ≠ Byte.newline := fun e => inside (e ▸ hb)
  simpa [isCommentByte] using hne

/-- A comment that is closed is read with its text. -/
theorem comment_closed {body : Bytes} (inside : Byte.newline ∉ body) (rest : Bytes) :
    comment (Tag.comment ++ body ++ Tag.newline ++ rest) = .ok (body, rest) := by
  have hbytes := commentBytes inside
  have hdrop : (body ++ Byte.newline :: rest).dropWhile isCommentByte = Byte.newline :: rest := by
    rw [List.dropWhile_append_of_pos hbytes]
    rfl
  have htake : (body ++ Byte.newline :: rest).takeWhile isCommentByte = body := by
    rw [List.takeWhile_append_of_pos hbytes]
    simp [isCommentByte]
  have hafter : after? Tag.comment (Tag.comment ++ body ++ Tag.newline ++ rest) =
      some (body ++ Byte.newline :: rest) := by
    rw [after?_eq_some_iff]
    simp [Tag.newline]
  simp only [comment, hafter, hdrop, htake]

/-- A comment that is not closed is a committed failure where it begins. -/
theorem comment_open {body : Bytes} (inside : Byte.newline ∉ body) :
    comment (Tag.comment ++ body) =
      .error (Failure.of .openComment (Tag.comment ++ body)).commit := by
  have hdrop : body.dropWhile isCommentByte = [] :=
    List.dropWhile_eq_nil_iff.2 (commentBytes inside)
  simp only [comment, after?_append, hdrop]

/-! ## 3. The five ways -/

/-- What reading one piece of a gap gives, by the text that stands there. -/
inductive ReadsPiece (input : Bytes) : Except Failure Bytes → Prop where
  /-- A comment and its newline. -/
  | comment {body rest : Bytes} (inside : Byte.newline ∉ body)
      (text : input = Tag.comment ++ body ++ Tag.newline ++ rest) : ReadsPiece input (.ok rest)
  /-- A comment without a newline. -/
  | openComment {body : Bytes} (inside : Byte.newline ∉ body)
      (text : input = Tag.comment ++ body) :
      ReadsPiece input (.error (Failure.of .openComment input).commit)
  /-- Enough blanks. -/
  | blanks {run rest : Bytes} (blank : ∀ b ∈ run, isBlank b = true) (ends : BlanksEnd rest)
      (tab : rest.head? ≠ some Byte.tab) (long : longWeight ≤ weight run)
      (text : input = run ++ rest) : ReadsPiece input (.ok rest)
  /-- Blanks with a tab behind them, whatever they weigh. -/
  | tab {run rest : Bytes} (blank : ∀ b ∈ run, isBlank b = true)
      (text : input = run ++ Byte.tab :: rest) :
      ReadsPiece input (.error (.of .tab (Byte.tab :: rest)))
  /-- Too few blanks. -/
  | light {run rest : Bytes} (blank : ∀ b ∈ run, isBlank b = true) (ends : BlanksEnd rest)
      (tab : rest.head? ≠ some Byte.tab) (light : weight run < longWeight)
      (noComment : standsAt Tag.comment input = false) (text : input = run ++ rest) :
      ReadsPiece input (.error (.of .whitespace input))

theorem gapPiece_of_comment {input : Bytes} (h : standsAt Tag.comment input = true) :
    gapPiece input = (comment input).map Prod.snd := by
  unfold gapPiece
  rw [if_pos h]

theorem gapPiece_of_blanks {input : Bytes} (h : standsAt Tag.comment input = false) :
    gapPiece input = blanks input := by
  unfold gapPiece
  rw [if_neg (by simp [h])]

theorem ReadsPiece.eq {input : Bytes} {out : Except Failure Bytes} (h : ReadsPiece input out) :
    gapPiece input = out := by
  cases h with
  | @comment body rest inside text =>
    have hc : standsAt Tag.comment input = true :=
      standsAt_iff.2 ⟨body ++ Tag.newline ++ rest, by rw [text]; simp⟩
    rw [gapPiece_of_comment hc, text, comment_closed inside]
    rfl
  | @openComment body inside text =>
    have hc : standsAt Tag.comment input = true := standsAt_iff.2 ⟨body, text⟩
    rw [gapPiece_of_comment hc, text, comment_open inside]
    rfl
  | @blanks run rest blank ends tab long text =>
    have hc : standsAt Tag.comment input = false := by
      cases run with
      | nil => exact absurd rfl (ne_nil_of_long long)
      | cons b run =>
        rw [text]
        exact not_comment_of_blank (blank b List.mem_cons_self) _
    rw [gapPiece_of_blanks hc, text]
    exact blanks_long blank ends tab long
  | @tab run rest blank text =>
    have hc : standsAt Tag.comment input = false := by
      rw [text]
      exact not_comment_of_tab blank rest
    rw [gapPiece_of_blanks hc, text]
    exact blanks_tab blank
  | light blank ends tab light noComment text =>
    rw [gapPiece_of_blanks noComment, text]
    exact blanks_light blank ends tab light

/-- Every input is read in one of the five ways. -/
theorem exists_readsPiece (input : Bytes) : ∃ out, ReadsPiece input out := by
  rcases standsAt_cases Tag.comment input with ⟨body, hbody⟩ | hnone
  · by_cases hn : Byte.newline ∈ body
    · obtain ⟨before, behind, hsplit, hbefore⟩ := List.eq_append_cons_of_mem hn
      have htext : input = Tag.comment ++ before ++ Tag.newline ++ behind := by
        rw [hbody, hsplit]
        simp [Tag.newline]
      exact ⟨_, .comment hbefore htext⟩
    · exact ⟨_, .openComment hn hbody⟩
  · obtain ⟨run, rest, htext, hblank, hends⟩ := exists_blanks input
    by_cases ht : rest.head? = some Byte.tab
    · cases rest with
      | nil => cases ht
      | cons b rest =>
        cases ht
        exact ⟨_, .tab hblank htext⟩
    · by_cases hw : weight run < longWeight
      · exact ⟨_, .light hblank hends ht hw hnone htext⟩
      · exact ⟨_, .blanks hblank hends ht (by omega) htext⟩

/-- **One piece of a gap is read as the list of the five ways says.** -/
theorem gapPiece_eq_iff {input : Bytes} {out : Except Failure Bytes} :
    gapPiece input = out ↔ ReadsPiece input out := by
  constructor
  · intro h
    obtain ⟨out', h'⟩ := exists_readsPiece input
    rw [← h, h'.eq]
    exact h'
  · exact ReadsPiece.eq

end HoonReader
