import HoonReader.Proofs.Piece

/-!
# Which texts are read as a gap

The reader of a gap takes the longest pieces it can, while a gap as a text may be cut into pieces
in many ways: four blanks are one piece or two. The two views meet in `ArePieces.split`, which
takes all leading blanks of a text at once, as the reader does.

* `gap_sound`: what is read as a gap is a gap;
* `gap_complete`: a gap is read to its end if something solid stands behind it, that is, a byte
  that can neither go on with the gap nor spoil it;
* `gap_completable`: where reading a gap fails, a newline makes a gap of what was passed.
-/

namespace HoonReader

/-! ## 1. Texts made of pieces -/

theorem IsPiece.arePieces {piece : Bytes} (h : IsPiece piece) : ArePieces piece := by
  have hone := ArePieces.cons h .nil
  rwa [List.append_nil] at hone

theorem ArePieces.append {a b : Bytes} (ha : ArePieces a) (hb : ArePieces b) :
    ArePieces (a ++ b) := by
  induction ha with
  | nil => exact hb
  | cons first more ih =>
    rw [List.append_assoc]
    exact .cons first ih

/-- A run of blanks with a newline behind it is a piece, whatever the run weighs. -/
theorem isPiece_newline {run : Bytes} (blank : ∀ b ∈ run, isBlank b = true) :
    IsPiece (run ++ Tag.newline) := by
  refine .blanks ?_ ?_
  · intro b hb
    rcases List.mem_append.1 hb with h | h
    · exact blank b h
    · rw [List.mem_singleton.1 h]
      decide
  · rw [weight_append]
    exact Nat.le_add_left _ _

/-- **A text made of pieces is a run of blanks and then a comment, if anything.** The run is long or
    empty, and what follows it is made of pieces again. -/
theorem ArePieces.split {text : Bytes} (h : ArePieces text) : ∃ run more,
    text = run ++ more ∧ (∀ b ∈ run, isBlank b = true) ∧ (run = [] ∨ longWeight ≤ weight run) ∧
      ArePieces more ∧ (more = [] ∨ ∃ body tail, Byte.newline ∉ body ∧ ArePieces tail ∧
        more = Tag.comment ++ body ++ Tag.newline ++ tail) := by
  induction h with
  | nil => exact ⟨[], [], rfl, by simp, .inl rfl, .nil, .inl rfl⟩
  | @cons piece rest first more ih =>
    cases first with
    | blanks blank long =>
      -- blanks in front of blanks are one longer run
      obtain ⟨run, after, rfl, hblank, -, hafter, hnext⟩ := ih
      refine ⟨piece ++ run, after, (List.append_assoc ..).symm, ?_, .inr ?_, hafter, hnext⟩
      · intro b hb
        exact (List.mem_append.1 hb).elim (blank b) (hblank b)
      · rw [weight_append]
        exact Nat.le_add_right_of_le long
    | @comment body inside =>
      exact ⟨[], _, rfl, by simp, .inl rfl, .cons (.comment inside) more,
        .inr ⟨body, rest, inside, more, rfl⟩⟩

/-! ## 2. One step of the reader -/

theorem gapPieces_ok {input rest : Bytes} (h : gapPiece input = .ok rest) :
    gapPieces input = gapPieces rest := by
  rw [gapPieces]
  split
  · rename_i r hr
    rw [h] at hr
    cases hr
    rfl
  · rename_i e he
    rw [h] at he
    cases he

theorem gapPieces_error {input : Bytes} {f : Failure} (h : gapPiece input = .error f) :
    gapPieces input = if f.committed then .error f else .ok input := by
  rw [gapPieces]
  split
  · rename_i r hr
    rw [h] at hr
    cases hr
  · rename_i e he
    rw [h] at he
    cases he
    rfl

/-- Once its first piece is read, a gap is read like the pieces behind it. -/
theorem gap_eq_gapPieces {input rest : Bytes} (h : gapPiece input = .ok rest) :
    gap input = gapPieces input := by
  rw [gapPieces_ok h]
  simp only [gap, h]

theorem gap_error {input : Bytes} {f : Failure} (h : gapPiece input = .error f) :
    gap input = .error f := by
  simp only [gap, h]

/-- Only too few blanks end a gap without spoiling it. -/
theorem ReadsPiece.of_uncommitted {input : Bytes} {f : Failure} (h : ReadsPiece input (.error f))
    (hc : f.committed = false) : f = .of .whitespace input := by
  cases h with
  | openComment => cases hc
  | tab => cases hc
  | light => rfl

/-! ## 3. What is read is a gap -/

theorem ReadsPiece.isPiece {input rest : Bytes} (h : ReadsPiece input (.ok rest)) :
    ∃ piece, IsPiece piece ∧ input = piece ++ rest := by
  cases h with
  | comment inside text => exact ⟨_, .comment inside, text⟩
  | blanks blank ends tab long text => exact ⟨_, .blanks blank long, text⟩

theorem gapPieces_sound {input rest : Bytes} (h : gapPieces input = .ok rest) :
    ∃ text, ArePieces text ∧ input = text ++ rest := by
  fun_induction gapPieces input with
  | case1 input mid hpiece ih =>
    obtain ⟨text, htext, rfl⟩ := ih h
    obtain ⟨piece, hp, rfl⟩ := (gapPiece_eq_iff.1 hpiece).isPiece
    exact ⟨piece ++ text, .cons hp htext, (List.append_assoc ..).symm⟩
  | case2 input f hpiece hc => cases h
  | case3 input f hpiece hc =>
    cases h
    exact ⟨[], .nil, rfl⟩

/-- **What is read as a gap is a gap.** -/
theorem gap_sound {input rest : Bytes} (h : gap input = .ok rest) :
    ∃ text, IsGap text ∧ input = text ++ rest := by
  cases hpiece : gapPiece input with
  | error f =>
    rw [gap_error hpiece] at h
    cases h
  | ok mid =>
    rw [gap_eq_gapPieces hpiece, gapPieces_ok hpiece] at h
    obtain ⟨text, htext, rfl⟩ := gapPieces_sound h
    obtain ⟨piece, hp, rfl⟩ := (gapPiece_eq_iff.1 hpiece).isPiece
    refine ⟨piece ++ text, ⟨?_, .cons hp htext⟩, (List.append_assoc ..).symm⟩
    exact List.append_ne_nil_of_left_ne_nil hp.ne_nil text

/-! ## 4. A gap is read to its end -/

/-- The byte goes on with a gap, or is the tab that spoils it. -/
def isGapByte (b : UInt8) : Bool :=
  isBlank b || b == Byte.tab || b == Byte.colon

/-- The input begins with a byte that can neither go on with a gap nor spoil it. -/
def Solid (input : Bytes) : Prop :=
  ∃ b rest, input = b :: rest ∧ isGapByte b = false

theorem Solid.append {a : Bytes} (h : Solid a) (b : Bytes) : Solid (a ++ b) := by
  obtain ⟨c, rest, rfl, hc⟩ := h
  exact ⟨c, rest ++ b, rfl, hc⟩

theorem not_gapByte {b : UInt8} (h : isGapByte b = false) :
    isBlank b = false ∧ b ≠ Byte.tab ∧ b ≠ Byte.colon := by
  simpa [isGapByte, and_assoc] using h

theorem Solid.blanksEnd {input : Bytes} (h : Solid input) : BlanksEnd input := by
  obtain ⟨c, rest, rfl, hc⟩ := h
  intro b hb
  cases hb
  exact (not_gapByte hc).1

theorem Solid.no_tab {input : Bytes} (h : Solid input) : input.head? ≠ some Byte.tab := by
  obtain ⟨c, rest, rfl, hc⟩ := h
  intro hb
  cases hb
  exact (not_gapByte hc).2.1 rfl

theorem Solid.no_comment {input : Bytes} (h : Solid input) :
    standsAt Tag.comment input = false := by
  obtain ⟨c, rest, rfl, hc⟩ := h
  exact not_comment_of_ne (not_gapByte hc).2.2 rest

/-- Behind a gap nothing more is taken of what is solid. -/
theorem gapPieces_solid {input : Bytes} (h : Solid input) : gapPieces input = .ok input := by
  have hrun : ∀ b ∈ ([] : Bytes), isBlank b = true := by simp
  have hlight : ReadsPiece input (.error (.of .whitespace input)) :=
    .light hrun h.blanksEnd h.no_tab (by decide) h.no_comment rfl
  rw [gapPieces_error hlight.eq]
  rfl

/-- What a run of blanks meets behind it when pieces and then something solid follow. -/
theorem comment_ends_blanks (text : Bytes) :
    BlanksEnd (Tag.comment ++ text) ∧ (Tag.comment ++ text).head? ≠ some Byte.tab := by
  refine ⟨?_, by simp [Tag.comment, ascii, Byte.tab]⟩
  intro b hb
  have hcolon : b = Byte.colon := by simpa [Tag.comment, ascii, eq_comm] using hb
  rw [hcolon]
  decide

/-- The first piece of a gap is read if something solid stands behind the gap. -/
theorem exists_gapPiece {text rest : Bytes} (h : ArePieces text) (hne : text ≠ [])
    (solid : Solid rest) : ∃ more, ArePieces more ∧ more.length < text.length ∧
      gapPiece (text ++ rest) = .ok (more ++ rest) := by
  obtain ⟨run, more, rfl, blank, hrun, hmore, hnext⟩ := h.split
  rcases hrun with rfl | long
  · rcases hnext with rfl | ⟨body, tail, inside, htail, rfl⟩
    · exact absurd rfl hne
    · refine ⟨tail, htail, by simp [Tag.comment, ascii]; omega, gapPiece_eq_iff.2 ?_⟩
      exact .comment inside (by simp)
  · have hpos := List.length_pos_iff.2 (ne_nil_of_long long)
    refine ⟨more, hmore, by rw [List.length_append]; omega, gapPiece_eq_iff.2 ?_⟩
    rcases hnext with rfl | ⟨body, tail, inside, htail, rfl⟩
    · exact .blanks blank solid.blanksEnd solid.no_tab long (by simp)
    · have hends := comment_ends_blanks (body ++ Tag.newline ++ tail ++ rest)
      have hrest : Tag.comment ++ body ++ Tag.newline ++ tail ++ rest =
          Tag.comment ++ (body ++ Tag.newline ++ tail ++ rest) := by simp
      rw [hrest]
      exact .blanks blank hends.1 hends.2 long (by simp)

theorem gapPieces_complete {text rest : Bytes} (h : ArePieces text) (solid : Solid rest) :
    gapPieces (text ++ rest) = .ok rest := by
  by_cases hne : text = []
  · rw [hne]
    exact gapPieces_solid solid
  · obtain ⟨more, hmore, hlt, hpiece⟩ := exists_gapPiece h hne solid
    rw [gapPieces_ok hpiece]
    exact gapPieces_complete hmore solid
termination_by text.length

/-- **A gap is read to its end if something solid stands behind it.** -/
theorem gap_complete {text rest : Bytes} (h : IsGap text) (solid : Solid rest) :
    gap (text ++ rest) = .ok rest := by
  obtain ⟨more, hmore, -, hpiece⟩ := exists_gapPiece h.2 h.1 solid
  rw [gap_eq_gapPieces hpiece]
  exact gapPieces_complete h.2 solid

/-! ## 5. Where reading a gap fails -/

theorem ReadsPiece.completable {input : Bytes} {f : Failure} (h : ReadsPiece input (.error f)) :
    ∃ run, (∀ b ∈ run, isBlank b = true) ∧ input = run ++ f.place := by
  cases h with
  | openComment inside text => exact ⟨[], by simp, rfl⟩
  | tab blank text => exact ⟨_, blank, text⟩
  | light => exact ⟨[], by simp, rfl⟩

theorem gapPieces_completable {input : Bytes} {f : Failure} (h : gapPieces input = .error f) :
    ∃ text, ArePieces (text ++ Tag.newline) ∧ input = text ++ f.place := by
  fun_induction gapPieces input with
  | case1 input mid hpiece ih =>
    obtain ⟨text, htext, rfl⟩ := ih h
    obtain ⟨piece, hp, rfl⟩ := (gapPiece_eq_iff.1 hpiece).isPiece
    refine ⟨piece ++ text, ?_, (List.append_assoc ..).symm⟩
    rw [List.append_assoc]
    exact .cons hp htext
  | case2 input e hpiece hc =>
    cases h
    obtain ⟨run, hblank, hsplit⟩ := (gapPiece_eq_iff.1 hpiece).completable
    exact ⟨run, (isPiece_newline hblank).arePieces, hsplit⟩
  | case3 input e hpiece hc => cases h

/-- **Where reading a gap fails, a newline makes a gap of what was passed.** -/
theorem gap_completable {input : Bytes} {f : Failure} (h : gap input = .error f) :
    ∃ text, IsGap (text ++ Tag.newline) ∧ input = text ++ f.place := by
  have hne : ∀ text : Bytes, text ++ Tag.newline ≠ [] := by simp [Tag.newline]
  cases hpiece : gapPiece input with
  | ok mid =>
    rw [gap_eq_gapPieces hpiece] at h
    obtain ⟨text, htext, hsplit⟩ := gapPieces_completable h
    exact ⟨text, ⟨hne text, htext⟩, hsplit⟩
  | error e =>
    rw [gap_error hpiece] at h
    cases h
    obtain ⟨run, hblank, hsplit⟩ := (gapPiece_eq_iff.1 hpiece).completable
    exact ⟨run, ⟨hne run, (isPiece_newline hblank).arePieces⟩, hsplit⟩

end HoonReader
