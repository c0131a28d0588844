import HoonReader.Proofs.Completion
import HoonReader.Proofs.Location
import HoonReader.Proofs.Stack

/-!
# More input behind a settled outcome

A reader looks ahead: for the end of a run of digits or blanks, for the second byte of a glyph or an
end marker, for the newline of a comment. This file shows how far, by putting more input behind what
was read.

* `expression_append_ok`: what was read is read again, with the same extents, unless it is a
  literal that reached the end of the input and now goes on;
* `expression_append_error`: a failure stays the same if its place is settled, that is, if two bytes
  stand there apart from blanks, and if it is not that of a comment which may yet be closed;
* `Document.parse_append`: both, for a document.

A settled place makes every place in front of it settled (`Settled.of_behind`), so it is enough to
look at the last one.
-/

namespace HoonReader

open Twig

variable {behind : Bytes}

/-- The failure with more input behind its place. -/
def Failure.append (f : Failure) (behind : Bytes) : Failure :=
  { f with place := f.place ++ behind }

/-- The extent with more input behind it. -/
def Extent.append (e : Extent) (behind : Bytes) : Extent :=
  ⟨e.start ++ behind, e.stop ++ behind⟩

/-- The twig with more input behind its extents. -/
def Twig.append (t : Twig Extent) (behind : Bytes) : Twig Extent :=
  t.map (·.append behind)

/-- Two bytes stand here, apart from the blanks in front of them. -/
def Settled (input : Bytes) : Prop :=
  2 ≤ (input.dropWhile isBlank).length

/-! ## 1. Settled places -/

theorem Settled.two_le_length {input : Bytes} (h : Settled input) : 2 ≤ input.length := by
  have hle : (input.dropWhile isBlank).length ≤ input.length :=
    (List.dropWhile_sublist isBlank).length_le
  exact Nat.le_trans h hle

theorem Settled.ne_nil {input : Bytes} (h : Settled input) : input ≠ [] := by
  intro hnil
  have := h.two_le_length
  rw [hnil] at this
  exact absurd this (by decide)

/-- Every place in front of a settled one is settled. -/
theorem Settled.of_behind {input text rest : Bytes} (h : Settled rest) (hi : input = text ++ rest) :
    Settled input := by
  rw [hi]
  show 2 ≤ ((text ++ rest).dropWhile isBlank).length
  rw [List.dropWhile_append]
  split
  · exact h
  · rename_i hne
    have := h.two_le_length
    rw [List.length_append]
    omega

theorem Solid.settled {text rest : Bytes} (h : Solid text) (hne : rest ≠ []) :
    Settled (text ++ rest) := by
  obtain ⟨b, tail, rfl, hb⟩ := h
  have hblank := (not_gapByte hb).1
  have hpos := List.length_pos_iff.2 hne
  show 2 ≤ ((b :: tail ++ rest).dropWhile isBlank).length
  rw [List.cons_append, List.dropWhile_cons_of_neg (by simp [hblank]), List.length_cons,
    List.length_append]
  omega

theorem settled_tallEnd (rest : Bytes) : Settled (Tag.tallEnd ++ rest) := by
  have hsolid : Solid [0x3d] := ⟨0x3d, [], rfl, by decide⟩
  exact hsolid.settled (List.cons_ne_nil 0x3d rest)

/-- Whether a tag stands here is settled once as many bytes do. -/
theorem standsAt_append {tag input : Bytes} (h : tag.length ≤ input.length) (behind : Bytes) :
    standsAt tag (input ++ behind) = standsAt tag input := by
  unfold standsAt
  induction tag generalizing input with
  | nil => simp [after?]
  | cons t tag ih =>
    cases input with
    | nil => cases h
    | cons b input =>
      have hlen : tag.length ≤ input.length := by simpa using h
      rw [List.cons_append, after?, after?]
      split
      · exact ih hlen
      · rfl

theorem digitStands_append {input : Bytes} (h : input ≠ []) (behind : Bytes) :
    digitStands (input ++ behind) = digitStands input := by
  cases input with
  | nil => exact absurd rfl h
  | cons b input => rfl

theorem blanksEnd_append {rest : Bytes} (h : BlanksEnd rest) (hne : rest ≠ []) (behind : Bytes) :
    BlanksEnd (rest ++ behind) ∧ (rest ++ behind).head? = rest.head? := by
  cases rest with
  | nil => exact absurd rfl hne
  | cons b rest => exact ⟨h, rfl⟩

/-! ## 2. Gaps -/

theorem gapPiece_append_ok {input rest : Bytes} (h : gapPiece input = .ok rest) (hne : rest ≠ []) :
    gapPiece (input ++ behind) = .ok (rest ++ behind) := by
  refine gapPiece_eq_iff.2 ?_
  cases gapPiece_eq_iff.1 h with
  | @comment body _ inside text => exact .comment inside (by rw [text]; simp)
  | @blanks run _ blank ends tab long text =>
    obtain ⟨hends, hhead⟩ := blanksEnd_append ends hne behind
    exact .blanks blank hends (hhead ▸ tab) long (by rw [text]; simp)

theorem gapPiece_append_error {input : Bytes} {f : Failure} (h : gapPiece input = .error f)
    (closed : f.cause ≠ .openComment) (settled : Settled f.place) :
    gapPiece (input ++ behind) = .error (f.append behind) := by
  refine gapPiece_eq_iff.2 ?_
  cases gapPiece_eq_iff.1 h with
  | openComment inside text => exact absurd rfl closed
  | tab blank text => exact .tab blank (by rw [text]; simp)
  | @light run rest blank ends tab light noComment text =>
    have hplace : Settled input := settled
    -- a run of blanks up to the end of the input would leave nothing that is settled
    have hne : rest ≠ [] := by
      intro hnil
      have hdrop := dropWhile_blanks blank ends
      rw [← text, hnil] at hdrop
      rw [Settled, hdrop] at hplace
      exact absurd hplace (by decide)
    obtain ⟨hends, hhead⟩ := blanksEnd_append ends hne behind
    have hcomment : standsAt Tag.comment (input ++ behind) = false := by
      have hlen : Tag.comment.length ≤ input.length := hplace.two_le_length
      rw [standsAt_append hlen]
      exact noComment
    exact .light blank hends (hhead ▸ tab) light hcomment (by rw [text]; simp)

theorem gapPieces_append_ok {input rest : Bytes} (h : gapPieces input = .ok rest)
    (settled : Settled rest) : gapPieces (input ++ behind) = .ok (rest ++ behind) := by
  fun_induction gapPieces input with
  | case1 input mid hpiece ih =>
    obtain ⟨text, -, hmid⟩ := gapPieces_sound h
    have hne := (settled.of_behind hmid).ne_nil
    rw [gapPieces_ok (gapPiece_append_ok hpiece hne)]
    exact ih h
  | case2 input f hpiece hc => cases h
  | case3 input f hpiece hc =>
    cases h
    have hf := (gapPiece_eq_iff.1 hpiece).of_uncommitted (by simpa using hc)
    rw [hf] at hpiece
    rw [gapPieces_error (gapPiece_append_error hpiece (by simp [Failure.of]) settled)]
    rfl

theorem gapPieces_append_error {input : Bytes} {f : Failure} (h : gapPieces input = .error f)
    (closed : f.cause ≠ .openComment) (settled : Settled f.place) :
    gapPieces (input ++ behind) = .error (f.append behind) := by
  fun_induction gapPieces input with
  | case1 input mid hpiece ih =>
    obtain ⟨text, -, hmid⟩ := gapPieces_completable h
    have hne := (settled.of_behind hmid).ne_nil
    rw [gapPieces_ok (gapPiece_append_ok hpiece hne)]
    exact ih h
  | case2 input e hpiece hc =>
    cases h
    rw [gapPieces_error (gapPiece_append_error hpiece closed settled)]
    exact if_pos hc
  | case3 input e hpiece hc => cases h

/-- **A gap that ends at a settled place ends there whatever follows.** -/
theorem gap_append_ok {input rest : Bytes} (h : gap input = .ok rest) (settled : Settled rest) :
    gap (input ++ behind) = .ok (rest ++ behind) := by
  cases hpiece : gapPiece input with
  | error f =>
    rw [gap_error hpiece] at h
    cases h
  | ok mid =>
    rw [gap_eq_gapPieces hpiece] at h
    have hmid := h
    rw [gapPieces_ok hpiece] at hmid
    obtain ⟨text, -, hsplit⟩ := gapPieces_sound hmid
    have hne := (settled.of_behind hsplit).ne_nil
    rw [gap_eq_gapPieces (gapPiece_append_ok hpiece hne)]
    exact gapPieces_append_ok h settled

/-- **A gap that fails at a settled place fails there whatever follows.** -/
theorem gap_append_error {input : Bytes} {f : Failure} (h : gap input = .error f)
    (closed : f.cause ≠ .openComment) (settled : Settled f.place) :
    gap (input ++ behind) = .error (f.append behind) := by
  cases hpiece : gapPiece input with
  | error e =>
    rw [gap_error hpiece] at h
    cases h
    exact gap_error (gapPiece_append_error hpiece closed settled)
  | ok mid =>
    rw [gap_eq_gapPieces hpiece] at h
    have hmid := h
    rw [gapPieces_ok hpiece] at hmid
    obtain ⟨text, -, hsplit⟩ := gapPieces_completable hmid
    have hne := (settled.of_behind hsplit).ne_nil
    rw [gap_eq_gapPieces (gapPiece_append_ok hpiece hne)]
    exact gapPieces_append_error h closed settled

/-! ## 3. Argument lists -/

/-- More input behind what was read, or behind a settled failure, changes nothing. -/
structure Steady (behind : Bytes) (reader : Reader (Twig Extent)) : Prop where
  ok : ∀ ⦃input rest t⦄, reader input = .ok (t, rest) → rest ≠ [] →
    reader (input ++ behind) = .ok (t.append behind, rest ++ behind)
  error : ∀ ⦃input f⦄, reader input = .error f → f.cause ≠ .openComment → Settled f.place →
    reader (input ++ behind) = .error (f.append behind)

section Arguments

variable {table : Table} {room : Nat} {reader : Reader (Twig Extent)}
  {readers : List (Reader (Twig Extent))} {input rest : Bytes} {f : Failure}

/-- A tag that is missing at a settled place stays missing. -/
theorem missing_append {tag : Bytes} (short : tag.length ≤ 2) (settled : Settled input)
    (h : standsAt tag input = false) : standsAt tag (input ++ behind) = false := by
  have := settled.two_le_length
  rw [standsAt_append (by omega)]
  exact h

theorem wideMore_ne_nil {values : List (Twig Extent)}
    (h : wideMore readers input = .ok (values, rest)) : input ≠ [] := by
  cases readers with
  | nil =>
    obtain ⟨-, rfl⟩ := wideMore_nil_eq_ok_iff.1 h
    exact List.cons_ne_nil _ _
  | cons r readers =>
    obtain ⟨value, more, a, b, rfl, -⟩ := wideMore_cons_eq_ok_iff.1 h
    exact List.cons_ne_nil _ _

theorem wideMore_append_ok (steady : ∀ r ∈ readers, Steady behind r)
    {values : List (Twig Extent)} (h : wideMore readers input = .ok (values, rest)) :
    wideMore readers (input ++ behind) =
      .ok (values.map (·.append behind), rest ++ behind) := by
  induction readers generalizing input values with
  | nil =>
    obtain ⟨rfl, rfl⟩ := wideMore_nil_eq_ok_iff.1 h
    exact wideMore_nil_eq_ok_iff.2 ⟨rfl, List.append_assoc ..⟩
  | cons r readers ih =>
    obtain ⟨hr, hreaders⟩ := List.forall_mem_cons.1 steady
    obtain ⟨value, more, a, b, rfl, hv, hm, rfl⟩ := wideMore_cons_eq_ok_iff.1 h
    refine wideMore_cons_eq_ok_iff.2 ⟨_, _, _, _, List.append_assoc .., ?_, ih hreaders hm, rfl⟩
    exact hr.ok hv (wideMore_ne_nil hm)

theorem wideMore_append_error
    (viable : ∀ r ∈ readers, Viable table room r)
    (steady : ∀ r ∈ readers, Steady behind r) (h : wideMore readers input = .error f)
    (closed : f.cause ≠ .openComment) (settled : Settled f.place) :
    wideMore readers (input ++ behind) = .error (f.append behind) := by
  induction readers generalizing input with
  | nil =>
    obtain ⟨hmissing, rfl⟩ := wideMore_nil_eq_error_iff.1 h
    exact wideMore_nil_eq_error_iff.2 ⟨missing_append (by decide) settled hmissing, rfl⟩
  | cons r readers ih =>
    obtain ⟨hr, hreaders⟩ := List.forall_mem_cons.1 steady
    obtain ⟨-, hviable⟩ := List.forall_mem_cons.1 viable
    refine wideMore_cons_eq_error_iff.2 ?_
    rcases wideMore_cons_eq_error_iff.1 h with ⟨hmissing, rfl⟩ | ⟨a, rfl, he | ⟨value, b, hv, hm⟩⟩
    · exact .inl ⟨missing_append (by decide) settled hmissing, rfl⟩
    · exact .inr ⟨_, List.append_assoc .., .inl (hr.error he closed settled)⟩
    · obtain ⟨passed, -, -, -, -, -, hb⟩ := wideMore_completable hviable hm
      have hne := (settled.of_behind hb).ne_nil
      exact .inr ⟨_, List.append_assoc .., .inr ⟨_, _, hr.ok hv hne, ih hviable hreaders hm⟩⟩

theorem tallMore_settled (sound : ∀ r ∈ readers, Sound table room r)
    {values : List (Twig Extent)} (h : tallMore readers input = .ok (values, rest)) :
    Settled input := by
  cases readers with
  | nil =>
    obtain ⟨-, rfl⟩ := tallMore_nil_eq_ok_iff.1 h
    exact settled_tallEnd rest
  | cons r readers =>
    obtain ⟨value, more, a, b, hv, hg, -⟩ := tallMore_cons_eq_ok_iff.1 h
    obtain ⟨text, hs, rfl, -⟩ := sound r List.mem_cons_self hv
    obtain ⟨between, hgap, rfl⟩ := gap_sound hg
    exact hs.spells.solid.settled (List.append_ne_nil_of_left_ne_nil hgap.1 b)

theorem ne_nil_of_gap (h : gap input = .ok rest) : input ≠ [] := by
  obtain ⟨text, hgap, rfl⟩ := gap_sound h
  exact List.append_ne_nil_of_left_ne_nil hgap.1 rest

theorem tallMore_append_ok (sound : ∀ r ∈ readers, Sound table room r)
    (steady : ∀ r ∈ readers, Steady behind r)
    {values : List (Twig Extent)} (h : tallMore readers input = .ok (values, rest)) :
    tallMore readers (input ++ behind) =
      .ok (values.map (·.append behind), rest ++ behind) := by
  induction readers generalizing input values with
  | nil =>
    obtain ⟨rfl, rfl⟩ := tallMore_nil_eq_ok_iff.1 h
    exact tallMore_nil_eq_ok_iff.2 ⟨rfl, List.append_assoc ..⟩
  | cons r readers ih =>
    obtain ⟨hr, hreaders⟩ := List.forall_mem_cons.1 steady
    obtain ⟨-, hsound⟩ := List.forall_mem_cons.1 sound
    obtain ⟨value, more, a, b, hv, hg, hm, rfl⟩ := tallMore_cons_eq_ok_iff.1 h
    have hgap : gap (a ++ behind) = .ok (b ++ behind) :=
      gap_append_ok hg (tallMore_settled hsound hm)
    exact tallMore_cons_eq_ok_iff.2
      ⟨_, _, _, _, hr.ok hv (ne_nil_of_gap hg), hgap, ih hsound hreaders hm, rfl⟩

theorem tallMore_append_error
    (viable : ∀ r ∈ readers, Viable table room r)
    (steady : ∀ r ∈ readers, Steady behind r) (h : tallMore readers input = .error f)
    (closed : f.cause ≠ .openComment) (settled : Settled f.place) :
    tallMore readers (input ++ behind) = .error (f.append behind) := by
  induction readers generalizing input with
  | nil =>
    obtain ⟨hmissing, rfl⟩ := tallMore_nil_eq_error_iff.1 h
    exact tallMore_nil_eq_error_iff.2 ⟨missing_append (by decide) settled hmissing, rfl⟩
  | cons r readers ih =>
    obtain ⟨hr, hreaders⟩ := List.forall_mem_cons.1 steady
    obtain ⟨-, hviable⟩ := List.forall_mem_cons.1 viable
    refine tallMore_cons_eq_error_iff.2 ?_
    rcases tallMore_cons_eq_error_iff.1 h with he | ⟨value, a, hv, hg | ⟨b, hg, hm⟩⟩
    · exact .inl (hr.error he closed settled)
    · obtain ⟨passed, -, ha⟩ := gap_completable hg
      have hne := (settled.of_behind ha).ne_nil
      exact .inr ⟨_, _, hr.ok hv hne, .inl (gap_append_error hg closed settled)⟩
    · obtain ⟨passed, -, -, -, -, -, hb⟩ := tallMore_completable hviable hm
      have hgap : gap (a ++ behind) = .ok (b ++ behind) :=
        gap_append_ok hg (settled.of_behind hb)
      exact .inr ⟨_, _, hr.ok hv (ne_nil_of_gap hg),
        .inr ⟨_, hgap, ih hviable hreaders hm⟩⟩

section Body

variable {form : Form} (viable : Viable table room reader) (steady : Steady behind reader)

include viable steady

theorem formBody_append_ok {first : Twig Extent} {more : List (Twig Extent)}
    (h : formBody (Grammar.reader reader) form input = .ok ((first, more), rest)) :
    formBody (Grammar.reader reader) form (input ++ behind) =
      .ok ((first.append behind, more.map (·.append behind)), rest ++ behind) := by
  have hsteady := form.forall_moreReaders steady
  have hsound := List.forall_mem_cons.2 ⟨viable.sound, form.forall_moreReaders viable.sound⟩
  rcases formBody_eq_ok_iff.1 h with ⟨a, rfl, hw⟩ | ⟨hnone, a, hg, ht⟩
  · obtain ⟨b, hfirst, hmore⟩ := wideForm_eq_ok_iff.1 hw
    have hfirst' := steady.ok hfirst (wideMore_ne_nil hmore)
    have hmore' := wideMore_append_ok hsteady hmore
    exact formBody_eq_ok_iff.2
      (.inl ⟨_, List.append_assoc .., wideForm_eq_ok_iff.2 ⟨_, hfirst', hmore'⟩⟩)
  · -- the gap was seen to its end, so the parenthesis of the wide form was looked for in vain
    have hsettled := tallMore_settled hsound ht
    obtain ⟨opening, -, hinput⟩ := gap_sound hg
    have hstands : standsAt Tag.wideOpen (input ++ behind) = false :=
      missing_append (by decide) (hsettled.of_behind hinput) hnone
    have hall := tallMore_append_ok hsound (List.forall_mem_cons.2 ⟨steady, hsteady⟩) ht
    exact formBody_eq_ok_iff.2 (.inr ⟨hstands, _, gap_append_ok hg hsettled, hall⟩)

theorem wideForm_append_error
    (h : wideForm reader (form.moreReaders reader) input = .error f)
    (closed : f.cause ≠ .openComment) (settled : Settled f.place) :
    wideForm reader (form.moreReaders reader) (input ++ behind) = .error (f.append behind) := by
  have hviable := form.forall_moreReaders viable
  have hsteady := form.forall_moreReaders steady
  refine wideForm_eq_error_iff.2 ?_
  rcases wideForm_eq_error_iff.1 h with hfirst | ⟨value, a, hfirst, hmore⟩
  · exact .inl (steady.error hfirst closed settled)
  · obtain ⟨passed, -, -, -, -, -, ha⟩ := wideMore_completable hviable hmore
    have hne := (settled.of_behind ha).ne_nil
    exact .inr ⟨_, _, steady.ok hfirst hne,
      wideMore_append_error hviable hsteady hmore closed settled⟩

theorem formBody_append_error (h : formBody (Grammar.reader reader) form input = .error f)
    (closed : f.cause ≠ .openComment) (settled : Settled f.place) :
    formBody (Grammar.reader reader) form (input ++ behind) = .error (f.append behind) := by
  have hviable := List.forall_mem_cons.2 ⟨viable, form.forall_moreReaders viable⟩
  have hsteady := List.forall_mem_cons.2 ⟨steady, form.forall_moreReaders steady⟩
  refine formBody_eq_error_iff.2 ?_
  rcases formBody_eq_error_iff.1 h with ⟨a, rfl, hw⟩ | ⟨hnone, hg | ⟨a, hg, ht⟩⟩
  · exact .inl ⟨_, List.append_assoc .., wideForm_append_error viable steady hw closed settled⟩
  · obtain ⟨passed, -, hinput⟩ := gap_completable hg
    have hstands : standsAt Tag.wideOpen (input ++ behind) = false :=
      missing_append (by decide) (settled.of_behind hinput) hnone
    exact .inr ⟨hstands, .inl (gap_append_error hg closed settled)⟩
  · obtain ⟨passed, -, -, -, -, -, ha⟩ := tallMore_completable hviable ht
    have hsettled := settled.of_behind ha
    obtain ⟨opening, -, hinput⟩ := gap_sound hg
    have hstands : standsAt Tag.wideOpen (input ++ behind) = false :=
      missing_append (by decide) (hsettled.of_behind hinput) hnone
    exact .inr ⟨hstands, .inr ⟨_, gap_append_ok hg hsettled,
      tallMore_append_error hviable hsteady ht closed settled⟩⟩

end Body

end Arguments

/-! ## 4. Expressions -/

theorem Twig.append_fold (first : Twig Extent) (more : List (Twig Extent)) :
    (fold first more).append behind = fold (first.append behind) (more.map (·.append behind)) := by
  induction more generalizing first with
  | nil => rfl
  | cons second more ih => exact congrArg (cell (first.append behind) · none) (ih second)

section Expression

variable {table : Table} {limit : Int} {n room : Nat} {input rest : Bytes} {f : Failure}
  {t : Twig Extent}

theorem literalTwig_append (behind : Bytes)
    (ends : input.dropWhile isDigit = [] → digitStands behind = false) :
    (input ++ behind).dropWhile isDigit = input.dropWhile isDigit ++ behind ∧
      literalTwig (input ++ behind) = (literalTwig input).append behind := by
  obtain ⟨hsplit, hdigits, hend⟩ := splits_digits input
  have hends : digitStands (input.dropWhile isDigit ++ behind) = false := by
    by_cases hnil : input.dropWhile isDigit = []
    · rw [hnil]
      exact ends hnil
    · rw [digitStands_append hnil]
      exact hend
  have hinput : input ++ behind =
      input.takeWhile isDigit ++ (input.dropWhile isDigit ++ behind) := by
    rw [← List.append_assoc, ← hsplit]
  obtain ⟨htake, hdrop⟩ := takeWhile_digits hdigits hends
  rw [← hinput] at htake hdrop
  refine ⟨hdrop, ?_⟩
  rw [literalTwig, htake, hdrop]
  rfl

theorem noExpression_append (h : input ≠ []) :
    noExpression table (input ++ behind) = (noExpression table input).append behind := by
  cases input with
  | nil => exact absurd rfl h
  | cons b input => rfl

/-- One level: an expression is read again if that holds of its arguments. -/
theorem expression_succ_append_ok (steady : Steady behind (expression table limit n))
    (h : expression table limit (n + 1) input = .ok (t, rest))
    (ends : IsLiteral t → rest = [] → digitStands behind = false) :
    expression table limit (n + 1) (input ++ behind) =
      .ok (t.append behind, rest ++ behind) := by
  rcases expression_eq_ok_iff.1 h with ⟨form, hform, body, first, more, rfl, hb, rfl⟩ |
    ⟨hd, rfl, rfl⟩
  · have hbody := formBody_append_ok (expression_viable table limit n) steady hb
    rw [List.append_assoc, expression_ok_of_body hform hbody, ← append_fold]
    simp [apply, Twig.append, Twig.map, Extent.append]
  · obtain ⟨hdrop, htwig⟩ := literalTwig_append behind (ends rfl)
    have hdigit : digitStands (input ++ behind) = true := by
      cases input with
      | nil => cases hd
      | cons b input => exact hd
    rw [expression_digit hdigit, hdrop, htwig]

/-- One level: a settled failure stays if that holds of the arguments. -/
theorem expression_succ_append_error (steady : Steady behind (expression table limit n))
    (h : expression table limit (n + 1) input = .error f) (closed : f.cause ≠ .openComment)
    (settled : Settled f.place) :
    expression table limit (n + 1) (input ++ behind) = .error (f.append behind) := by
  rcases expression_eq_error_iff.1 h with ⟨form, hform, body, e, rfl, hb, rfl⟩ | ⟨hg, hd, rfl⟩
  · have hbody := formBody_append_error (expression_viable table limit n) steady hb closed settled
    rw [List.append_assoc]
    exact expression_error_of_body hform hbody
  · have hplace : Settled input := settled
    rw [expression_none, noExpression_append hplace.ne_nil]
    · intro form hform
      exact missing_append (Nat.le_refl 2) hplace (hg form hform)
    · rw [digitStands_append hplace.ne_nil]
      exact hd

theorem expression_steady (table : Table) (limit : Int) (room : Nat) :
    Steady behind (expression table limit room) := by
  induction room with
  | zero =>
    constructor
    · intro input rest t h
      cases h
    · intro input f h _ _
      cases h
      rfl
  | succ n ih =>
    constructor
    · intro input rest t h hne
      exact expression_succ_append_ok ih h fun _ hnil => absurd hnil hne
    · intro input f h closed settled
      exact expression_succ_append_error ih h closed settled

/-- **What was read is read again whatever is put behind it**, unless it is a literal that reached
    the end of the input and now goes on. -/
theorem expression_append_ok (h : expression table limit room input = .ok (t, rest))
    (ends : IsLiteral t → rest = [] → digitStands behind = false) :
    expression table limit room (input ++ behind) = .ok (t.append behind, rest ++ behind) := by
  cases room with
  | zero => cases h
  | succ n => exact expression_succ_append_ok (expression_steady table limit n) h ends

/-- **A failure at a settled place stays the same whatever is put behind it**, unless it is that of
    a comment that may yet be closed. -/
theorem expression_append_error (h : expression table limit room input = .error f)
    (closed : f.cause ≠ .openComment) (settled : Settled f.place) :
    expression table limit room (input ++ behind) = .error (f.append behind) :=
  (expression_steady table limit room).error h closed settled

end Expression

/-! ## 5. Documents -/

theorem Twig.map_map {ρ σ τ : Type} (g : σ → τ) (f : ρ → σ) (t : Twig ρ) :
    (t.map f).map g = t.map (g ∘ f) := by
  induction t with
  | literal odor value note => simp [Twig.map]
  | cell head tail note ihead itail => simp [Twig.map, ihead, itail]
  | rune r => rfl

theorem Twig.isLiteral_map {σ τ : Type} (f : σ → τ) (t : Twig σ) :
    IsLiteral (t.map f) ↔ IsLiteral t := by
  cases t with
  | cell head tail note => cases head <;> rfl
  | literal odor value note => rfl
  | rune r => rfl

namespace Source

variable {s : Source} {start : Nat}

/-- The source with more input at its end. -/
def append (s : Source) (behind : Bytes) : Source where
  bytes := s.bytes ++ behind
  file := s.file

theorem remaining_append_behind (h : start ≤ s.bytes.length) :
    (s.append behind).remaining start = s.remaining start ++ behind :=
  List.drop_append_of_le_length h

theorem offsetOf_append_behind (h : start ≤ s.bytes.length) (rest : Bytes) :
    (s.append behind).offsetOf start (rest ++ behind) = s.offsetOf start rest := by
  rw [offsetOf, offsetOf, remaining_append_behind h, List.length_append, List.length_append,
    Nat.add_sub_add_right]

theorem offsetOf_le (h : start ≤ s.bytes.length) (rest : Bytes) :
    s.offsetOf start rest ≤ s.bytes.length := by
  have hleft := s.length_remaining start
  show start + ((s.remaining start).length - rest.length) ≤ s.bytes.length
  omega

/-- What stands behind the source does not change the locations in it. -/
theorem location_append {offset : Nat} (h : offset ≤ s.bytes.length) :
    (s.append behind).location offset = s.location offset :=
  Location.ofOffset_append s.file s.bytes behind h

theorem located_append (h : start ≤ s.bytes.length) (t : Twig Extent) :
    (s.append behind).located start (t.append behind) = s.located start t := by
  have hplace : ∀ rest : Bytes,
      (s.append behind).location ((s.append behind).offsetOf start (rest ++ behind)) =
        s.location (s.offsetOf start rest) := by
    intro rest
    rw [offsetOf_append_behind h, location_append (offsetOf_le h rest)]
  unfold located
  rw [Twig.append, Twig.map_map]
  simp only [locationFrom_eq]
  refine congrArg (t.map ·) (funext fun extent => ?_)
  exact congrArg₂ Span.mk (hplace extent.start) (hplace extent.stop)

theorem reportOf_append (h : start ≤ s.bytes.length) (f : Failure) :
    (s.append behind).reportOf start (f.append behind) =
      { s.reportOf start f with
        remaining := (s.reportOf start f).remaining ++ behind } := by
  have hoffset : (s.append behind).offsetOf start (f.append behind).place =
      s.offsetOf start f.place := offsetOf_append_behind h f.place
  have hle := offsetOf_le h f.place
  rw [reportOf, hoffset, report, remaining_append_behind hle, location_append hle]
  rfl

end Source

namespace Document

variable {d : Document} {start : Nat} {depth : Int}

/-- The document with more input at its end. -/
def append (d : Document) (behind : Bytes) : Document :=
  { d with source := d.source.append behind }

theorem expressionAt_append_ok (hstart : start ≤ d.source.bytes.length) {r : Reading}
    (h : d.expressionAt start depth = .ok r)
    (ends : IsLiteral r.twig → r.stop = d.source.bytes.length → digitStands behind = false) :
    (d.append behind).expressionAt start depth = .ok r ∧ r.stop ≤ d.source.bytes.length := by
  obtain ⟨t, rest, hread, rfl⟩ := expressionAt_eq_ok_iff.1 h
  have hends : IsLiteral t → rest = [] → digitStands behind = false := by
    intro hlit hnil
    refine ends ((isLiteral_map _ t).2 hlit) ?_
    have hleft := d.source.length_remaining start
    show d.source.offsetOf start rest = d.source.bytes.length
    rw [hnil, Source.offsetOf, List.length_nil]
    omega
  have hread' := expression_append_ok hread hends
  rw [← Source.remaining_append_behind hstart] at hread'
  refine ⟨expressionAt_eq_ok_iff.2 ⟨_, _, hread', ?_⟩, Source.offsetOf_le hstart rest⟩
  rw [append, Source.located_append hstart, Source.offsetOf_append_behind hstart]

theorem expressionAt_append_error (hstart : start ≤ d.source.bytes.length) {e : Report}
    (h : d.expressionAt start depth = .error e) (closed : e.cause ≠ .openComment)
    (settled : Settled e.remaining) :
    (d.append behind).expressionAt start depth =
      .error { e with remaining := e.remaining ++ behind } := by
  obtain ⟨f, hread, rfl⟩ := expressionAt_eq_error_iff.1 h
  obtain ⟨passed, -, -, -, hsplit⟩ := expression_completable d.table d.limit _ hread
  have hplace : (d.source.reportOf start f).remaining = f.place := by
    show d.source.remaining (d.source.offsetOf start f.place) = f.place
    rw [Source.offsetOf_append hsplit, Source.remaining_append hsplit]
  rw [hplace] at settled
  have hread' : d.expressionReader depth (d.source.remaining start ++ behind) =
      .error (f.append behind) := expression_append_error hread closed settled
  rw [← Source.remaining_append_behind hstart] at hread'
  refine expressionAt_eq_error_iff.2 ⟨_, hread', ?_⟩
  rw [append, Source.reportOf_append hstart]

/-- **More input at the end of a document changes no settled outcome.** What was read is read again,
    with the same spans, unless it is a literal that reached the end and now goes on; and a failure
    stays the same, apart from the input left there, if two bytes stand there behind the blanks. -/
theorem parse_append (d : Document) (behind : Bytes) :
    (∀ r, d.parse = .ok r →
      (IsLiteral r.twig → r.stop = d.source.bytes.length → digitStands behind = false) →
      (d.append behind).parse = .ok r ∧
      (d.append behind).source.remaining r.stop = d.source.remaining r.stop ++ behind) ∧
    (∀ e, d.parse = .error e → e.cause ≠ .openComment →
      (∀ limit, e.cause ≠ .stackExhausted limit) →
      2 ≤ (e.remaining.dropWhile isBlank).length →
      (d.append behind).parse = .error { e with remaining := e.remaining ++ behind }) := by
  have hstart : 0 ≤ d.onStack.source.bytes.length := Nat.zero_le _
  constructor
  · intro r h ends
    obtain ⟨hread, hstop⟩ := expressionAt_append_ok hstart (parse_eq_ok_iff.1 h) ends
    exact ⟨parse_eq_ok_iff.2 hread, Source.remaining_append_behind hstop⟩
  · intro e h closed unexhausted settled
    rcases parse_eq_error_iff.1 h with ⟨he, hfits⟩ | ⟨rfl, -⟩
    · have hread : (d.append behind).onStack.expressionAt 0 0 = _ :=
        expressionAt_append_error hstart he closed settled
      exact parse_eq_error_iff.2 (.inl ⟨hread, hfits⟩)
    · exact absurd rfl (unexhausted d.limit)

/-- A literal that reaches the end of its document. -/
def seven : Document :=
  .ofBytes (ascii ['7']) none {} .standard

/-- What is read of it. -/
def sevenReading : Reading where
  twig := .ofValue .ud (.number 7)
    (some ⟨⟨Source.unknownFile, 1, 1, 0⟩, ⟨Source.unknownFile, 1, 2, 1⟩⟩)
  stop := 1

theorem parse_append_seven_tooNested :
    (seven.parse = .ok sevenReading ∧ (seven.append [Byte.space]).parse = .ok sevenReading) ∧
      tooNested.parse = .error tooNestedReport ∧
      (tooNested.append [Byte.zero]).parse = .error { tooNestedReport with
        remaining := tooNestedReport.remaining ++ [Byte.zero] } := by
  have hdigit : seven.onStack.expressionReader 0 (seven.source.remaining 0) =
      .ok (literalTwig seven.source.bytes, []) := expression_digit rfl
  have hseven : seven.parse = .ok sevenReading :=
    parse_eq_ok_iff.2 (expressionAt_eq_ok_iff.2 ⟨_, _, hdigit, rfl⟩)
  have hnested : tooNested.parse = .error tooNestedReport := rfl
  refine ⟨⟨hseven, ?_⟩, hnested, ?_⟩
  · exact ((parse_append seven [Byte.space]).1 _ hseven fun _ _ => rfl).1
  · have hcause : ∀ limit, tooNestedReport.cause ≠ .stackExhausted limit := by
      intro limit h
      cases h
    exact (parse_append tooNested [Byte.zero]).2 _ hnested (by decide) hcause (by decide)

end Document

end HoonReader
