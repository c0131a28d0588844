import HoonReader.Proofs.Completion
import HoonReader.Proofs.Spans
import HoonReader.Proofs.Stack

/-!
# Every diagnosis is true

A report says what was due at its offset. This file shows that it was due and was not there.

* `Arises`, `expression_arises`: a failure of the reader of expressions comes from a piece of a
  gap, a missing tag, an expression that is due, or the limit of nesting, and from nothing else;
* `Arises.diagnosed`: each of these is one of six diagnoses, and what the diagnosis says holds of
  the input left at the place of the failure;
* `Document.parse_error_diagnosed`: so it does of every report of a document, and exactly one does.
-/

namespace HoonReader

open Twig

/-! ## 1. Where failures come from -/

/-- What can make the reader of expressions fail. -/
inductive Arises (table : Table) (limit : Int) : Failure → Prop where
  /-- A piece of a gap is due. -/
  | piece {input : Bytes} {f : Failure} (h : ReadsPiece input (.error f)) : Arises table limit f
  /-- A separator or the end of a form is due. -/
  | tag {tag input : Bytes} (due : tag ∈ [Tag.wideClose, Tag.wideSeparator, Tag.tallEnd])
      (missing : standsAt tag input = false) : Arises table limit (.of (.literal tag) input)
  /-- An expression is due. -/
  | expression {input : Bytes}
      (glyphs : ∀ form ∈ table.forms, standsAt form.glyph.bytes input = false)
      (digit : digitStands input = false) : Arises table limit (noExpression table input)
  /-- An expression is due deeper than the limit allows. -/
  | tooDeep {input : Bytes} : Arises table limit (.of (.tooDeep limit) input)
  /-- The failure arises inside of something that was begun. -/
  | commit {f : Failure} (h : Arises table limit f) : Arises table limit f.commit

theorem gapPieces_error_piece {input : Bytes} {f : Failure} (h : gapPieces input = .error f) :
    ∃ place, ReadsPiece place (.error f) := by
  fun_induction gapPieces input with
  | case1 input mid hpiece ih => exact ih h
  | case2 input e hpiece hc =>
    cases h
    exact ⟨input, gapPiece_eq_iff.1 hpiece⟩
  | case3 input e hpiece hc => cases h

/-- A gap fails as one of its pieces does. -/
theorem gap_error_piece {input : Bytes} {f : Failure} (h : gap input = .error f) :
    ∃ place, ReadsPiece place (.error f) := by
  cases hpiece : gapPiece input with
  | error e =>
    rw [gap_error hpiece] at h
    cases h
    exact ⟨input, gapPiece_eq_iff.1 hpiece⟩
  | ok mid =>
    rw [gap_eq_gapPieces hpiece] at h
    exact gapPieces_error_piece h

section Arguments

variable {table : Table} {limit : Int} {reader : Reader (Twig Extent)}
  {readers : List (Reader (Twig Extent))} {input : Bytes} {f : Failure}

theorem Arises.of_gap (h : gap input = .error f) : Arises table limit f := by
  obtain ⟨place, hpiece⟩ := gap_error_piece h
  exact .piece hpiece

theorem wideMore_arises
    (arises : ∀ r ∈ readers, ∀ input f, r input = .error f → Arises table limit f)
    (h : wideMore readers input = .error f) : Arises table limit f := by
  induction readers generalizing input with
  | nil =>
    obtain ⟨hmissing, rfl⟩ := wideMore_nil_eq_error_iff.1 h
    exact .tag (by simp) hmissing
  | cons r readers ih =>
    obtain ⟨hr, hreaders⟩ := List.forall_mem_cons.1 arises
    rcases wideMore_cons_eq_error_iff.1 h with ⟨hmissing, rfl⟩ | ⟨a, -, he | ⟨value, b, -, hm⟩⟩
    · exact .tag (by simp) hmissing
    · exact hr a f he
    · exact ih hreaders hm

theorem tallMore_arises
    (arises : ∀ r ∈ readers, ∀ input f, r input = .error f → Arises table limit f)
    (h : tallMore readers input = .error f) : Arises table limit f := by
  induction readers generalizing input with
  | nil =>
    obtain ⟨hmissing, rfl⟩ := tallMore_nil_eq_error_iff.1 h
    exact .tag (by simp) hmissing
  | cons r readers ih =>
    obtain ⟨hr, hreaders⟩ := List.forall_mem_cons.1 arises
    rcases tallMore_cons_eq_error_iff.1 h with he | ⟨value, a, -, hg | ⟨b, -, hm⟩⟩
    · exact hr input f he
    · exact .of_gap hg
    · exact ih hreaders hm

theorem formBody_arises {form : Form}
    (arises : ∀ input f, reader input = .error f → Arises table limit f)
    (h : formBody (Grammar.reader reader) form input = .error f) : Arises table limit f := by
  have hreaders := form.forall_moreReaders
    (p := fun r => ∀ input f, r input = .error f → Arises table limit f) arises
  rcases formBody_eq_error_iff.1 h with ⟨a, -, hw⟩ | ⟨-, hg | ⟨a, -, ht⟩⟩
  · rcases wideForm_eq_error_iff.1 hw with hfirst | ⟨value, b, -, hmore⟩
    · exact arises a f hfirst
    · exact wideMore_arises hreaders hmore
  · exact .of_gap hg
  · exact tallMore_arises (List.forall_mem_cons.2 ⟨arises, hreaders⟩) ht

end Arguments

/-- **A failure of the reader of expressions comes from what is listed, and from nothing else.** -/
theorem expression_arises {table : Table} {limit : Int} {room : Nat} {input : Bytes} {f : Failure}
    (h : expression table limit room input = .error f) : Arises table limit f := by
  induction room generalizing input f with
  | zero =>
    cases h
    exact .tooDeep
  | succ n ih =>
    rcases expression_eq_error_iff.1 h with ⟨form, hform, body, e, rfl, hb, rfl⟩ | ⟨hg, hd, rfl⟩
    · exact .commit (formBody_arises (fun input f => ih) hb)
    · exact .expression hg hd

/-! ## 2. Diagnoses -/

/-- The ways in which a source is not an expression. -/
inductive Diagnosis where
  /-- Nothing that begins an expression. -/
  | expression
  /-- A parenthesis, separator or end marker is missing. -/
  | tag
  /-- Too few blanks. -/
  | blanks
  /-- A tab. -/
  | tab
  /-- A comment without end. -/
  | comment
  /-- Applications nested too deep. -/
  | nesting
  deriving DecidableEq, Repr

namespace Diagnosis

/-- The cause is of this diagnosis, and what the diagnosis says holds of the input left. -/
def Fits (table : Table) (cause : Cause) (left : Bytes) : Diagnosis → Prop
  | expression => cause.kind = .expressionExpected ∧
      (∀ form ∈ table.forms, standsAt form.glyph.bytes left = false) ∧ digitStands left = false
  | tag => cause.kind = .literalExpected ∧
      ∃ tag ∈ [Tag.wideClose, Tag.wideSeparator, Tag.tallEnd],
        cause.expected? = some tag ∧ standsAt tag left = false
  | blanks => cause.kind = .whitespaceExpected ∧ cause.code = .whitespace ∧
      standsAt Tag.comment left = false ∧ weight (left.takeWhile isBlank) < longWeight ∧
      (left.dropWhile isBlank).head? ≠ some Byte.tab
  | tab => cause.kind = .whitespaceExpected ∧ cause.code = .tab ∧ left.head? = some Byte.tab
  | comment => cause.kind = .literalExpected ∧ cause.expected? = some Tag.newline ∧
      cause.code = .openComment ∧ standsAt Tag.comment left = true ∧ Byte.newline ∉ left
  | nesting => cause.kind = .nestingTooDeep

/-- The only diagnosis that a cause can be of. -/
def ofCause (cause : Cause) : Diagnosis :=
  match cause.kind with
  | .expressionExpected => expression
  | .literalExpected => if cause.expected? = some Tag.newline then comment else tag
  | .whitespaceExpected => if cause.code = .tab then tab else blanks
  | _ => nesting

theorem Fits.eq_ofCause {table : Table} {cause : Cause} {left : Bytes} {diagnosis : Diagnosis}
    (h : diagnosis.Fits table cause left) : diagnosis = ofCause cause := by
  unfold ofCause
  cases diagnosis with
  | expression => rw [h.1]
  | tag =>
    obtain ⟨hkind, tag, hdue, hexpected, -⟩ := h
    have hne : tag ≠ Tag.newline := by
      intro e
      rw [e] at hdue
      exact absurd hdue (by decide)
    rw [hkind, hexpected]
    simp [hne]
  | blanks =>
    obtain ⟨hkind, hcode, -⟩ := h
    simp [hkind, hcode]
  | tab =>
    obtain ⟨hkind, hcode, -⟩ := h
    simp [hkind, hcode]
  | comment =>
    obtain ⟨hkind, hexpected, -⟩ := h
    simp [hkind, hexpected]
  | nesting =>
    have hkind : cause.kind = .nestingTooDeep := h
    rw [hkind]

end Diagnosis

/-- Reading an expression can fail for this cause. -/
def Cause.concernsExpressions : Cause → Bool
  | whitespace | tab | openComment | literal _ | expression _ | tooDeep _ | stackExhausted _ => true
  | letter | digit | lexicalTag _ | glyph _ | invalidLiteral .. => false

theorem Cause.kind_code_of_concernsExpressions {cause : Cause}
    (h : cause.concernsExpressions = true) :
    cause.kind ∉ [.letterExpected, .digitExpected, .invalidLiteral] ∧
      cause.code ∉ [.glyph, .lexicalTag] := by
  cases cause <;> simp_all [concernsExpressions, kind, code]

theorem ReadsPiece.diagnosed {table : Table} {input : Bytes} {f : Failure}
    (h : ReadsPiece input (.error f)) :
    (∃ diagnosis : Diagnosis, diagnosis.Fits table f.cause f.place) ∧
      f.cause.concernsExpressions = true := by
  cases h with
  | @openComment body inside text =>
    have hstands : standsAt Tag.comment input = true := standsAt_iff.2 ⟨body, text⟩
    have hnewline : Byte.newline ∉ input := by
      rw [text, List.mem_append, not_or]
      exact ⟨by decide, inside⟩
    exact ⟨⟨.comment, rfl, rfl, rfl, hstands, hnewline⟩, rfl⟩
  | tab blank text => exact ⟨⟨.tab, rfl, rfl, rfl⟩, rfl⟩
  | @light run rest blank ends tab light noComment text =>
    have htake : input.takeWhile isBlank = run := by rw [text, takeWhile_blanks blank ends]
    have hdrop : input.dropWhile isBlank = rest := by rw [text, dropWhile_blanks blank ends]
    refine ⟨⟨.blanks, rfl, rfl, noComment, ?_, ?_⟩, rfl⟩
    · show weight (input.takeWhile isBlank) < longWeight
      rw [htake]
      exact light
    · show (input.dropWhile isBlank).head? ≠ some Byte.tab
      rw [hdrop]
      exact tab

/-- **A failure is one of the six diagnoses, and what that one says is true.** -/
theorem Arises.diagnosed {table : Table} {limit : Int} {f : Failure} (h : Arises table limit f) :
    (∃ diagnosis : Diagnosis, diagnosis.Fits table f.cause f.place) ∧
      f.cause.concernsExpressions = true := by
  induction h with
  | piece h => exact h.diagnosed
  | tag due missing => exact ⟨⟨.tag, rfl, _, due, rfl, missing⟩, rfl⟩
  | expression glyphs digit => exact ⟨⟨.expression, rfl, glyphs, digit⟩, rfl⟩
  | tooDeep => exact ⟨⟨.nesting, rfl⟩, rfl⟩
  | commit h ih => exact ih

/-! ## 3. Documents -/

namespace Document

/-- A report of the reader is one of its failure: at the place of the failure, and of what is left
    there. -/
theorem expressionAt_error_place {d : Document} {e : Report} (h : d.expressionAt 0 0 = .error e) :
    ∃ f passed, Arises d.table d.limit f ∧ d.source.bytes = passed ++ f.place ∧
      e = d.source.report f.cause f.committed passed.length := by
  obtain ⟨f, hread, rfl⟩ := expressionAt_eq_error_iff.1 h
  obtain ⟨passed, -, -, -, hsplit⟩ := expression_completable d.table d.limit _ hread
  refine ⟨f, passed, expression_arises hread, hsplit, ?_⟩
  rw [Source.reportOf, Source.offsetOf_passed hsplit]

/-- **Every diagnosis is true.** A report of a document lies in it and shows what is left at its
    offset; exactly one of the six diagnoses is the one of its cause with what that diagnosis says
    of the input left there; and no other kind of report is made. -/
theorem parse_error_diagnosed (d : Document) {e : Report} (h : d.parse = .error e) :
    e.offset ≤ d.source.bytes.length ∧ e.remaining = d.source.bytes.drop e.offset ∧
      e.location = d.source.location e.offset ∧ e.location.offset = e.offset ∧
      (∃! diagnosis : Diagnosis, diagnosis.Fits d.table e.cause e.remaining) ∧
      e.cause.kind ∉ [.letterExpected, .digitExpected, .invalidLiteral] ∧
      e.cause.code ∉ [.glyph, .lexicalTag] := by
  have hreport : ∃ cause committed passed left, e = d.source.report cause committed passed.length ∧
      d.source.bytes = passed ++ left ∧
      (∃ diagnosis : Diagnosis, diagnosis.Fits d.table cause left) ∧
      cause.concernsExpressions = true := by
    rcases d.parse_eq_expressionAt with hparse | hparse
    · obtain ⟨f, passed, harises, hsplit, rfl⟩ := expressionAt_error_place (hparse.symm.trans h)
      exact ⟨f.cause, f.committed, passed, f.place, rfl, hsplit, harises.diagnosed⟩
    · -- an exhausted stack is a nesting too deep, reported at the start
      cases hparse.symm.trans h
      exact ⟨_, _, [], d.source.bytes, rfl, rfl, ⟨.nesting, rfl⟩, rfl⟩
  obtain ⟨cause, committed, passed, left, rfl, hsplit, ⟨diagnosis, hfits⟩, hcause⟩ := hreport
  have hle : passed.length ≤ d.source.bytes.length := by
    rw [hsplit, List.length_append]
    omega
  have hleft : d.source.bytes.drop passed.length = left := by rw [hsplit, List.drop_left]
  refine ⟨hle, rfl, rfl, Source.offset_location hle, ⟨diagnosis, ?_, ?_⟩,
    Cause.kind_code_of_concernsExpressions hcause⟩
  · show diagnosis.Fits d.table cause (d.source.bytes.drop passed.length)
    rw [hleft]
    exact hfits
  · intro other hother
    exact hother.eq_ofCause.trans hfits.eq_ofCause.symm

/-- A loop point whose argument stands behind a single blank. -/
def lightGap : Document :=
  .ofBytes (ascii ['|', '-', ' ', '7']) none {} .standard

/-- The report of it. -/
def lightGapReport : Report where
  cause := .whitespace
  committed := true
  offset := 2
  remaining := ascii [' ', '7']
  location := ⟨Source.unknownFile, 1, 3, 2⟩

theorem parse_error_diagnosed_lightGap :
    lightGap.parse = .error lightGapReport ∧
      lightGapReport.remaining = lightGap.source.bytes.drop lightGapReport.offset ∧
      ∃! diagnosis : Diagnosis,
        diagnosis.Fits lightGap.table lightGapReport.cause lightGapReport.remaining := by
  have hparse : lightGap.parse = .error lightGapReport := by decide +kernel
  obtain ⟨-, hremaining, -, -, hdiagnosis, -, -⟩ := parse_error_diagnosed lightGap hparse
  exact ⟨hparse, hremaining, hdiagnosis⟩

end Document

end HoonReader
