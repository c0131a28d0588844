import HoonReader.Proofs.Grammar

/-!
# Every failure stands at a viable place

Where reading an expression fails, what was passed so far can still be completed to a spelling: no
failure is reported behind the first place at which the input had become impossible to complete.

* `expression_completable`: the completion, for every table, limit and room;
* `Document.offset_viable`: the completion is read to its end, with one more level of nesting.

A completion closes what is open. Where an argument is due, the digit zero is put; where a gap is
due or has begun, a newline; then the separators and end markers that are still missing. One more
level is needed where a glyph was passed at the deepest level that is allowed, since its arguments
lie one deeper.
-/

namespace HoonReader

open Twig

variable {table : Table} {room : Nat}

/-! ## 1. What is filled in -/

/-- The digit zero as an argument. -/
def filler : Spelling where
  text := [Byte.zero]
  twig := ofValue .ud (.number 0) none

/-- The digit zero as an argument of the tall form, with a newline as its gap. -/
def tallFiller : TallSpelling where
  toSpelling := filler
  gap := Tag.newline

theorem filler_spelledIn (table : Table) (room : Nat) :
    SpelledIn table (room + 1) filler.text filler.twig where
  spells := .literal (List.cons_ne_nil Byte.zero []) (List.forall_mem_singleton.2 rfl)
  nesting := Nat.succ_pos room

theorem isGap_newline : IsGap Tag.newline := by
  have hrun : ∀ b ∈ ([] : Bytes), isBlank b = true := by simp
  exact (isPiece_newline hrun).isGap

theorem fillers_spelledIn (table : Table) (room count : Nat) :
    ∀ a ∈ List.replicate count filler, SpelledIn table (room + 1) a.text a.twig := by
  intro a ha
  rw [List.eq_of_mem_replicate ha]
  exact filler_spelledIn table room

theorem tallFillers_spelledIn (table : Table) (room count : Nat) :
    ∀ a ∈ List.replicate count tallFiller,
      SpelledIn table (room + 1) a.text a.twig ∧ IsGap a.gap := by
  intro a ha
  rw [List.eq_of_mem_replicate ha]
  exact ⟨filler_spelledIn table room, isGap_newline⟩

theorem SpelledIn.mono {text : Bytes} {t : BareTwig} (h : SpelledIn table room text t) :
    SpelledIn table (room + 1) text t :=
  ⟨h.spells, Nat.lt_succ_of_lt h.nesting⟩

/-- What the reader passed before it failed can be completed to a spelling. -/
def Completable (table : Table) (room : Nat) (reader : Reader (Twig Extent)) : Prop :=
  ∀ ⦃input : Bytes⦄ ⦃f : Failure⦄, reader input = .error f →
    ∃ passed behind t, SpelledIn table room (passed ++ behind) t ∧ input = passed ++ f.place

/-- Whatever the reader passes belongs to a spelling, be it that it succeeds or that it fails. -/
structure Viable (table : Table) (room : Nat) (reader : Reader (Twig Extent)) : Prop where
  sound : Sound table room reader
  completable : Completable table (room + 1) reader

/-! ## 2. Argument lists -/

section Arguments

variable {reader : Reader (Twig Extent)} {readers : List (Reader (Twig Extent))} {input : Bytes}
  {f : Failure}

theorem wideMore_completable
    (viable : ∀ r ∈ readers, Viable table room r)
    (h : wideMore readers input = .error f) :
    ∃ (passed behind : Bytes) (more : List Spelling), more.length = readers.length ∧
      (∀ a ∈ more, SpelledIn table (room + 1) a.text a.twig) ∧
      passed ++ behind = wideTail more ++ Tag.wideClose ∧ input = passed ++ f.place := by
  induction readers generalizing input with
  | nil =>
    obtain ⟨-, rfl⟩ := wideMore_nil_eq_error_iff.1 h
    exact ⟨[], Tag.wideClose, [], rfl, by simp, rfl, rfl⟩
  | cons r readers ih =>
    obtain ⟨hviable, hreaders⟩ := List.forall_mem_cons.1 viable
    have hfill := fillers_spelledIn table room readers.length
    rcases wideMore_cons_eq_error_iff.1 h with ⟨-, rfl⟩ | ⟨a, rfl, hr | ⟨value, b, hv, hm⟩⟩
    · refine ⟨[], _, filler :: List.replicate readers.length filler, by simp, ?_, rfl, rfl⟩
      exact List.forall_mem_cons.2 ⟨filler_spelledIn table room, hfill⟩
    · obtain ⟨passed, behind, t, hs, rfl⟩ := hviable.completable hr
      refine ⟨Tag.wideSeparator ++ passed,
        behind ++ (wideTail (List.replicate readers.length filler) ++ Tag.wideClose),
        ⟨passed ++ behind, t⟩ :: List.replicate readers.length filler, by simp, ?_,
        by simp, by simp⟩
      exact List.forall_mem_cons.2 ⟨hs, hfill⟩
    · obtain ⟨text, hs, rfl, -⟩ := hviable.sound hv
      obtain ⟨passed, behind, more, hlen, hmore, htext, rfl⟩ := ih hreaders hm
      refine ⟨Tag.wideSeparator ++ text ++ passed, behind, ⟨text, value.bare⟩ :: more,
        by simp [hlen], List.forall_mem_cons.2 ⟨hs.mono, hmore⟩, ?_, by simp⟩
      rw [List.append_assoc, htext]
      simp

theorem tallMore_completable
    (viable : ∀ r ∈ readers, Viable table room r)
    (h : tallMore readers input = .error f) :
    ∃ (passed behind : Bytes) (more : List TallSpelling), more.length = readers.length ∧
      (∀ a ∈ more, SpelledIn table (room + 1) a.text a.twig ∧ IsGap a.gap) ∧
      passed ++ behind = tallText more ++ Tag.tallEnd ∧ input = passed ++ f.place := by
  induction readers generalizing input with
  | nil =>
    obtain ⟨-, rfl⟩ := tallMore_nil_eq_error_iff.1 h
    exact ⟨[], Tag.tallEnd, [], rfl, by simp, rfl, rfl⟩
  | cons r readers ih =>
    obtain ⟨hviable, hreaders⟩ := List.forall_mem_cons.1 viable
    have hfill := tallFillers_spelledIn table room readers.length
    rcases tallMore_cons_eq_error_iff.1 h with hr | ⟨value, a, hv, hg | ⟨b, hg, hm⟩⟩
    · obtain ⟨passed, behind, t, hs, rfl⟩ := hviable.completable hr
      refine ⟨passed,
        behind ++ (Tag.newline ++ (tallText (List.replicate readers.length tallFiller) ++
          Tag.tallEnd)),
        ⟨⟨passed ++ behind, t⟩, Tag.newline⟩ :: List.replicate readers.length tallFiller,
        by simp, List.forall_mem_cons.2 ⟨⟨hs, isGap_newline⟩, hfill⟩, by simp, rfl⟩
    · obtain ⟨text, hs, rfl, -⟩ := hviable.sound hv
      obtain ⟨passed, hgap, rfl⟩ := gap_completable hg
      refine ⟨text ++ passed,
        Tag.newline ++ (tallText (List.replicate readers.length tallFiller) ++ Tag.tallEnd),
        ⟨⟨text, value.bare⟩, passed ++ Tag.newline⟩ ::
          List.replicate readers.length tallFiller,
        by simp, List.forall_mem_cons.2 ⟨⟨hs.mono, hgap⟩, hfill⟩, by simp, by simp⟩
    · obtain ⟨text, hs, rfl, -⟩ := hviable.sound hv
      obtain ⟨behindText, hgap, rfl⟩ := gap_sound hg
      obtain ⟨passed, behind, more, hlen, hmore, htext, rfl⟩ := ih hreaders hm
      refine ⟨text ++ behindText ++ passed, behind, ⟨⟨text, value.bare⟩, behindText⟩ :: more,
        by simp [hlen], List.forall_mem_cons.2 ⟨⟨hs.mono, hgap⟩, hmore⟩, ?_, by simp⟩
      rw [List.append_assoc, htext]
      simp

/-! ## 3. Applications and expressions -/

theorem wideForm_completable {form : Form} (registered : form ∈ table.forms)
    (viable : Viable table room reader)
    (h : wideForm reader (form.moreReaders reader) input = .error f) :
    ∃ passed behind t, input = passed ++ f.place ∧
      SpelledIn table (room + 2) (form.glyph.bytes ++ Tag.wideOpen ++ passed ++ behind) t := by
  have harity := form.length_moreReaders reader
  rcases wideForm_eq_error_iff.1 h with hr | ⟨value, a, hv, hm⟩
  · obtain ⟨passed, behind, t, hs, rfl⟩ := viable.completable hr
    have hfill := fillers_spelledIn table room (form.moreReaders reader).length
    have happ := spelledIn_wide registered ⟨passed ++ behind, t⟩ (by simp; omega)
      (List.forall_mem_cons.2 ⟨hs, hfill⟩)
    rw [wideText_cons] at happ
    exact ⟨passed, _, _, rfl, by simpa using happ⟩
  · obtain ⟨text, hs, rfl, -⟩ := viable.sound hv
    have hreaders := form.forall_moreReaders viable
    obtain ⟨passed, behind, more, hlen, hmore, htext, rfl⟩ := wideMore_completable hreaders hm
    have happ := spelledIn_wide registered ⟨text, value.bare⟩ (by omega)
      (List.forall_mem_cons.2 ⟨hs.mono, hmore⟩)
    have heq : form.glyph.bytes ++ Tag.wideOpen ++ (text ++ passed) ++ behind =
        form.glyph.bytes ++ Tag.wideOpen ++ wideText (⟨text, value.bare⟩ :: more) ++
          Tag.wideClose := by
      rw [wideText_cons]
      simp only [List.append_assoc, htext]
    exact ⟨text ++ passed, behind, _, by simp, heq ▸ happ⟩

theorem formBody_completable {form : Form} (registered : form ∈ table.forms)
    (viable : Viable table room reader)
    (h : formBody (Grammar.reader reader) form input = .error f) :
    ∃ passed behind t, input = passed ++ f.place ∧
      SpelledIn table (room + 2) (form.glyph.bytes ++ passed ++ behind) t := by
  have harity := form.length_moreReaders reader
  have hreaders := List.forall_mem_cons.2 ⟨viable, form.forall_moreReaders viable⟩
  rcases formBody_eq_error_iff.1 h with ⟨a, rfl, hw⟩ | ⟨-, hg | ⟨a, hg, ht⟩⟩
  · obtain ⟨passed, behind, t, rfl, hs⟩ := wideForm_completable registered viable hw
    exact ⟨Tag.wideOpen ++ passed, behind, t, by simp, by simpa using hs⟩
  · obtain ⟨passed, hgap, rfl⟩ := gap_completable hg
    have hfill := tallFillers_spelledIn table room (form.moreReaders reader).length
    have happ := spelledIn_tall registered tallFiller (by simp; omega) hgap
      (List.forall_mem_cons.2 ⟨⟨filler_spelledIn table room, isGap_newline⟩, hfill⟩)
    exact ⟨passed, _, _, rfl, by simpa using happ⟩
  · obtain ⟨opening, hopening, rfl⟩ := gap_sound hg
    obtain ⟨passed, behind, arguments, hlen, hall, htext, rfl⟩ := tallMore_completable hreaders ht
    cases arguments with
    | nil => cases hlen
    | cons first more =>
      have hlen' : more.length + 1 = form.rune.arity := by
        rw [List.length_cons, List.length_cons] at hlen
        omega
      have happ := spelledIn_tall registered first hlen' hopening hall
      rw [List.append_assoc, ← htext] at happ
      exact ⟨opening ++ passed, behind, _, by simp, by simpa using happ⟩

end Arguments

/-- **Where reading an expression fails, what was passed can be completed to a spelling**, with one
    more level of nesting. -/
theorem expression_completable (table : Table) (limit : Int) (room : Nat) :
    Completable table (room + 1) (expression table limit room) := by
  induction room with
  | zero =>
    intro input f h
    cases h
    exact ⟨[], _, _, filler_spelledIn table 0, rfl⟩
  | succ n ih =>
    intro input f h
    rcases expression_eq_error_iff.1 h with ⟨form, hform, body, e, rfl, hb, rfl⟩ | ⟨-, -, rfl⟩
    · obtain ⟨passed, behind, t, rfl, hs⟩ :=
        formBody_completable hform ⟨expression_sound table limit n, ih⟩ hb
      exact ⟨form.glyph.bytes ++ passed, behind, t, hs, by simp⟩
    · exact ⟨[], _, _, filler_spelledIn table (n + 1), rfl⟩

theorem expression_viable (table : Table) (limit : Int) (room : Nat) :
    Viable table room (expression table limit room) where
  sound := expression_sound table limit room
  completable := expression_completable table limit room

/-! ## 4. Documents -/

namespace Document

/-- The document with other bytes, and one more level of nesting allowed. -/
def deeper (d : Document) (bytes : Bytes) : Document where
  source := ⟨bytes, d.source.file⟩
  limit := d.limit + 1
  table := d.table

/-- **The offset of a failure is a viable place**: the bytes in front of it can be continued to a
    source that is read to its end, with one more level of nesting. -/
theorem offset_viable (d : Document) (hlimit : 0 ≤ d.limit) {e : Report}
    (h : d.expressionAt 0 0 = .error e) :
    ∃ behind r,
      (d.deeper (d.source.bytes.take e.offset ++ behind)).expressionAt 0 0 = .ok r ∧
      r.stop = (d.source.bytes.take e.offset ++ behind).length := by
  obtain ⟨f, hf, rfl⟩ := expressionAt_eq_error_iff.1 h
  obtain ⟨passed, behind, t, hs, hsplit⟩ := expression_completable d.table d.limit _ hf
  have hoffset : (d.source.reportOf 0 f).offset = passed.length := by
    have hof := Source.offsetOf_append hsplit
    rw [Nat.zero_add] at hof
    exact hof
  have htake : d.source.bytes.take passed.length = passed := by
    have hbytes : d.source.bytes = passed ++ f.place := by
      rw [← hsplit, Source.remaining, List.drop_zero]
    rw [hbytes, List.take_left]
  rw [hoffset, htake]
  have hnesting : (t.nesting : Int) ≤ d.limit + 1 := by
    have hlt := hs.nesting
    unfold room at hlt
    omega
  obtain ⟨r, hread, -, hstop⟩ := read_whole (d := d.deeper (passed ++ behind)) hs.spells hnesting
  exact ⟨behind, r, hread, hstop⟩

/-- An application inside of another one, where only one level is allowed. -/
def tooNested : Document :=
  .ofBytes (ascii ['|', '-', '(', '|', '-', '(', '7', ')', ')']) none { limit := 0 } .standard

/-- The report of the inner application. -/
def tooNestedReport : Report where
  cause := .tooDeep 0
  committed := true
  offset := 3
  remaining := ascii ['|', '-', '(', '7', ')', ')']
  location := ⟨Source.unknownFile, 1, 4, 3⟩

theorem offset_viable_tooNested :
    0 ≤ tooNested.limit ∧ tooNested.expressionAt 0 0 = .error tooNestedReport ∧
      ∃ behind r,
        (tooNested.deeper (ascii ['|', '-', '('] ++ behind)).expressionAt 0 0 = .ok r ∧
        r.stop = (ascii ['|', '-', '('] ++ behind).length := by
  have hlimit : 0 ≤ tooNested.limit := by decide
  have hread : tooNested.expressionAt 0 0 = .error tooNestedReport := rfl
  exact ⟨hlimit, hread, offset_viable tooNested hlimit hread⟩

end Document

end HoonReader
