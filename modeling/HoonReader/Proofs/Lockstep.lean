import HoonReader.Proofs.Choice
import HoonReader.Proofs.Gap
import HoonReader.Proofs.Paired
import HoonReader.Proofs.Spans
import HoonReader.Proofs.Stack

/-!
# Two readers in step

Two inputs can differ and still be read alike. What has to be known for this is which places of the
one go with which places of the other, and that whatever is looked at in one step is alike at such
places: tags, digits and pieces of gaps. Then two readers that set out at places that go together
take the same steps, and stay at such places until the end.

* `Skipper.InStep`, `Reader.InStep`: two readers keep to places that go together;
* `ReadAlike`: what has to be alike at places that go together;
* `ReadAlike.expression_inStep`: then expressions are read alike, with any room;
* `ReadAlike.parse_paired`: and so are two documents, from their start.

Line endings and the text of comments are laws of this kind about bytes; the order of the forms in a
table is one where only the tables differ.
-/

namespace HoonReader

open Twig

/-! ## 1. Readers in step -/

/-- Two failures go together: their causes do, they are committed alike, and their places go
    together. -/
structure Failure.Alike (causes : Cause → Cause → Prop) (places : Bytes → Bytes → Prop)
    (f f' : Failure) : Prop where
  cause : causes f.cause f'.cause
  committed : f'.committed = f.committed
  place : places f.place f'.place

/-- Two extents go together: they start and stop at places that do. -/
def Extent.Alike (places : Bytes → Bytes → Prop) (e e' : Extent) : Prop :=
  places e.start e'.start ∧ places e.stop e'.stop

/-- Two skippers keep in step: from places that go together they come to such places, or both
    fail at such places. -/
def Skipper.InStep (causes : Cause → Cause → Prop) (places : Bytes → Bytes → Prop)
    (skip skip' : Skipper) : Prop :=
  ∀ ⦃input input'⦄, places input input' →
    Paired (Failure.Alike causes places) places (skip input) (skip' input')

/-- Two readers keep in step, and the values they read are related. -/
def Reader.InStep {α β : Type} (causes : Cause → Cause → Prop) (places : Bytes → Bytes → Prop)
    (values : α → β → Prop) (reader : Reader α) (reader' : Reader β) : Prop :=
  ∀ ⦃input input'⦄, places input input' →
    Paired (Failure.Alike causes places) (fun p q => values p.1 q.1 ∧ places p.2 q.2)
      (reader input) (reader' input')

section Arguments

variable {α β : Type} {causes : Cause → Cause → Prop} {places : Bytes → Bytes → Prop}
  {values : α → β → Prop} {first : Reader α} {first' : Reader β} {readers : List (Reader α)}
  {readers' : List (Reader β)}

theorem wideMore_inStep
    (close : Skipper.InStep causes places (expect Tag.wideClose) (expect Tag.wideClose))
    (separator : Skipper.InStep causes places (expect Tag.wideSeparator) (expect Tag.wideSeparator))
    (h : List.Forall₂ (Reader.InStep causes places values) readers readers') :
    Reader.InStep causes places (List.Forall₂ values) (wideMore readers) (wideMore readers') := by
  induction h with
  | nil =>
    intro input input' hplaces
    exact (close hplaces).bind fun a b hab => .ok ⟨.nil, hab⟩
  | cons hr _ ih =>
    intro input input' hplaces
    refine (separator hplaces).bind fun a b hab => (hr hab).bind fun p q hpq => ?_
    exact (ih hpq.2).bind fun s t hst => .ok ⟨.cons hpq.1 hst.1, hst.2⟩

theorem wideForm_inStep
    (close : Skipper.InStep causes places (expect Tag.wideClose) (expect Tag.wideClose))
    (separator : Skipper.InStep causes places (expect Tag.wideSeparator) (expect Tag.wideSeparator))
    (hfirst : Reader.InStep causes places values first first')
    (h : List.Forall₂ (Reader.InStep causes places values) readers readers') :
    Reader.InStep causes places (ArgumentsRelated values) (wideForm first readers)
      (wideForm first' readers') := by
  intro input input' hplaces
  refine (hfirst hplaces).bind fun p q hpq => ?_
  exact (wideMore_inStep close separator h hpq.2).bind fun s t hst => .ok ⟨⟨hpq.1, hst.1⟩, hst.2⟩

theorem tallMore_inStep
    (close : Skipper.InStep causes places (expect Tag.tallEnd) (expect Tag.tallEnd))
    (between : Skipper.InStep causes places gap gap)
    (h : List.Forall₂ (Reader.InStep causes places values) readers readers') :
    Reader.InStep causes places (List.Forall₂ values) (tallMore readers) (tallMore readers') := by
  induction h with
  | nil =>
    intro input input' hplaces
    exact (close hplaces).bind fun a b hab => .ok ⟨.nil, hab⟩
  | cons hr _ ih =>
    intro input input' hplaces
    refine (hr hplaces).bind fun p q hpq => (between hpq.2).bind fun a b hab => ?_
    exact (ih hab).bind fun s t hst => .ok ⟨.cons hpq.1 hst.1, hst.2⟩

theorem tallForm_inStep
    (close : Skipper.InStep causes places (expect Tag.tallEnd) (expect Tag.tallEnd))
    (between : Skipper.InStep causes places gap gap)
    (hfirst : Reader.InStep causes places values first first')
    (h : List.Forall₂ (Reader.InStep causes places values) readers readers') :
    Reader.InStep causes places (ArgumentsRelated values) (tallForm first readers)
      (tallForm first' readers') := by
  intro input input' hplaces
  refine (hfirst hplaces).bind fun p q hpq => (between hpq.2).bind fun a b hab => ?_
  exact (tallMore_inStep close between h hab).bind fun s t hst => .ok ⟨⟨hpq.1, hst.1⟩, hst.2⟩

/-- Gaps keep in step if their pieces do. -/
theorem gapPieces_inStep (piece : Skipper.InStep causes places gapPiece gapPiece) :
    Skipper.InStep causes places gapPieces gapPieces := by
  intro input input' hplaces
  fun_induction gapPieces input generalizing input' with
  | case1 input rest hpiece ih =>
    have hpaired := piece hplaces
    rw [hpiece] at hpaired
    obtain ⟨rest', hpiece', hrest⟩ := hpaired.of_ok
    rw [gapPieces_ok hpiece']
    exact ih hrest
  | case2 input f hpiece hc =>
    have hpaired := piece hplaces
    rw [hpiece] at hpaired
    obtain ⟨f', hpiece', halike⟩ := hpaired.of_error
    rw [gapPieces_error hpiece', if_pos (halike.committed.trans hc)]
    exact .error halike
  | case3 input f hpiece hc =>
    have hpaired := piece hplaces
    rw [hpiece] at hpaired
    obtain ⟨f', hpiece', halike⟩ := hpaired.of_error
    rw [gapPieces_error hpiece', if_neg (halike.committed.symm ▸ hc)]
    exact .ok hplaces

theorem gap_inStep (piece : Skipper.InStep causes places gapPiece gapPiece) :
    Skipper.InStep causes places gap gap := by
  intro input input' hplaces
  have hpaired := piece hplaces
  cases hpiece : gapPiece input with
  | ok rest =>
    rw [hpiece] at hpaired
    obtain ⟨rest', hpiece', -⟩ := hpaired.of_ok
    rw [gap_eq_gapPieces hpiece, gap_eq_gapPieces hpiece']
    exact gapPieces_inStep piece hplaces
  | error f =>
    rw [hpiece] at hpaired
    obtain ⟨f', hpiece', halike⟩ := hpaired.of_error
    rw [gap_error hpiece, gap_error hpiece']
    exact .error halike

end Arguments

/-! ## 2. What has to be alike -/

/-- The tags that the reader of expressions looks for outside of gaps. -/
def Tag.ofExpressions : List Bytes :=
  [Tag.wideOpen, Tag.wideClose, Tag.wideSeparator, Tag.tallEnd] ++
    Rune.all.filterMap fun r => r.glyph?.map Glyph.bytes

theorem Form.glyph_mem (form : Form) : form.glyph.bytes ∈ Tag.ofExpressions := by
  refine List.mem_append_right _ (List.mem_filterMap.2 ⟨form.rune, form.rune.mem_all, ?_⟩)
  rw [form.glyph_eq]
  rfl

/-- A tag stands at both places, and what is behind it goes together, or it stands at neither. -/
def Tag.Alike (places : Bytes → Bytes → Prop) (tag input input' : Bytes) : Prop :=
  (∃ a a', input = tag ++ a ∧ input' = tag ++ a' ∧ places a a') ∨
    (standsAt tag input = false ∧ standsAt tag input' = false)

/-- Nothing more is asked of a tag where the places are one. -/
theorem Tag.Alike.self {places : Bytes → Bytes → Prop} {tag input : Bytes}
    (h : ∀ rest, input = tag ++ rest → places rest rest) : Tag.Alike places tag input input := by
  rcases standsAt_cases tag input with ⟨rest, hrest⟩ | hnone
  · exact .inl ⟨rest, rest, hrest, hrest, h rest hrest⟩
  · exact .inr ⟨hnone, hnone⟩

/-- What has to be alike at places that go together, for expressions to be read alike under two
    tables. -/
structure ReadAlike (table table' : Table) (causes : Cause → Cause → Prop)
    (places : Bytes → Bytes → Prop) : Prop where
  /-- The tables have the same forms. -/
  forms : ∀ form, form ∈ table.forms ↔ form ∈ table'.forms
  /-- A cause goes with itself. -/
  cause : ∀ cause, causes cause cause
  /-- A nesting that is too deep goes with nothing else. -/
  nesting : ∀ ⦃cause cause'⦄, causes cause cause' →
    ∀ limit, cause = .tooDeep limit ↔ cause' = .tooDeep limit
  tag : ∀ tag ∈ Tag.ofExpressions, ∀ ⦃input input'⦄, places input input' →
    Tag.Alike places tag input input'
  /-- The same digits stand at both places. -/
  digits : ∀ ⦃input input'⦄, places input input' →
    input'.takeWhile isDigit = input.takeWhile isDigit ∧
      places (input.dropWhile isDigit) (input'.dropWhile isDigit)
  /-- A piece of a gap is read alike. -/
  piece : Skipper.InStep causes places gapPiece gapPiece
  /-- That no expression begins here is said alike. -/
  noExpression : ∀ ⦃input input'⦄, places input input' →
    causes (noExpression table input).cause (noExpression table' input').cause

theorem digitStands_eq (input : Bytes) :
    digitStands input = !(input.takeWhile isDigit).isEmpty := by
  cases input with
  | nil => rfl
  | cons b rest =>
    rw [digitStands, List.takeWhile_cons]
    cases isDigit b <;> rfl

namespace ReadAlike

variable {table table' : Table} {causes : Cause → Cause → Prop} {places : Bytes → Bytes → Prop}
  (h : ReadAlike table table' causes places)

include h

theorem failure (cause : Cause) {input input' : Bytes} (hplaces : places input input') :
    Failure.Alike causes places (.of cause input) (.of cause input') :=
  ⟨h.cause cause, rfl, hplaces⟩

theorem digitStands_eq {input input' : Bytes} (hplaces : places input input') :
    digitStands input' = digitStands input := by
  rw [HoonReader.digitStands_eq, HoonReader.digitStands_eq, (h.digits hplaces).1]

theorem expect_inStep {tag : Bytes} (htag : tag ∈ Tag.ofExpressions) :
    Skipper.InStep causes places (expect tag) (expect tag) := by
  intro input input' hplaces
  rcases h.tag tag htag hplaces with ⟨a, a', rfl, rfl, hab⟩ | ⟨hnone, hnone'⟩
  · rw [expect_eq_ok_iff.2 rfl, expect_eq_ok_iff.2 rfl]
    exact .ok hab
  · rw [expect_eq_error_iff.2 ⟨hnone, rfl⟩, expect_eq_error_iff.2 ⟨hnone', rfl⟩]
    exact .error (h.failure _ hplaces)

/-! ## 3. Expressions -/

theorem formBody_inStep {reader reader' : Reader (Twig Extent)} (form : Form)
    (hreader : Reader.InStep causes places (Twig.Related (Extent.Alike places)) reader reader') :
    Reader.InStep causes places (ArgumentsRelated (Twig.Related (Extent.Alike places)))
      (formBody (Grammar.reader reader) form) (formBody (Grammar.reader reader') form) := by
  have hmore := form.forall₂_moreReaders hreader
  have hgap := gap_inStep h.piece
  intro input input' hplaces
  rcases h.tag Tag.wideOpen (by decide) hplaces with ⟨a, a', rfl, rfl, hab⟩ | ⟨hnone, hnone'⟩
  · rw [formBody_wide, formBody_wide]
    exact wideForm_inStep (h.expect_inStep (by decide)) (h.expect_inStep (by decide)) hreader
      hmore hab
  · rw [formBody_tall hnone, formBody_tall hnone']
    refine (hgap hplaces).bind fun a b hab => ?_
    exact tallForm_inStep (h.expect_inStep (by decide)) hgap hreader hmore hab

/-- **Expressions are read alike** at places that go together, with any room. -/
theorem expression_inStep (limit : Int) (room : Nat) :
    Reader.InStep causes places (Twig.Related (Extent.Alike places))
      (expression table limit room) (expression table' limit room) := by
  induction room with
  | zero => exact fun input input' hplaces => .error (h.failure _ hplaces)
  | succ n ih =>
    intro input input' hplaces
    rcases table.begins_cases input with ⟨form, hform, body, rfl⟩ | hd | ⟨hg, hd⟩
    · rcases h.tag _ form.glyph_mem hplaces with ⟨a, a', ha, rfl, hab⟩ | ⟨hnone, -⟩
      · -- behind the glyph both read the arguments, one level deeper
        have hform' := (h.forms form).1 hform
        have hpaired := h.formBody_inStep form ih hab
        rw [← List.append_cancel_left ha] at hpaired
        cases hb : formBody (Grammar.reader (expression table limit n)) form body with
        | error f =>
          rw [hb] at hpaired
          obtain ⟨f', hb', halike⟩ := hpaired.of_error
          rw [expression_error_of_body hform hb, expression_error_of_body hform' hb']
          exact .error ⟨halike.cause, rfl, halike.place⟩
        | ok p =>
          obtain ⟨⟨first, more⟩, rest⟩ := p
          rw [hb] at hpaired
          obtain ⟨⟨⟨first', more'⟩, rest'⟩, hb', harguments, hrest⟩ := hpaired.of_ok
          rw [expression_ok_of_body hform hb, expression_ok_of_body hform' hb']
          refine .ok ⟨.cell (.rune _) (harguments.1.fold harguments.2) (.some ⟨hplaces, hrest⟩), ?_⟩
          exact hrest
      · rw [standsAt_iff.2 ⟨body, rfl⟩] at hnone
        cases hnone
    · obtain ⟨htake, hdrop⟩ := h.digits hplaces
      have hnote : Option.Rel (Extent.Alike places) (some ⟨input, input.dropWhile isDigit⟩)
          (some ⟨input', input'.dropWhile isDigit⟩) := .some ⟨hplaces, hdrop⟩
      rw [expression_digit hd, expression_digit ((h.digitStands_eq hplaces).trans hd)]
      refine .ok ⟨?_, hdrop⟩
      rw [literalTwig, literalTwig, htake]
      exact .cell (.rune .dtzy) (.literal .ud _ hnote) hnote
    · have hg' : ∀ form ∈ table'.forms, standsAt form.glyph.bytes input' = false := by
        intro form hform
        rcases h.tag _ form.glyph_mem hplaces with ⟨a, a', rfl, rfl, -⟩ | ⟨-, hnone'⟩
        · have hstands := hg form ((h.forms form).2 hform)
          rw [standsAt_iff.2 ⟨a, rfl⟩] at hstands
          cases hstands
        · exact hnone'
      rw [expression_none hg hd, expression_none hg' ((h.digitStands_eq hplaces).trans hd)]
      exact .error ⟨h.noExpression hplaces, rfl, hplaces⟩

end ReadAlike

/-! ## 4. Documents -/

/-- The location of a place is a matter of what was passed in front of it. -/
theorem Source.location_passed {s : Source} {passed rest : Bytes} (h : s.bytes = passed ++ rest) :
    s.location (s.offsetOf 0 rest) = .past s.file passed := by
  rw [offsetOf_passed h, location, h, Location.ofOffset_length]

/-- The reports of two failures that go together. -/
inductive ReportedAlike (s s' : Source) (causes : Cause → Cause → Prop)
    (places : Bytes → Bytes → Prop) : Report → Report → Prop where
  | mk {f f' : Failure} (h : Failure.Alike causes places f f') :
      ReportedAlike s s' causes places (s.reportOf 0 f) (s'.reportOf 0 f')

/-- Twigs with extents that go together, located in their sources, and the offsets where places are
    left that go together. -/
inductive LocatedAlike (s s' : Source) (places : Bytes → Bytes → Prop) :
    Reading → Reading → Prop where
  | mk {t t' : Twig Extent} {rest rest' : Bytes} (twig : t.Related (Extent.Alike places) t')
      (stop : places rest rest') :
      LocatedAlike s s' places ⟨s.located 0 t, s.offsetOf 0 rest⟩
        ⟨s'.located 0 t', s'.offsetOf 0 rest'⟩

/-- That the stack was exhausted is reported at the start. -/
theorem Document.exhausted_eq (d : Document) :
    d.exhausted = d.source.reportOf 0 ⟨.stackExhausted d.limit, true, d.source.bytes⟩ := by
  have hzero : d.source.offsetOf 0 d.source.bytes = 0 := by
    show 0 + (d.source.bytes.length - d.source.bytes.length) = 0
    rw [Nat.sub_self]
  rw [exhausted, Source.reportOf, hzero]

namespace ReadAlike

variable (d d' : Document) {causes : Cause → Cause → Prop} {places : Bytes → Bytes → Prop}

theorem expressionAt_paired (h : ReadAlike d.table d'.table causes places)
    (limit : d'.limit = d.limit) (start : places d.source.bytes d'.source.bytes) :
    Paired (ReportedAlike d.source d'.source causes places) (LocatedAlike d.source d'.source places)
      (d.expressionAt 0 0) (d'.expressionAt 0 0) := by
  have hpaired := h.expression_inStep d.limit (room d.limit 0) start
  cases hread : expression d.table d.limit (room d.limit 0) d.source.bytes with
  | error f =>
    rw [hread] at hpaired
    obtain ⟨f', hread', halike⟩ := hpaired.of_error
    rw [← limit] at hread'
    have he : d.expressionAt 0 0 = .error (d.source.reportOf 0 f) :=
      Document.expressionAt_eq_error_iff.2 ⟨f, hread, rfl⟩
    have he' : d'.expressionAt 0 0 = .error (d'.source.reportOf 0 f') :=
      Document.expressionAt_eq_error_iff.2 ⟨f', hread', rfl⟩
    rw [he, he']
    exact .error ⟨halike⟩
  | ok p =>
    obtain ⟨t, rest⟩ := p
    rw [hread] at hpaired
    obtain ⟨⟨t', rest'⟩, hread', htwig, hrest⟩ := hpaired.of_ok
    rw [← limit] at hread'
    have hr : d.expressionAt 0 0 = .ok ⟨d.source.located 0 t, d.source.offsetOf 0 rest⟩ :=
      Document.expressionAt_eq_ok_iff.2 ⟨t, rest, hread, rfl⟩
    have hr' : d'.expressionAt 0 0 = .ok ⟨d'.source.located 0 t', d'.source.offsetOf 0 rest'⟩ :=
      Document.expressionAt_eq_ok_iff.2 ⟨t', rest', hread', rfl⟩
    rw [hr, hr']
    exact .ok ⟨htwig, hrest⟩

/-- **Two documents are read alike** from their start, the stack included. -/
theorem parse_paired (h : ReadAlike d.table d'.table causes places) (limit : d'.limit = d.limit)
    (start : places d.source.bytes d'.source.bytes) :
    Paired (ReportedAlike d.source d'.source causes places) (LocatedAlike d.source d'.source places)
      d.parse d'.parse := by
  have hlimit : d'.onStack.limit = d.onStack.limit := by
    show min d'.limit _ = min d.limit _
    rw [limit]
  have hpaired := expressionAt_paired d.onStack d'.onStack h hlimit start
  rw [Document.parse_eq_onStack, Document.parse_eq_onStack]
  cases hread : d.onStack.expressionAt 0 0 with
  | ok r =>
    rw [hread] at hpaired
    obtain ⟨r', hread', hr⟩ := hpaired.of_ok
    rw [hread']
    exact .ok hr
  | error e =>
    rw [hread] at hpaired
    obtain ⟨e', hread', he⟩ := hpaired.of_error
    rw [hread']
    have hexhausts : d'.Exhausts e'.cause ↔ d.Exhausts e.cause := by
      cases he with
      | mk halike =>
        show _ < d'.limit ∧ _ ↔ _ < d.limit ∧ _
        rw [limit]
        exact and_congr_right fun _ => (h.nesting halike.cause _).symm
    by_cases hx : d.Exhausts e.cause
    · simp only [if_pos hx, if_pos (hexhausts.2 hx)]
      rw [Document.exhausted_eq, Document.exhausted_eq, limit]
      exact .error ⟨h.cause _, rfl, start⟩
    · simp only [if_neg hx, if_neg (mt hexhausts.1 hx)]
      exact .error he

end ReadAlike

end HoonReader
