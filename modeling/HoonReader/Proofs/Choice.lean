import HoonReader.Proofs.Arguments
import HoonReader.Proofs.Numerals
import HoonReader.Proofs.Piece

/-!
# What the choice between alternatives does

The choice looks ahead and then commits itself. Here the look-ahead is resolved: the glyph that
stands at the input decides the form, because the glyphs of a table are distinct, all two bytes
long, and none begins with a digit.

* `literal_of_digit`: where a digit stands, a literal is read and nothing can fail;
* `expression_eq_ok_iff`, `expression_eq_error_iff`: when an expression is read and when reading one
  fails, one level of nesting at a time.
-/

namespace HoonReader

/-! ## 1. Look-ahead -/

/-- No glyph begins with a digit, a blank, a tab or a colon. -/
theorem Rune.glyph_first {r : Rune} {g : Glyph} (h : r.glyph? = some g) :
    isDigit g.first = false ∧ isBlank g.first = false ∧ g.first ≠ Byte.tab ∧
      g.first ≠ Byte.colon := by
  cases r <;> cases h <;> decide

/-- The rune of literals has no glyph, so no form is one of it. -/
theorem Form.rune_ne_dtzy (form : Form) : form.rune ≠ .dtzy := by
  intro hrune
  have hglyph := form.glyph_eq
  rw [hrune] at hglyph
  cases hglyph

theorem Form.digitStands_glyph (form : Form) (rest : Bytes) :
    digitStands (form.glyph.bytes ++ rest) = false :=
  (Rune.glyph_first form.glyph_eq).1

section Choice

variable {table : Table} {form : Form} {input : Bytes}

/-- The glyphs of a table are told apart by what stands here. -/
theorem Table.eq_of_stands {form' : Form} {a b : Bytes} (h : form ∈ table.forms)
    (h' : form' ∈ table.forms) (e : form.glyph.bytes ++ a = form'.glyph.bytes ++ b) :
    form = form' := by
  have hbytes : form.glyph.bytes = form'.glyph.bytes := (List.append_inj e rfl).1
  have hl := Table.lookup_eq_some_iff.2 ⟨h, rfl⟩
  have hl' := Table.lookup_eq_some_iff.2 ⟨h', rfl⟩
  rw [hbytes, hl'] at hl
  cases hl
  rfl

theorem Table.mem_alternatives {alternative : Alternative} :
    alternative ∈ table.alternatives ↔
      (∃ form ∈ table.forms, alternative = .application form) ∨ alternative = .literal := by
  simp [Table.alternatives, eq_comm]

theorem find_application (h : form ∈ table.forms) (rest : Bytes) :
    table.alternatives.find? (·.begins (form.glyph.bytes ++ rest)) =
      some (.application form) := by
  have hsome : (table.alternatives.find? (·.begins (form.glyph.bytes ++ rest))).isSome := by
    rw [List.find?_isSome]
    exact ⟨.application form, Table.mem_alternatives.2 (.inl ⟨form, h, rfl⟩),
      standsAt_iff.2 ⟨rest, rfl⟩⟩
  obtain ⟨alternative, hfind⟩ := Option.isSome_iff_exists.1 hsome
  rw [hfind]
  have hbegins := List.find?_some hfind
  rcases Table.mem_alternatives.1 (List.mem_of_find?_eq_some hfind) with ⟨form', h', rfl⟩ | rfl
  · obtain ⟨rest', e⟩ := standsAt_iff.1 hbegins
    rw [Table.eq_of_stands h h' e]
  · have hdigit : digitStands (form.glyph.bytes ++ rest) = true := hbegins
    rw [form.digitStands_glyph rest] at hdigit
    cases hdigit

theorem find_literal (h : digitStands input = true) :
    table.alternatives.find? (·.begins input) = some .literal := by
  have hsome : (table.alternatives.find? (·.begins input)).isSome := by
    rw [List.find?_isSome]
    exact ⟨.literal, Table.mem_alternatives.2 (.inr rfl), h⟩
  obtain ⟨alternative, hfind⟩ := Option.isSome_iff_exists.1 hsome
  rw [hfind]
  have hbegins := List.find?_some hfind
  rcases Table.mem_alternatives.1 (List.mem_of_find?_eq_some hfind) with ⟨form', h', rfl⟩ | rfl
  · obtain ⟨rest, rfl⟩ := standsAt_iff.1 hbegins
    rw [form'.digitStands_glyph rest] at h
    cases h
  · rfl

theorem find_none (glyphs : ∀ form ∈ table.forms, standsAt form.glyph.bytes input = false)
    (digit : digitStands input = false) :
    table.alternatives.find? (·.begins input) = none := by
  rw [List.find?_eq_none]
  intro alternative hmem hbegins
  rcases Table.mem_alternatives.1 hmem with ⟨form, h, rfl⟩ | rfl
  · have hstands : standsAt form.glyph.bytes input = true := hbegins
    rw [glyphs form h] at hstands
    cases hstands
  · have hdigit : digitStands input = true := hbegins
    rw [digit] at hdigit
    cases hdigit

/-- A registered glyph stands here, or a digit, or neither. -/
theorem Table.begins_cases (table : Table) (input : Bytes) :
    (∃ form ∈ table.forms, ∃ body, input = form.glyph.bytes ++ body) ∨
    digitStands input = true ∨
    ((∀ form ∈ table.forms, standsAt form.glyph.bytes input = false) ∧
      digitStands input = false) := by
  by_cases hf : ∃ form ∈ table.forms, standsAt form.glyph.bytes input = true
  · obtain ⟨form, h, hstands⟩ := hf
    exact .inl ⟨form, h, standsAt_iff.1 hstands⟩
  · by_cases hd : digitStands input = true
    · exact .inr (.inl hd)
    · refine .inr (.inr ⟨?_, by simpa using hd⟩)
      intro form h
      by_contra hstands
      exact hf ⟨form, h, by simpa using hstands⟩

end Choice

/-! ## 2. Expressions -/

theorem takeWhile_digits_ne_nil {input : Bytes} (h : digitStands input = true) :
    input.takeWhile isDigit ≠ [] := by
  cases input with
  | nil => cases h
  | cons b rest =>
    have hb : isDigit b = true := h
    simp [hb]

/-- The twig of a literal, with the value of the digits that stand at the input. -/
def literalTwig (input : Bytes) : Twig Extent :=
  .ofValue .ud (.number (Decimal.positional (input.takeWhile isDigit)))
    (some ⟨input, input.dropWhile isDigit⟩)

/-- **Where a digit stands, a literal is read and nothing can fail.** -/
theorem literal_of_digit {input : Bytes} (h : digitStands input = true) :
    literal input = .ok (literalTwig input, input.dropWhile isDigit) := by
  have hdigits : digits input = .ok (input.takeWhile isDigit, input.dropWhile isDigit) := by
    rw [digits, if_pos h]
  have hdecode : Odor.ud.decode (input.takeWhile isDigit) =
      .ok (Decimal.positional (input.takeWhile isDigit)) :=
    Odor.decode_ud (takeWhile_digits_ne_nil h) (List.all_eq_true.1 List.all_takeWhile)
  simp only [literal, hdigits, bind, Except.bind, hdecode]
  rfl

section Expression

variable {table : Table} {limit : Int} {n : Nat} {input rest : Bytes} {f : Failure}

theorem expression_digit (h : digitStands input = true) :
    expression table limit (n + 1) input = .ok (literalTwig input, input.dropWhile isDigit) := by
  rw [expression, find_literal h]
  simp only [Alternative.read, literal_of_digit h]
  rfl

theorem expression_none (glyphs : ∀ form ∈ table.forms, standsAt form.glyph.bytes input = false)
    (digit : digitStands input = false) :
    expression table limit (n + 1) input = .error (noExpression table input) := by
  rw [expression, find_none glyphs digit]

theorem expression_ok_of_body {form : Form} (h : form ∈ table.forms) {body : Bytes}
    {first : Twig Extent} {more : List (Twig Extent)}
    (hb : formBody (Grammar.reader (expression table limit n)) form body =
      .ok ((first, more), rest)) :
    expression table limit (n + 1) (form.glyph.bytes ++ body) =
      .ok (.apply form.rune (.fold first more) (some ⟨form.glyph.bytes ++ body, rest⟩), rest) := by
  rw [expression, find_application h]
  simp only [Alternative.read, application, after?_append, hb]
  rfl

theorem expression_error_of_body {form : Form} (h : form ∈ table.forms) {body : Bytes}
    (hb : formBody (Grammar.reader (expression table limit n)) form body = .error f) :
    expression table limit (n + 1) (form.glyph.bytes ++ body) = .error f.commit := by
  rw [expression, find_application h]
  simp only [Alternative.read, application, after?_append, hb]
  rfl

/-- **An expression is read where a registered glyph stands and its body is read, or a digit.** -/
theorem expression_eq_ok_iff {t : Twig Extent} :
    expression table limit (n + 1) input = .ok (t, rest) ↔
      (∃ form ∈ table.forms, ∃ body first more, input = form.glyph.bytes ++ body ∧
        formBody (Grammar.reader (expression table limit n)) form body =
          .ok ((first, more), rest) ∧
        t = .apply form.rune (.fold first more) (some ⟨input, rest⟩)) ∨
      (digitStands input = true ∧ t = literalTwig input ∧ rest = input.dropWhile isDigit) := by
  constructor
  · intro h
    rcases table.begins_cases input with ⟨form, hform, body, rfl⟩ | hd | ⟨hg, hd⟩
    · cases hb : formBody (Grammar.reader (expression table limit n)) form body with
      | error f =>
        rw [expression_error_of_body hform hb] at h
        cases h
      | ok p =>
        obtain ⟨⟨first, more⟩, r⟩ := p
        rw [expression_ok_of_body hform hb] at h
        cases h
        exact .inl ⟨form, hform, body, first, more, rfl, hb, rfl⟩
    · rw [expression_digit hd] at h
      cases h
      exact .inr ⟨hd, rfl, rfl⟩
    · rw [expression_none hg hd] at h
      cases h
  · intro h
    rcases h with ⟨form, hform, body, first, more, rfl, hb, rfl⟩ | ⟨hd, rfl, rfl⟩
    · exact expression_ok_of_body hform hb
    · exact expression_digit hd

/-- **Reading an expression fails in the body of a registered glyph, or because neither such a
    glyph nor a digit stands here.** -/
theorem expression_eq_error_iff :
    expression table limit (n + 1) input = .error f ↔
      (∃ form ∈ table.forms, ∃ body e, input = form.glyph.bytes ++ body ∧
        formBody (Grammar.reader (expression table limit n)) form body = .error e ∧
        f = e.commit) ∨
      ((∀ form ∈ table.forms, standsAt form.glyph.bytes input = false) ∧
        digitStands input = false ∧ f = noExpression table input) := by
  constructor
  · intro h
    rcases table.begins_cases input with ⟨form, hform, body, rfl⟩ | hd | ⟨hg, hd⟩
    · cases hb : formBody (Grammar.reader (expression table limit n)) form body with
      | error e =>
        rw [expression_error_of_body hform hb] at h
        cases h
        exact .inl ⟨form, hform, body, e, rfl, hb, rfl⟩
      | ok p =>
        obtain ⟨⟨first, more⟩, r⟩ := p
        rw [expression_ok_of_body hform hb] at h
        cases h
    · rw [expression_digit hd] at h
      cases h
    · rw [expression_none hg hd] at h
      cases h
      exact .inr ⟨hg, hd, rfl⟩
  · intro h
    rcases h with ⟨form, hform, body, e, rfl, hb, rfl⟩ | ⟨hg, hd, rfl⟩
    · exact expression_error_of_body hform hb
    · exact expression_none hg hd

end Expression

end HoonReader
