import HoonReader.Expression.Spelling
import HoonReader.Proofs.Choice
import HoonReader.Proofs.Gap
import HoonReader.Twig.Context

/-!
# Facts about spellings

What is needed of the texts that spell a twig, apart from any reader:

* `Spells.solid`: a spelling begins with a digit or a glyph, so no gap runs into it, and what stands
  behind a spelling inside of a form never begins with a digit, so no literal runs out of it
  (`digitStands_wideTail`, `digitStands_gap`);
* `nesting_apply_lt_iff`: the bound on the nesting of an application, argument by argument;
* `Spells.wellFormed`: only well-formed twigs have spellings.
-/

namespace HoonReader

open Twig

variable {table : Table}

/-! ## 1. Notes do not matter -/

section Bare

variable {σ τ : Type}

@[simp] theorem Twig.bare_map (f : σ → τ) (t : Twig σ) : (t.map f).bare = t.bare := by
  induction t with
  | literal odor value note => rfl
  | cell head tail note ihead itail => simp [Twig.map, Twig.bare, ihead, itail]
  | rune r => rfl

theorem Twig.bare_apply (r : Rune) (t : Twig σ) (note : Option σ) :
    (apply r t note).bare = apply r t.bare none := rfl

theorem Twig.bare_ofValue (odor : Odor) (value : Value) (note : Option σ) :
    (ofValue odor value note).bare = ofValue odor value none := rfl

theorem Twig.nestingOf_bare (t : Twig σ) (more : Nat) :
    t.bare.nestingOf more = t.nestingOf more := by
  fun_induction Twig.nestingOf t more with
  | case1 head tail note more ihead itail => simp [Twig.bare, nestingOf, ihead, itail]
  | case2 r tail note hr itail => simp [Twig.bare, nestingOf, hr, itail]
  | case3 r tail note hr => simp [Twig.bare, nestingOf, hr]
  | case4 t more h1 h2 =>
    cases t with
    | literal odor value note => rfl
    | rune r => rfl
    | cell head tail note =>
      cases more with
      | succ more => exact absurd rfl (h1 head tail note more rfl)
      | zero =>
        cases head with
        | rune r => exact absurd rfl (h2 r tail note rfl)
        | literal odor value note' => rfl
        | cell a b note' => rfl

/-- Nesting does not depend on the notes. -/
theorem Twig.nesting_bare (t : Twig σ) : t.bare.nesting = t.nesting :=
  t.nestingOf_bare 0

end Bare

/-! ## 2. The nesting of an application -/

theorem maxNesting_lt_iff {n : Nat} (first : BareTwig) (more : List BareTwig) :
    maxNesting (first :: more) < n ↔ ∀ t ∈ first :: more, t.nesting < n := by
  induction more generalizing first with
  | nil => simp [maxNesting]
  | cons second more ih =>
    have hstep : maxNesting (first :: second :: more) =
        max first.nesting (maxNesting (second :: more)) := rfl
    rw [hstep, Nat.max_lt, ih, List.forall_mem_cons (a := first)]

/-- **An application stays below a depth if its arguments stay below the one before.** -/
theorem nesting_apply_lt_iff {α : Type} {r : Rune} (hr : r.glyph?.isSome) {n : Nat}
    (twig : α → BareTwig) (first : α) (more : List α) (h : more.length + 1 = r.arity) :
    (apply r (fold (twig first) (more.map twig)) none).nesting < n + 1 ↔
      ∀ a ∈ first :: more, (twig a).nesting < n := by
  have hall : (∀ a ∈ first :: more, (twig a).nesting < n) ↔
      ∀ t ∈ twig first :: more.map twig, t.nesting < n := by
    rw [← List.map_cons, List.forall_mem_map]
  rw [nesting_apply_fold hr _ _ none (by simpa using h), hall, ← maxNesting_lt_iff]
  omega

theorem Form.glyph_isSome (form : Form) : form.rune.glyph?.isSome := by
  rw [form.glyph_eq]
  rfl

/-! ## 3. What stands at the start of a text -/

theorem isDigit_of_gapByte {b : UInt8} (h : isGapByte b = true) : isDigit b = false := by
  have hb : (((b = Byte.space ∨ b = Byte.newline) ∨ b = Byte.carriageReturn) ∨ b = Byte.tab) ∨
      b = Byte.colon := by
    simpa [isGapByte, isBlank] using h
  rcases hb with (((rfl | rfl) | rfl) | rfl) | rfl <;> rfl

theorem isGapByte_of_digit {b : UInt8} (h : isDigit b = true) : isGapByte b = false := by
  cases hb : isGapByte b with
  | false => rfl
  | true =>
    rw [isDigit_of_gapByte hb] at h
    cases h

theorem Form.solid (form : Form) (rest : Bytes) : Solid (form.glyph.bytes ++ rest) := by
  obtain ⟨-, hblank, htab, hcolon⟩ := Rune.glyph_first form.glyph_eq
  refine ⟨form.glyph.first, form.glyph.second :: rest, rfl, ?_⟩
  simp [isGapByte, hblank, htab, hcolon]

/-- **A spelling begins with something solid.** -/
theorem Spells.solid {text : Bytes} {t : BareTwig} (h : Spells table text t) : Solid text := by
  cases h with
  | literal nonempty digits =>
    cases text with
    | nil => exact absurd rfl nonempty
    | cons b rest => exact ⟨b, rest, rfl, isGapByte_of_digit (digits b List.mem_cons_self)⟩
  | @wide form first more registered length arguments =>
    rw [List.append_assoc, List.append_assoc]
    exact form.solid _
  | @tall form opening first more registered length opened gaps arguments =>
    rw [List.append_assoc, List.append_assoc]
    exact form.solid _

theorem solid_tallEnd (rest : Bytes) : Solid (Tag.tallEnd ++ rest) :=
  ⟨0x3d, 0x3d :: rest, rfl, by decide⟩

/-- A gap begins with a blank or a colon. -/
theorem IsPiece.head {piece : Bytes} (h : IsPiece piece) :
    ∃ b rest, piece = b :: rest ∧ (isBlank b = true ∨ b = Byte.colon) := by
  cases h with
  | blanks blank long =>
    cases piece with
    | nil => exact absurd rfl (ne_nil_of_long long)
    | cons b rest => exact ⟨b, rest, rfl, .inl (blank b List.mem_cons_self)⟩
  | @comment body inside => exact ⟨Byte.colon, _, rfl, .inr rfl⟩

theorem IsGap.head {text : Bytes} (h : IsGap text) :
    ∃ b rest, text = b :: rest ∧ (isBlank b = true ∨ b = Byte.colon) := by
  obtain ⟨hne, hpieces⟩ := h
  cases hpieces with
  | nil => exact absurd rfl hne
  | @cons piece rest first more =>
    obtain ⟨b, tail, rfl, hb⟩ := first.head
    exact ⟨b, tail ++ rest, rfl, hb⟩

theorem IsGap.isGapByte_head {text : Bytes} (h : IsGap text) :
    ∃ b rest, text = b :: rest ∧ isGapByte b = true := by
  obtain ⟨b, rest, rfl, hb⟩ := h.head
  refine ⟨b, rest, rfl, ?_⟩
  rcases hb with hb | rfl
  · simp [isGapByte, hb]
  · rfl

/-- No digit stands where a gap begins. -/
theorem digitStands_gap {text : Bytes} (h : IsGap text) (rest : Bytes) :
    digitStands (text ++ rest) = false := by
  obtain ⟨b, tail, rfl, hb⟩ := h.isGapByte_head
  exact isDigit_of_gapByte hb

/-- No parenthesis stands where a gap begins. -/
theorem wideOpen_gap {text : Bytes} (h : IsGap text) (rest : Bytes) :
    standsAt Tag.wideOpen (text ++ rest) = false := by
  obtain ⟨b, tail, rfl, hb⟩ := h.isGapByte_head
  have hne : ¬ (0x28 : UInt8) = b := by
    intro e
    rw [← e] at hb
    exact absurd hb (by decide)
  simp [standsAt, Tag.wideOpen, ascii, after?, hne]

/-! ## 4. The texts of argument lists -/

/-- The texts of further arguments of the wide form, each behind a space. -/
def wideTail (more : List Spelling) : Bytes :=
  more.flatMap fun a => Tag.wideSeparator ++ a.text

@[simp] theorem wideTail_nil : wideTail [] = [] := rfl

@[simp] theorem wideTail_cons (a : Spelling) (more : List Spelling) :
    wideTail (a :: more) = Tag.wideSeparator ++ a.text ++ wideTail more := rfl

theorem wideText_cons (first : Spelling) (more : List Spelling) :
    wideText (first :: more) = first.text ++ wideTail more := by
  rw [wideText, List.map_cons, intercalate_cons, List.flatMap_map]
  rfl

/-- No digit stands behind an argument of the wide form. -/
theorem digitStands_wideTail (more : List Spelling) (rest : Bytes) :
    digitStands (wideTail more ++ Tag.wideClose ++ rest) = false := by
  cases more with
  | nil => rfl
  | cons a more => rfl

@[simp] theorem tallText_nil : tallText [] = [] := rfl

@[simp] theorem tallText_cons (a : TallSpelling) (more : List TallSpelling) :
    tallText (a :: more) = a.text ++ a.gap ++ tallText more := rfl

/-- Where the next argument of the tall form or its end is due, something solid stands. -/
theorem solid_tallText {more : List TallSpelling}
    (arguments : ∀ a ∈ more, Spells table a.text a.twig) (rest : Bytes) :
    Solid (tallText more ++ Tag.tallEnd ++ rest) := by
  cases more with
  | nil => exact solid_tallEnd rest
  | cons a more =>
    have hsolid := (arguments a List.mem_cons_self).solid
    rw [tallText_cons]
    simp only [List.append_assoc]
    exact hsolid.append _

/-! ## 5. Only well-formed twigs are spelled -/

theorem wellFormed_application {α : Type} {form : Form} (twig : α → BareTwig) {first : α}
    {more : List α} (length : more.length + 1 = form.rune.arity)
    (arguments : ∀ a ∈ first :: more, WellFormed (twig a)) :
    WellFormed (apply form.rune (fold (twig first) (more.map twig)) none) := by
  refine .application form.glyph_isSome (by rwa [List.length_map]) ?_
  rw [← List.map_cons, List.forall_mem_map]
  exact arguments

/-- **Only well-formed twigs have spellings.** -/
theorem Spells.wellFormed {text : Bytes} {t : BareTwig} (h : Spells table text t) :
    WellFormed t := by
  induction h with
  | literal nonempty digits => exact .literal _
  | wide registered length arguments ih => exact wellFormed_application _ length ih
  | tall registered length opened gaps arguments ih => exact wellFormed_application _ length ih

end HoonReader
