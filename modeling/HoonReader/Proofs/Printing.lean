import HoonReader.Proofs.Grammar
import HoonReader.Twig.Wide

/-!
# Printing a twig and reading it back

The wide printer writes any twig whose literals can be written and whose runes find their arguments,
well-formed or not. This file says which of these texts are read back as the twig they were printed
from: those of well-formed twigs, as deep as the limit allows, and no other.

* `WellFormed.wide_spells`: a well-formed twig is printed, and its text spells it;
* `HoldsNumbers.same_iff`: among twigs whose literals hold numbers, being the same is being equal
  apart from the notes, and only such twigs are printed (`holdsNumbers_of_wide`).

The direction from reading back to well-formed does not look at the printer at all: whatever is read
is well-formed. So no text of a twig that is not can be read as that twig.
-/

namespace HoonReader.Twig

variable {σ τ : Type}

/-! ## 1. The printer does not see notes -/

theorem unfoldMore_bare (more : Nat) (t : Twig σ) :
    unfoldMore more t.bare = (unfoldMore more t).map (List.map bare) := by
  induction more generalizing t with
  | zero => rfl
  | succ more ih =>
    cases t with
    | literal odor value note => rfl
    | rune r => rfl
    | cell head tail note =>
      simp only [bare, unfoldMore, ih]
      cases unfoldMore more tail <;> rfl

theorem unfold_bare (t : Twig σ) (count : Int) :
    t.bare.unfold count = (t.unfold count).map (List.map bare) :=
  unfoldMore_bare _ t

theorem wideArguments_bare (t : Twig σ) (more : Nat) :
    t.bare.wideArguments more = t.wideArguments more := by
  fun_induction wideArguments t more with
  | case1 head tail note more ihead itail => simp only [bare, wideArguments, ihead, itail]
  | case2 t more h =>
    cases t with
    | literal odor value note => rfl
    | rune r => rfl
    | cell head tail note => exact absurd rfl (h head tail note)
  | case3 odor value note => rfl
  | case4 r => rfl
  | case5 r tail note hr ih => simp only [bare, wideArguments, hr, ih]
  | case6 r tail note glyph hr ih =>
    simp only [bare, wideArguments, hr, ih, unfold_bare]
    cases tail.unfold r.arity <;> rfl
  | case7 head tail note h ihead itail =>
    cases head with
    | rune r => exact absurd rfl (h r)
    | literal odor value note' => simp only [bare, wideArguments, itail]
    | cell a b note' =>
      simp only [bare] at ihead
      simp only [bare, wideArguments, ihead, itail]

/-- The printer does not see notes. -/
theorem wide_bare (t : Twig σ) : t.bare.wide = t.wide :=
  t.wideArguments_bare 0

/-! ## 2. Only numbers are printed -/

/-- Every literal of the twig holds a number. -/
def HoldsNumbers : Twig σ → Prop
  | literal _ value _ => ∃ n, value = .number n
  | cell head tail _ => head.HoldsNumbers ∧ tail.HoldsNumbers
  | rune _ => True

theorem holdsNumbers_bare (t : Twig σ) : t.bare.HoldsNumbers ↔ t.HoldsNumbers := by
  induction t with
  | literal odor value note => rfl
  | cell head tail note ihead itail => exact and_congr ihead itail
  | rune r => rfl

theorem number_of_encode {odor : Odor} {value : Value} {text : Bytes}
    (h : odor.encode value = .ok text) : ∃ n : Nat, value = .number n ∧ text = Decimal.write n := by
  cases odor
  cases value with
  | number n =>
    cases n with
    | ofNat n => exact ⟨n, rfl, (Except.ok.inj h).symm⟩
    | negSucc n => cases h
  | truth b => cases h
  | text s => cases h
  | nothing => cases h

theorem holdsNumbers_of_wideArguments {t : Twig σ} {more : Nat} {text : Bytes}
    (h : t.wideArguments more = .ok text) : t.HoldsNumbers := by
  fun_induction wideArguments t more generalizing text with
  | case1 head tail note more ihead itail =>
    obtain ⟨first, hfirst, h⟩ := bind_eq_ok_iff.1 h
    obtain ⟨others, hothers, -⟩ := bind_eq_ok_iff.1 h
    exact ⟨ihead hfirst, itail hothers⟩
  | case2 t more hne => cases h
  | case3 odor value note =>
    cases he : odor.encode value with
    | error e =>
      rw [he] at h
      cases h
    | ok digits =>
      obtain ⟨n, hn, -⟩ := number_of_encode he
      exact ⟨n, hn⟩
  | case4 r => trivial
  | case5 r tail note hr ih => exact ⟨trivial, ih h⟩
  | case6 r tail note glyph hr ih =>
    obtain ⟨items, -, h⟩ := bind_eq_ok_iff.1 h
    obtain ⟨others, hothers, -⟩ := bind_eq_ok_iff.1 h
    exact ⟨trivial, ih hothers⟩
  | case7 head tail note hne ihead itail =>
    obtain ⟨first, hfirst, h⟩ := bind_eq_ok_iff.1 h
    obtain ⟨others, hothers, -⟩ := bind_eq_ok_iff.1 h
    exact ⟨ihead hfirst, itail hothers⟩

/-- **A twig that is printed holds numbers only**: every literal of it is written. -/
theorem holdsNumbers_of_wide {t : Twig σ} {text : Bytes} (h : t.wide = .ok text) :
    t.HoldsNumbers :=
  holdsNumbers_of_wideArguments h

/-- Every literal of the twig holds a number that is not negative. -/
def HoldsNaturals : Twig σ → Prop
  | literal _ value _ => ∃ n : Nat, value = .number n
  | cell head tail _ => head.HoldsNaturals ∧ tail.HoldsNaturals
  | rune _ => True

theorem HoldsNaturals.holdsNumbers {t : Twig σ} (h : t.HoldsNaturals) : t.HoldsNumbers := by
  induction t with
  | literal odor value note =>
    obtain ⟨n, hn⟩ := h
    exact ⟨n, hn⟩
  | cell head tail note ihead itail => exact ⟨ihead h.1, itail h.2⟩
  | rune r => trivial

theorem holdsNaturals_fold {first : Twig σ} {more : List (Twig σ)}
    (h : ∀ t ∈ first :: more, t.HoldsNaturals) : (fold first more).HoldsNaturals := by
  induction more generalizing first with
  | nil => exact h first List.mem_cons_self
  | cons second more ih =>
    obtain ⟨hfirst, hmore⟩ := List.forall_mem_cons.1 h
    exact ⟨hfirst, ih hmore⟩

theorem WellFormed.holdsNaturals {t : BareTwig} (h : WellFormed t) : t.HoldsNaturals := by
  induction h with
  | literal n => exact ⟨trivial, n, rfl⟩
  | application hr h arguments ih => exact ⟨trivial, holdsNaturals_fold ih⟩

theorem WellFormed.holdsNumbers {t : BareTwig} (h : WellFormed t) : t.HoldsNumbers :=
  h.holdsNaturals.holdsNumbers

/-- **Among twigs that hold numbers, being the same is being equal apart from the notes.** -/
theorem HoldsNumbers.same_iff {a : Twig σ} {b : Twig τ} (ha : a.HoldsNumbers)
    (hb : b.HoldsNumbers) : a.same b = true ↔ a.bare = b.bare := by
  induction a generalizing b with
  | literal odor value note =>
    cases b with
    | literal odor' value' note' =>
      obtain ⟨m, rfl⟩ := ha
      obtain ⟨n, rfl⟩ := hb
      simp [same, bare, Value.same, Value.number?]
    | cell head tail note' => simp [same, bare]
    | rune r => simp [same, bare]
  | cell head tail note ihead itail =>
    cases b with
    | literal odor' value' note' => simp [same, bare]
    | cell head' tail' note' => simp [same, bare, ihead ha.1 hb.1, itail ha.2 hb.2]
    | rune r => simp [same, bare]
  | rune r =>
    cases b with
    | literal odor' value' note' => simp [same, bare]
    | cell head tail note' => simp [same, bare]
    | rune r' => simp [same, bare]

/-! ## 3. A well-formed twig is printed with a spelling of it -/

theorem wideArguments_fold {first : Spelling} {more : List Spelling}
    (h : ∀ a ∈ first :: more, a.twig.wide = .ok a.text) :
    (fold first.twig (more.map (·.twig))).wideArguments more.length =
      .ok (wideText (first :: more)) := by
  induction more generalizing first with
  | nil =>
    rw [wideText_cons, wideTail_nil, List.append_nil]
    exact h first List.mem_cons_self
  | cons second more ih =>
    obtain ⟨hfirst, hmore⟩ := List.forall_mem_cons.1 h
    have hfold : fold first.twig ((second :: more).map (·.twig)) =
        cell first.twig (fold second.twig (more.map (·.twig))) none := rfl
    have hhead : first.twig.wideArguments 0 = .ok first.text := hfirst
    have htext : wideText (first :: second :: more) =
        first.text ++ Tag.wideSeparator ++ wideText (second :: more) := by
      rw [wideText_cons, wideText_cons, wideTail_cons]
      simp
    rw [hfold, List.length_cons, wideArguments, hhead, ih hmore, htext]
    rfl

/-- The rune of a form, applied to arguments that are printed, is printed in the wide form. -/
theorem wide_application {form : Form} {first : Spelling} {more : List Spelling}
    (length : more.length + 1 = form.rune.arity)
    (h : ∀ a ∈ first :: more, a.twig.wide = .ok a.text) :
    (apply form.rune (fold first.twig (more.map (·.twig))) none).wide =
      .ok (form.glyph.bytes ++ Tag.wideOpen ++ wideText (first :: more) ++ Tag.wideClose) := by
  have hmore : form.rune.arity - 1 = more.length := by omega
  have hcount : ((form.rune.arity : Int) - 1).toNat = (more.map (·.twig)).length := by
    rw [List.length_map]
    omega
  have hunfold : (fold first.twig (more.map (·.twig))).unfold form.rune.arity =
      .ok (first.twig :: more.map (·.twig)) := by
    rw [unfold, hcount, unfoldMore_fold]
  rw [wide, apply, wideArguments, form.glyph_eq]
  simp only [hunfold, hmore, wideArguments_fold h]
  rfl

/-- Every rune with a glyph has a form in the standard table. -/
theorem exists_standard_form {r : Rune} (h : r.glyph?.isSome) :
    ∃ form ∈ Table.standard.forms, form.rune = r := by
  cases r <;> first | exact absurd h (by decide) | decide

/-- Texts for a list of twigs, put together from a text for each of them. -/
theorem exists_spellings {P : Bytes → BareTwig → Prop} {ts : List BareTwig}
    (h : ∀ t ∈ ts, ∃ text, P text t) :
    ∃ spellings : List Spelling, spellings.map (·.twig) = ts ∧
      ∀ a ∈ spellings, P a.text a.twig := by
  induction ts with
  | nil => exact ⟨[], rfl, by simp⟩
  | cons t ts ih =>
    obtain ⟨⟨text, ht⟩, hts⟩ := List.forall_mem_cons.1 h
    obtain ⟨spellings, hmap, hall⟩ := ih hts
    exact ⟨⟨text, t⟩ :: spellings, by simp [hmap], List.forall_mem_cons.2 ⟨ht, hall⟩⟩

/-- The digits that are written for a number spell it. -/
theorem spells_write (table : Table) (n : Nat) :
    Spells table (Decimal.write n) (ofValue .ud (.number n) none) := by
  have hspells : Spells table (Decimal.write n) _ :=
    .literal (Decimal.write_ne_nil n) (Decimal.write_digits n)
  rwa [Decimal.positional_write] at hspells

/-- **A well-formed twig is printed, and what is printed spells it.** -/
theorem WellFormed.wide_spells {t : BareTwig} (h : WellFormed t) :
    ∃ text, t.wide = .ok text ∧ Spells .standard text t := by
  induction h with
  | literal n => exact ⟨Decimal.write n, rfl, spells_write .standard n⟩
  | @application r first more hr h arguments ih =>
    obtain ⟨form, hform, rfl⟩ := exists_standard_form hr
    obtain ⟨spellings, hmap, hall⟩ :=
      exists_spellings (P := fun text t => t.wide = .ok text ∧ Spells .standard text t) ih
    cases spellings with
    | nil => cases hmap
    | cons a others =>
      obtain ⟨rfl, rfl⟩ := List.cons.inj hmap
      have hlen : others.length + 1 = form.rune.arity := by simpa using h
      exact ⟨_, wide_application hlen fun b hb => (hall b hb).1,
        .wide hform hlen fun b hb => (hall b hb).2⟩

/-! ## 4. Reading back what was printed -/

/-- **Printing and reading back gives the same twig exactly for well-formed twigs** that nest no
    deeper than the limit: for every other twig nothing is printed, or what is printed is not read,
    not to its end, or as another twig. -/
theorem read_wide_iff_wellFormed (t : Twig σ) (file? : Option String) (settings : Settings) :
    (∃ text r, t.wide = .ok text ∧
      (Document.ofBytes text file? settings .standard).expressionAt 0 0 = .ok r ∧
      (Document.ofBytes text file? settings .standard).source.remaining r.stop = [] ∧
      r.twig.same t = true) ↔
    WellFormed t.bare ∧ (t.nesting : Int) ≤ settings.limit := by
  constructor
  · intro h
    obtain ⟨text, r, hwide, hread, -, hsame⟩ := h
    obtain ⟨-, -, hspells, hnesting, -⟩ := Document.expressionAt_sound hread
    have hwell := hspells.wellFormed
    have hnumbers := (holdsNumbers_bare r.twig).1 hwell.holdsNumbers
    have hbare := (hnumbers.same_iff (holdsNumbers_of_wide hwide)).1 hsame
    have hlimit : (r.twig.bare.nesting : Int) ≤ settings.limit - 0 := hnesting
    rw [hbare, nesting_bare] at hlimit
    exact ⟨hbare ▸ hwell, by omega⟩
  · intro h
    obtain ⟨hwell, hnesting⟩ := h
    obtain ⟨text, hwide, hspells⟩ := hwell.wide_spells
    rw [wide_bare] at hwide
    rw [← nesting_bare] at hnesting
    obtain ⟨r, hread, hbare, hstop⟩ :=
      Document.read_whole (d := .ofBytes text file? settings .standard) hspells hnesting
    have hnumbers := (holdsNumbers_bare r.twig).1 (hbare ▸ hwell.holdsNumbers)
    refine ⟨text, r, hwide, hread, ?_, (hnumbers.same_iff (holdsNumbers_of_wide hwide)).2 hbare⟩
    rw [hstop]
    exact List.drop_length

end HoonReader.Twig
