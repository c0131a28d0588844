import Mathlib.Data.List.Forall2
import HoonReader.Expression

/-!
# What the readers of arguments do in one step

Every reader of arguments is opened here once, as an equivalence: when it succeeds and with what,
when it fails and how. Later files go through these equivalences and open no reader again.

* `wideMore_cons_eq_ok_iff` and its neighbours: one argument and then the others;
* `tallForm_eq_ok_iff`: the tall form is read like a list of arguments;
* `formBody_eq_ok_iff`, `formBody_eq_error_iff`: the parenthesis decides between wide and tall.
-/

namespace HoonReader

/-! ## 1. Sequences -/

section Bind

variable {ε α β : Type} {x : Except ε α} {k : α → Except ε β}

theorem bind_eq_ok_iff {b : β} : (x >>= k) = .ok b ↔ ∃ a, x = .ok a ∧ k a = .ok b := by
  cases x with
  | error e => simp [bind, Except.bind]
  | ok a => simp [bind, Except.bind]

theorem bind_eq_error_iff {e : ε} :
    (x >>= k) = .error e ↔ x = .error e ∨ ∃ a, x = .ok a ∧ k a = .error e := by
  cases x with
  | error e => simp [bind, Except.bind]
  | ok a => simp [bind, Except.bind]

theorem pure_eq_ok_iff {a b : α} : (pure a : Except ε α) = .ok b ↔ a = b := by
  simp [pure, Except.pure]

theorem pure_ne_error {a : α} {e : ε} : (pure a : Except ε α) ≠ .error e := by
  simp [pure, Except.pure]

end Bind

theorem expect_eq_error_iff {tag input : Bytes} {f : Failure} :
    expect tag input = .error f ↔ standsAt tag input = false ∧ f = .of (.literal tag) input := by
  unfold expect standsAt
  cases after? tag input with
  | none => simp [eq_comm]
  | some rest => simp

/-! ## 2. Arguments of the wide form -/

section Arguments

variable {α : Type} {reader : Reader α} {readers : List (Reader α)} {input rest : Bytes}
  {f : Failure}

theorem wideMore_nil_eq_ok_iff {values : List α} :
    wideMore [] input = .ok (values, rest) ↔ values = [] ∧ input = Tag.wideClose ++ rest := by
  rw [wideMore, bind_eq_ok_iff]
  constructor
  · intro h
    obtain ⟨a, ha, hp⟩ := h
    cases pure_eq_ok_iff.1 hp
    exact ⟨rfl, expect_eq_ok_iff.1 ha⟩
  · intro h
    obtain ⟨rfl, hi⟩ := h
    exact ⟨rest, expect_eq_ok_iff.2 hi, rfl⟩

theorem wideMore_nil_eq_error_iff :
    wideMore ([] : List (Reader α)) input = .error f ↔
      standsAt Tag.wideClose input = false ∧ f = .of (.literal Tag.wideClose) input := by
  rw [wideMore, bind_eq_error_iff, expect_eq_error_iff]
  constructor
  · intro h
    rcases h with h | ⟨a, -, hp⟩
    · exact h
    · exact absurd hp pure_ne_error
  · exact .inl

theorem wideMore_cons_eq_ok_iff {values : List α} :
    wideMore (reader :: readers) input = .ok (values, rest) ↔ ∃ value more a b,
      input = Tag.wideSeparator ++ a ∧ reader a = .ok (value, b) ∧
        wideMore readers b = .ok (more, rest) ∧ values = value :: more := by
  rw [wideMore, bind_eq_ok_iff]
  constructor
  · intro h
    obtain ⟨a, ha, h⟩ := h
    obtain ⟨⟨value, b⟩, hv, h⟩ := bind_eq_ok_iff.1 h
    obtain ⟨⟨more, c⟩, hm, h⟩ := bind_eq_ok_iff.1 h
    cases pure_eq_ok_iff.1 h
    exact ⟨value, more, a, b, expect_eq_ok_iff.1 ha, hv, hm, rfl⟩
  · intro h
    obtain ⟨value, more, a, b, hi, hv, hm, rfl⟩ := h
    refine ⟨a, expect_eq_ok_iff.2 hi, bind_eq_ok_iff.2 ⟨(value, b), hv, ?_⟩⟩
    exact bind_eq_ok_iff.2 ⟨(more, rest), hm, rfl⟩

theorem wideMore_cons_eq_error_iff :
    wideMore (reader :: readers) input = .error f ↔
      standsAt Tag.wideSeparator input = false ∧ f = .of (.literal Tag.wideSeparator) input ∨
      ∃ a, input = Tag.wideSeparator ++ a ∧
        (reader a = .error f ∨ ∃ value b, reader a = .ok (value, b) ∧
          wideMore readers b = .error f) := by
  rw [wideMore, bind_eq_error_iff, expect_eq_error_iff]
  refine or_congr_right (exists_congr fun a => and_congr expect_eq_ok_iff ?_)
  rw [bind_eq_error_iff]
  refine or_congr_right ⟨?_, ?_⟩
  · intro h
    obtain ⟨⟨value, b⟩, hv, h⟩ := h
    rcases bind_eq_error_iff.1 h with hm | ⟨p, -, hp⟩
    · exact ⟨value, b, hv, hm⟩
    · exact absurd hp pure_ne_error
  · intro h
    obtain ⟨value, b, hv, hm⟩ := h
    exact ⟨(value, b), hv, bind_eq_error_iff.2 (.inl hm)⟩

theorem wideForm_eq_ok_iff {value : α} {more : List α} :
    wideForm reader readers input = .ok ((value, more), rest) ↔
      ∃ a, reader input = .ok (value, a) ∧ wideMore readers a = .ok (more, rest) := by
  rw [wideForm, bind_eq_ok_iff]
  constructor
  · intro h
    obtain ⟨⟨v, a⟩, hv, h⟩ := h
    obtain ⟨⟨vs, b⟩, hm, h⟩ := bind_eq_ok_iff.1 h
    cases pure_eq_ok_iff.1 h
    exact ⟨a, hv, hm⟩
  · intro h
    obtain ⟨a, hv, hm⟩ := h
    exact ⟨(value, a), hv, bind_eq_ok_iff.2 ⟨(more, rest), hm, rfl⟩⟩

theorem wideForm_eq_error_iff :
    wideForm reader readers input = .error f ↔
      reader input = .error f ∨
      ∃ value a, reader input = .ok (value, a) ∧ wideMore readers a = .error f := by
  rw [wideForm, bind_eq_error_iff]
  refine or_congr_right ⟨?_, ?_⟩
  · intro h
    obtain ⟨⟨value, a⟩, hv, h⟩ := h
    rcases bind_eq_error_iff.1 h with hm | ⟨p, -, hp⟩
    · exact ⟨value, a, hv, hm⟩
    · exact absurd hp pure_ne_error
  · intro h
    obtain ⟨value, a, hv, hm⟩ := h
    exact ⟨(value, a), hv, bind_eq_error_iff.2 (.inl hm)⟩

/-! ## 3. Arguments of the tall form -/

theorem tallMore_nil_eq_ok_iff {values : List α} :
    tallMore [] input = .ok (values, rest) ↔ values = [] ∧ input = Tag.tallEnd ++ rest := by
  rw [tallMore, bind_eq_ok_iff]
  constructor
  · intro h
    obtain ⟨a, ha, hp⟩ := h
    cases pure_eq_ok_iff.1 hp
    exact ⟨rfl, expect_eq_ok_iff.1 ha⟩
  · intro h
    obtain ⟨rfl, hi⟩ := h
    exact ⟨rest, expect_eq_ok_iff.2 hi, rfl⟩

theorem tallMore_nil_eq_error_iff :
    tallMore ([] : List (Reader α)) input = .error f ↔
      standsAt Tag.tallEnd input = false ∧ f = .of (.literal Tag.tallEnd) input := by
  rw [tallMore, bind_eq_error_iff, expect_eq_error_iff]
  constructor
  · intro h
    rcases h with h | ⟨a, -, hp⟩
    · exact h
    · exact absurd hp pure_ne_error
  · exact .inl

theorem tallMore_cons_eq_ok_iff {values : List α} :
    tallMore (reader :: readers) input = .ok (values, rest) ↔ ∃ value more a b,
      reader input = .ok (value, a) ∧ gap a = .ok b ∧
        tallMore readers b = .ok (more, rest) ∧ values = value :: more := by
  rw [tallMore, bind_eq_ok_iff]
  constructor
  · intro h
    obtain ⟨⟨value, a⟩, hv, h⟩ := h
    obtain ⟨b, hg, h⟩ := bind_eq_ok_iff.1 h
    obtain ⟨⟨more, c⟩, hm, h⟩ := bind_eq_ok_iff.1 h
    cases pure_eq_ok_iff.1 h
    exact ⟨value, more, a, b, hv, hg, hm, rfl⟩
  · intro h
    obtain ⟨value, more, a, b, hv, hg, hm, rfl⟩ := h
    refine ⟨(value, a), hv, bind_eq_ok_iff.2 ⟨b, hg, ?_⟩⟩
    exact bind_eq_ok_iff.2 ⟨(more, rest), hm, rfl⟩

theorem tallMore_cons_eq_error_iff :
    tallMore (reader :: readers) input = .error f ↔
      reader input = .error f ∨
      ∃ value a, reader input = .ok (value, a) ∧
        (gap a = .error f ∨ ∃ b, gap a = .ok b ∧ tallMore readers b = .error f) := by
  rw [tallMore, bind_eq_error_iff]
  refine or_congr_right ⟨?_, ?_⟩
  · intro h
    obtain ⟨⟨value, a⟩, hv, h⟩ := h
    refine ⟨value, a, hv, ?_⟩
    rcases bind_eq_error_iff.1 h with hg | ⟨b, hg, h⟩
    · exact .inl hg
    · rcases bind_eq_error_iff.1 h with hm | ⟨p, -, hp⟩
      · exact .inr ⟨b, hg, hm⟩
      · exact absurd hp pure_ne_error
  · intro h
    obtain ⟨value, a, hv, h⟩ := h
    refine ⟨(value, a), hv, bind_eq_error_iff.2 ?_⟩
    rcases h with hg | ⟨b, hg, hm⟩
    · exact .inl hg
    · exact .inr ⟨b, hg, bind_eq_error_iff.2 (.inl hm)⟩

/-- The arguments of the tall form are read like a list of them. -/
theorem tallForm_eq_ok_iff {value : α} {more : List α} :
    tallForm reader readers input = .ok ((value, more), rest) ↔
      tallMore (reader :: readers) input = .ok (value :: more, rest) := by
  rw [tallForm, bind_eq_ok_iff, tallMore_cons_eq_ok_iff]
  constructor
  · intro h
    obtain ⟨⟨v, a⟩, hv, h⟩ := h
    obtain ⟨b, hg, h⟩ := bind_eq_ok_iff.1 h
    obtain ⟨⟨vs, c⟩, hm, h⟩ := bind_eq_ok_iff.1 h
    cases pure_eq_ok_iff.1 h
    exact ⟨value, more, a, b, hv, hg, hm, rfl⟩
  · intro h
    obtain ⟨v, vs, a, b, hv, hg, hm, heq⟩ := h
    cases heq
    refine ⟨(value, a), hv, bind_eq_ok_iff.2 ⟨b, hg, ?_⟩⟩
    exact bind_eq_ok_iff.2 ⟨(more, rest), hm, rfl⟩

theorem tallForm_eq_error_iff :
    tallForm reader readers input = .error f ↔
      tallMore (reader :: readers) input = .error f := by
  rw [tallForm, bind_eq_error_iff, tallMore, bind_eq_error_iff]
  refine or_congr_right (exists_congr fun p => and_congr_right fun hp => ?_)
  rw [bind_eq_error_iff, bind_eq_error_iff]
  refine or_congr_right (exists_congr fun b => and_congr_right fun hb => ?_)
  rw [bind_eq_error_iff, bind_eq_error_iff]
  exact or_congr_right (exists_congr fun q => and_congr_right fun hq =>
    ⟨fun h => absurd h pure_ne_error, fun h => absurd h pure_ne_error⟩)

end Arguments

/-! ## 4. What stands behind a glyph -/

@[simp] theorem Grammar.reader_eq {ρ : Type} (reader : ρ) (g : Grammar) :
    g.reader reader = reader := by
  cases g
  rfl

/-- The readers of the arguments of a form that follow the first one. -/
def Form.moreReaders (form : Form) (reader : Reader (Twig Extent)) : List (Reader (Twig Extent)) :=
  form.more.map (Grammar.reader reader)

theorem Form.length_moreReaders (form : Form) (reader : Reader (Twig Extent)) :
    (form.moreReaders reader).length + 1 = form.rune.arity := by
  rw [moreReaders, List.length_map]
  exact form.arity_eq

/-- Every argument is read by the reader of expressions, so they all have what that one has. -/
theorem Form.forall_moreReaders {p : Reader (Twig Extent) → Prop} {reader : Reader (Twig Extent)}
    (form : Form) (h : p reader) : ∀ r ∈ form.moreReaders reader, p r := by
  intro r hr
  obtain ⟨g, -, rfl⟩ := List.mem_map.1 hr
  rw [Grammar.reader_eq]
  exact h

/-- Two readers of expressions are related as the readers that they give to the arguments are. -/
theorem Form.forall₂_moreReaders {R : Reader (Twig Extent) → Reader (Twig Extent) → Prop}
    {reader reader' : Reader (Twig Extent)} (form : Form) (h : R reader reader') :
    List.Forall₂ R (form.moreReaders reader) (form.moreReaders reader') := by
  rw [moreReaders, moreReaders, List.forall₂_map_left_iff, List.forall₂_map_right_iff,
    List.forall₂_same]
  intro g _
  rw [Grammar.reader_eq, Grammar.reader_eq]
  exact h

section Body

variable {form : Form} {reader : Reader (Twig Extent)} {input rest : Bytes} {f : Failure}

theorem formBody_wide (a : Bytes) :
    formBody (Grammar.reader reader) form (Tag.wideOpen ++ a) =
      wideForm reader (form.moreReaders reader) a := by
  simp only [formBody, after?_append, Grammar.reader_eq]
  rfl

theorem formBody_tall (h : standsAt Tag.wideOpen input = false) :
    formBody (Grammar.reader reader) form input =
      (gap input >>= tallForm reader (form.moreReaders reader)) := by
  have hnone : after? Tag.wideOpen input = none := by simpa [standsAt] using h
  simp only [formBody, hnone, Grammar.reader_eq]
  rfl

theorem formBody_eq_ok_iff {first : Twig Extent} {more : List (Twig Extent)} :
    formBody (Grammar.reader reader) form input = .ok ((first, more), rest) ↔
      (∃ a, input = Tag.wideOpen ++ a ∧
        wideForm reader (form.moreReaders reader) a = .ok ((first, more), rest)) ∨
      (standsAt Tag.wideOpen input = false ∧ ∃ a, gap input = .ok a ∧
        tallMore (reader :: form.moreReaders reader) a = .ok (first :: more, rest)) := by
  by_cases hw : standsAt Tag.wideOpen input = true
  · obtain ⟨a, rfl⟩ := standsAt_iff.1 hw
    rw [formBody_wide]
    simp [hw]
  · have hw' : standsAt Tag.wideOpen input = false := by simpa using hw
    rw [formBody_tall hw', bind_eq_ok_iff]
    simp only [hw', true_and, tallForm_eq_ok_iff]
    refine ⟨.inr, ?_⟩
    intro h
    rcases h with ⟨a, rfl, -⟩ | h
    · exact absurd (standsAt_iff.2 ⟨a, rfl⟩) hw
    · exact h

theorem formBody_eq_error_iff :
    formBody (Grammar.reader reader) form input = .error f ↔
      (∃ a, input = Tag.wideOpen ++ a ∧ wideForm reader (form.moreReaders reader) a = .error f) ∨
      (standsAt Tag.wideOpen input = false ∧ (gap input = .error f ∨ ∃ a, gap input = .ok a ∧
        tallMore (reader :: form.moreReaders reader) a = .error f)) := by
  by_cases hw : standsAt Tag.wideOpen input = true
  · obtain ⟨a, rfl⟩ := standsAt_iff.1 hw
    rw [formBody_wide]
    simp [hw]
  · have hw' : standsAt Tag.wideOpen input = false := by simpa using hw
    rw [formBody_tall hw', bind_eq_error_iff]
    simp only [hw', true_and, tallForm_eq_error_iff]
    refine ⟨.inr, ?_⟩
    intro h
    rcases h with ⟨a, rfl, -⟩ | h
    · exact absurd (standsAt_iff.2 ⟨a, rfl⟩) hw
    · exact h

end Body

end HoonReader
