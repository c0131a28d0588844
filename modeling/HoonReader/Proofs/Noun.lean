import HoonReader.Proofs.Printing

/-!
# A noun shows one twig only

The noun of a cell has a space between its two parts, and the noun of a literal has one inside of
it; the digits of one number can go on as those of another. So where a part of a noun ends has to be
found out. This file shows that it can be, in any twig, well-formed or not:

* `noun_append_inj`: a noun with no digit behind it says which twig it shows and where it ends;
* `exists_noun_iff`: a twig has a noun exactly if its literals hold numbers that are not negative;
* `noun_eq_iff_same`: so twigs with nouns are the same exactly if their nouns are.

Inside of a noun no digit stands behind a part: the head of a cell has a space behind it, and the
tail a bracket. This is what the induction hands down.
-/

namespace HoonReader

/-! ## 1. The texts without brackets -/

/-- The number that digits show, and where they end, if no digit stands behind them. -/
theorem Decimal.write_append_inj {m n : Nat} {rest rest' : Bytes}
    (ends : digitStands rest = false) (ends' : digitStands rest' = false)
    (h : write m ++ rest = write n ++ rest') : m = n ∧ rest = rest' := by
  obtain ⟨htake, hdrop⟩ := takeWhile_digits (write_digits m) ends
  obtain ⟨htake', hdrop'⟩ := takeWhile_digits (write_digits n) ends'
  rw [h, htake'] at htake
  rw [h, hdrop'] at hdrop
  refine ⟨?_, hdrop.symm⟩
  rw [← positional_write m, ← positional_write n, htake]

theorem Rune.length_tag (r : Rune) : r.tag.length = 5 := by
  cases r <;> rfl

/-- A rune is found by its name. -/
theorem Rune.ofName?_name (r : Rune) : ofName? r.name = some r := by
  cases r <;> rfl

/-- The names of runes are all of one length, so none of them is the beginning of another. -/
theorem Rune.tag_append_inj {r s : Rune} {rest rest' : Bytes}
    (h : r.tag ++ rest = s.tag ++ rest') : r = s ∧ rest = rest' := by
  obtain ⟨htag, hrest⟩ := List.append_inj h (r.length_tag.trans s.length_tag.symm)
  have hname : r.name = s.name := List.append_cancel_left htag
  have hfound := r.ofName?_name
  rw [hname, s.ofName?_name] at hfound
  exact ⟨(Option.some.inj hfound).symm, hrest⟩

namespace Twig

variable {σ τ : Type}

/-! ## 2. What a noun is made of -/

/-- The noun does not show notes. -/
theorem noun_bare (t : Twig σ) : t.bare.noun = t.noun := by
  induction t with
  | literal odor value note => rfl
  | cell head tail note ihead itail => rw [bare, noun, noun, ihead, itail]
  | rune r => rfl

theorem noun_literal_eq_ok_iff {odor : Odor} {value : Value} {note : Option σ} {text : Bytes} :
    (literal odor value note).noun = .ok text ↔
      ∃ n : Nat, value = .number n ∧ text = odor.tag ++ [Byte.space] ++ Decimal.write n := by
  rw [noun, bind_eq_ok_iff]
  constructor
  · intro h
    obtain ⟨digits, hencode, h⟩ := h
    obtain ⟨n, rfl, rfl⟩ := number_of_encode hencode
    exact ⟨n, rfl, (pure_eq_ok_iff.1 h).symm⟩
  · intro h
    obtain ⟨n, rfl, rfl⟩ := h
    cases odor
    exact ⟨Decimal.write n, rfl, rfl⟩

theorem noun_cell_eq_ok_iff {head tail : Twig σ} {note : Option σ} {text : Bytes} :
    (cell head tail note).noun = .ok text ↔
      ∃ front behind, head.noun = .ok front ∧ tail.noun = .ok behind ∧
        text = bracketed front behind := by
  rw [noun, bind_eq_ok_iff]
  refine exists_congr fun front => ?_
  rw [bind_eq_ok_iff, ← exists_and_left]
  refine exists_congr fun behind => and_congr_right fun _ => and_congr_right fun _ => ?_
  rw [pure_eq_ok_iff, eq_comm]

theorem noun_rune_eq_ok_iff {r : Rune} {text : Bytes} :
    (rune r : Twig σ).noun = .ok text ↔ text = r.tag := by
  rw [noun, pure_eq_ok_iff, eq_comm]

/-- **A twig has a noun exactly if its literals hold numbers that are not negative.** -/
theorem exists_noun_iff (t : Twig σ) : (∃ text, t.noun = .ok text) ↔ t.HoldsNaturals := by
  induction t with
  | literal odor value note =>
    simp only [noun_literal_eq_ok_iff]
    constructor
    · intro h
      obtain ⟨-, n, hn, -⟩ := h
      exact ⟨n, hn⟩
    · intro h
      obtain ⟨n, hn⟩ := h
      exact ⟨_, n, hn, rfl⟩
  | cell head tail note ihead itail =>
    simp only [noun_cell_eq_ok_iff]
    constructor
    · intro h
      obtain ⟨-, front, behind, hhead, htail, -⟩ := h
      exact ⟨ihead.1 ⟨front, hhead⟩, itail.1 ⟨behind, htail⟩⟩
    · intro h
      obtain ⟨front, hhead⟩ := ihead.2 h.1
      obtain ⟨behind, htail⟩ := itail.2 h.2
      exact ⟨_, front, behind, hhead, htail, rfl⟩
  | rune r => exact ⟨fun _ => trivial, fun _ => ⟨r.tag, rfl⟩⟩

/-- The byte with which the noun of a twig begins. -/
def mark : Twig σ → UInt8
  | literal .. => 0x40
  | cell .. => 0x5b
  | rune _ => 0x25

/-- **The sort of a twig shows in the first byte of its noun.** -/
theorem head?_noun {t : Twig σ} {text : Bytes} (h : t.noun = .ok text) :
    text.head? = some t.mark := by
  cases t with
  | literal odor value note =>
    obtain ⟨n, -, rfl⟩ := noun_literal_eq_ok_iff.1 h
    rfl
  | cell head tail note =>
    obtain ⟨front, behind, -, -, rfl⟩ := noun_cell_eq_ok_iff.1 h
    rfl
  | rune r =>
    cases noun_rune_eq_ok_iff.1 h
    rfl

theorem mark_eq_of_noun {a : Twig σ} {b : Twig τ} {m n rest rest' : Bytes} (ha : a.noun = .ok m)
    (hb : b.noun = .ok n) (h : m ++ rest = n ++ rest') : a.mark = b.mark := by
  have hhead := congrArg List.head? h
  rw [List.head?_append, List.head?_append, head?_noun ha, head?_noun hb] at hhead
  exact Option.some.inj hhead

theorem bracketed_append (front behind rest : Bytes) :
    bracketed front behind ++ rest =
      0x5b :: (front ++ Byte.space :: (behind ++ 0x5d :: rest)) := by
  simp [bracketed, ascii]

/-- **A noun with no digit behind it says which twig it shows, and where it ends.** -/
theorem noun_append_inj {a : Twig σ} {b : Twig τ} {m n rest rest' : Bytes}
    (ha : a.noun = .ok m) (hb : b.noun = .ok n) (ends : digitStands rest = false)
    (ends' : digitStands rest' = false) (h : m ++ rest = n ++ rest') :
    a.bare = b.bare ∧ rest = rest' := by
  induction a generalizing b m n rest rest' with
  | literal odor value note =>
    cases b with
    | literal odor' value' note' =>
      obtain ⟨i, rfl, rfl⟩ := noun_literal_eq_ok_iff.1 ha
      obtain ⟨j, rfl, rfl⟩ := noun_literal_eq_ok_iff.1 hb
      cases odor
      cases odor'
      rw [List.append_assoc, List.append_assoc _ _ rest', List.append_cancel_left_eq] at h
      obtain ⟨rfl, rfl⟩ := Decimal.write_append_inj ends ends' h
      exact ⟨rfl, rfl⟩
    | cell head' tail' note' => cases mark_eq_of_noun ha hb h
    | rune r' => cases mark_eq_of_noun ha hb h
  | cell head tail note ihead itail =>
    cases b with
    | literal odor' value' note' => cases mark_eq_of_noun ha hb h
    | cell head' tail' note' =>
      obtain ⟨front, behind, hhead, htail, rfl⟩ := noun_cell_eq_ok_iff.1 ha
      obtain ⟨front', behind', hhead', htail', rfl⟩ := noun_cell_eq_ok_iff.1 hb
      rw [bracketed_append, bracketed_append] at h
      -- the head has a space behind it, and the tail a bracket
      obtain ⟨hfront, h⟩ := ihead hhead hhead' rfl rfl (List.cons.inj h).2
      obtain ⟨hbehind, h⟩ := itail htail htail' rfl rfl (List.cons.inj h).2
      refine ⟨?_, (List.cons.inj h).2⟩
      rw [bare, bare, hfront, hbehind]
    | rune r' => cases mark_eq_of_noun ha hb h
  | rune r =>
    cases b with
    | literal odor' value' note' => cases mark_eq_of_noun ha hb h
    | cell head' tail' note' => cases mark_eq_of_noun ha hb h
    | rune r' =>
      cases noun_rune_eq_ok_iff.1 ha
      cases noun_rune_eq_ok_iff.1 hb
      obtain ⟨rfl, rfl⟩ := Rune.tag_append_inj h
      exact ⟨rfl, rfl⟩

/-- **Twigs have the same noun exactly if they are the same**, if their literals hold numbers that
    are not negative; then they have nouns. -/
theorem noun_eq_iff_same {a : Twig σ} {b : Twig τ} (ha : a.HoldsNaturals) (hb : b.HoldsNaturals) :
    ∃ m n, a.noun = .ok m ∧ b.noun = .ok n ∧ (m = n ↔ a.same b = true) := by
  obtain ⟨m, hm⟩ := a.exists_noun_iff.2 ha
  obtain ⟨n, hn⟩ := b.exists_noun_iff.2 hb
  refine ⟨m, n, hm, hn, ?_⟩
  rw [ha.holdsNumbers.same_iff hb.holdsNumbers]
  constructor
  · rintro rfl
    have hends : digitStands [] = false := rfl
    exact (noun_append_inj hm hn hends hends rfl).1
  · intro hbare
    rw [← noun_bare, hbare, noun_bare, hn] at hm
    exact (Except.ok.inj hm).symm

/-- A number beside the cell of a longer one and a rune. -/
def besideCell : BareTwig :=
  cell (literal .ud (.number 1) none) (cell (literal .ud (.number 12) none) (rune .brhp) none) none

/-- The same parts in the same order, the cell in front. -/
def behindCell : BareTwig :=
  cell (cell (literal .ud (.number 1) none) (literal .ud (.number 12) none) none) (rune .brhp) none

theorem noun_eq_iff_same_cells :
    besideCell.HoldsNaturals ∧ behindCell.HoldsNaturals ∧
      ∃ m n, besideCell.noun = .ok m ∧ behindCell.noun = .ok n ∧ m ≠ n := by
  have hbeside : besideCell.HoldsNaturals := ⟨⟨1, rfl⟩, ⟨12, rfl⟩, trivial⟩
  have hbehind : behindCell.HoldsNaturals := ⟨⟨⟨1, rfl⟩, ⟨12, rfl⟩⟩, trivial⟩
  obtain ⟨m, n, hm, hn, hiff⟩ := noun_eq_iff_same hbeside hbehind
  have hother : ¬ besideCell.same behindCell = true := by decide
  exact ⟨hbeside, hbehind, m, n, hm, hn, mt hiff.1 hother⟩

end Twig

end HoonReader
