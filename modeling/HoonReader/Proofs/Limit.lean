import HoonReader.Proofs.Completion
import HoonReader.Proofs.Stack

/-!
# The limit of nesting is exact

A document is read under two limits. This file compares the outcomes.

* `Document.expressionAt_further`: where the smaller limit stops the reader, the larger one lets it
  read an expression or get at least as far before it fails;
* `Document.read_within_iff`: what is read under the larger limit is read under the smaller one
  exactly if it is nested no deeper than that;
* `Document.limit_monotone_exact`: both, and that nothing else changes.
-/

namespace HoonReader

/-- What leaves less has got at least as far. -/
theorem Source.offsetOf_le_of_suffix {s : Source} {rest rest' : Bytes} (start : Nat)
    (h : rest' <:+ rest) : s.offsetOf start rest ≤ s.offsetOf start rest' := by
  have hlength := h.length_le
  unfold offsetOf
  omega

namespace Document

variable {d : Document} {start : Nat} {depth limit : Int}

/-- **A larger limit lets the reader get at least as far** where the smaller one stopped it. -/
theorem expressionAt_further (h : limit ≤ d.limit) {e : Report}
    (he : { d with limit }.expressionAt start depth = .error e) :
    (∃ r, d.expressionAt start depth = .ok r) ∨
      ∃ e', d.expressionAt start depth = .error e' ∧ e.offset ≤ e'.offset := by
  obtain ⟨f, hf, rfl⟩ := expressionAt_eq_error_iff.1 he
  have houtruns : Outruns Prod.snd limit (.error f)
      (expression d.table d.limit (room d.limit depth) (d.source.remaining start)) :=
    hf ▸ expression_outruns d.table (room_le_room h depth) (d.source.remaining start)
  rcases houtruns with heq | ⟨f', hf', -, hleft⟩
  · exact .inr ⟨_, expressionAt_eq_error_iff.2 ⟨f, heq, rfl⟩, Nat.le_refl _⟩
  · cases hf'
    cases hread : expression d.table d.limit (room d.limit depth) (d.source.remaining start) with
    | ok p => exact .inl ⟨_, expressionAt_eq_ok_iff.2 ⟨p.1, p.2, hread, rfl⟩⟩
    | error f' =>
      rw [hread] at hleft
      refine .inr ⟨_, expressionAt_eq_error_iff.2 ⟨f', hread, rfl⟩, ?_⟩
      exact Source.offsetOf_le_of_suffix start hleft

/-- What is read under another limit is read under this one if it is nested no deeper. -/
theorem exists_read_of_nesting_le {r : Reading} (h : d.expressionAt start depth = .ok r)
    (nesting : (r.twig.nesting : Int) ≤ limit - depth) :
    ∃ r', { d with limit }.expressionAt start depth = .ok r' := by
  obtain ⟨hle, hlen, spells, -, ends⟩ := expressionAt_sound h
  rw [← Twig.nesting_bare] at nesting
  obtain ⟨r', hr', -, -⟩ :=
    expressionAt_complete (d := { d with limit }) hle hlen spells nesting ends
  exact ⟨r', hr'⟩

/-- **What is read is read under a smaller limit exactly if it is nested no deeper than that.** -/
theorem read_within_iff (hlimit : limit ≤ d.limit) {r : Reading}
    (h : d.expressionAt start depth = .ok r) :
    (∃ r', { d with limit }.expressionAt start depth = .ok r') ↔
      (r.twig.nesting : Int) ≤ limit - depth := by
  refine ⟨?_, exists_read_of_nesting_le h⟩
  intro hread
  obtain ⟨r', hr'⟩ := hread
  rcases expressionAt_agree hlimit start depth with hsame | ⟨e, he, -⟩
  · rw [h, hr'] at hsame
    cases hsame
    obtain ⟨-, -, -, hnesting, -⟩ := expressionAt_sound hr'
    rwa [Twig.nesting_bare] at hnesting
  · rw [hr'] at he
    cases he

/-- **The limit of nesting is monotone and exact.** Of two limits, take the smaller one. Unless a
    nesting is too deep for it, the larger limit changes nothing in the outcome. If one is, then
    under the larger limit a twig is read that is nested deeper than the smaller one, or the reader
    fails no earlier. So what is read under the larger limit is read under the smaller one exactly
    if it is nested no deeper than that. -/
theorem limit_monotone_exact (d : Document) {limit : Int} (h : limit ≤ d.limit) :
    ((∀ e, { d with limit }.expressionAt 0 0 = .error e → e.cause.kind ≠ .nestingTooDeep) →
      d.expressionAt 0 0 = { d with limit }.expressionAt 0 0) ∧
    (∀ e, { d with limit }.expressionAt 0 0 = .error e → e.cause.kind = .nestingTooDeep →
      (∃ r, d.expressionAt 0 0 = .ok r ∧ limit < (r.twig.nesting : Int)) ∨
        ∃ e', d.expressionAt 0 0 = .error e' ∧ e.offset ≤ e'.offset) ∧
    ∀ r, d.expressionAt 0 0 = .ok r →
      ((∃ r', { d with limit }.expressionAt 0 0 = .ok r') ↔ (r.twig.nesting : Int) ≤ limit) := by
  have hexact : ∀ r, d.expressionAt 0 0 = .ok r →
      ((∃ r', { d with limit }.expressionAt 0 0 = .ok r') ↔ (r.twig.nesting : Int) ≤ limit) := by
    intro r hr
    have hiff := read_within_iff h hr
    rwa [Int.sub_zero] at hiff
  refine ⟨?_, ?_, hexact⟩
  · intro hkind
    rcases expressionAt_agree h 0 0 with hsame | ⟨e, he, hcause⟩
    · exact hsame
    · have htoo : e.cause.kind = .nestingTooDeep := by rw [hcause]; rfl
      exact absurd htoo (hkind e he)
  · intro e he _
    rcases expressionAt_further h he with ⟨r, hr⟩ | hfails
    · -- a twig within the smaller limit would be read under it
      refine .inl ⟨r, hr, Int.not_le.1 fun hnesting => ?_⟩
      obtain ⟨r', hr'⟩ := (hexact r hr).2 hnesting
      rw [he] at hr'
      cases hr'
    · exact .inr hfails

/-- An application inside of another one, where three levels are allowed. -/
def nestedTwice : Document :=
  { tooNested with limit := 2 }

theorem limit_monotone_exact_nestedTwice :
    0 ≤ nestedTwice.limit ∧
      { nestedTwice with limit := 0 }.expressionAt 0 0 = .error tooNestedReport ∧
      ∃ r, nestedTwice.expressionAt 0 0 = .ok r ∧ 0 < (r.twig.nesting : Int) ∧
        ¬ ∃ r', { nestedTwice with limit := 0 }.expressionAt 0 0 = .ok r' := by
  have hlimit : 0 ≤ nestedTwice.limit := by decide
  have hlow : { nestedTwice with limit := 0 }.expressionAt 0 0 = .error tooNestedReport := rfl
  obtain ⟨-, hdeep, hexact⟩ := limit_monotone_exact nestedTwice hlimit
  have hread : (nestedTwice.expressionAt 0 0).isOk = true := by decide +kernel
  rcases hdeep tooNestedReport hlow rfl with ⟨r, hr, hnesting⟩ | ⟨e', he', -⟩
  · exact ⟨hlimit, hlow, r, hr, hnesting, fun hr' => absurd ((hexact r hr).1 hr') (by omega)⟩
  · rw [he'] at hread
    cases hread

end Document

end HoonReader
