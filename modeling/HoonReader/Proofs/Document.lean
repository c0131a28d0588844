import HoonReader.Proofs.Layout

/-!
# Reading at an offset

What a document reads at an offset is what the reader of expressions reads of what is left there.
This file says so as equivalences, so that facts about readers become facts about documents.
-/

namespace HoonReader

/-! ## 1. The room at a depth -/

theorem lt_room_iff {n : Nat} {limit depth : Int} :
    n < room limit depth ↔ (n : Int) ≤ limit - depth := by
  unfold room
  omega

/-! ## 2. Running the reader of expressions -/

namespace Document

variable {d : Document} {start : Nat} {depth : Int}

theorem expressionAt_eq_ok_iff {r : Reading} :
    d.expressionAt start depth = .ok r ↔ ∃ t rest,
      d.expressionReader depth (d.source.remaining start) = .ok (t, rest) ∧
        r = ⟨d.source.located start t, d.source.offsetOf start rest⟩ := by
  rw [expressionAt_eq]
  unfold twigAt Source.read
  cases d.expressionReader depth (d.source.remaining start) with
  | error f => simp
  | ok p =>
    obtain ⟨t, rest⟩ := p
    simp only [Except.ok.injEq, Prod.mk.injEq]
    constructor
    · intro h
      exact ⟨t, rest, ⟨rfl, rfl⟩, h.symm⟩
    · intro h
      obtain ⟨t', rest', ⟨rfl, rfl⟩, rfl⟩ := h
      rfl

theorem expressionAt_eq_error_iff {e : Report} :
    d.expressionAt start depth = .error e ↔ ∃ f,
      d.expressionReader depth (d.source.remaining start) = .error f ∧
        e = d.source.reportOf start f := by
  rw [expressionAt_eq]
  unfold twigAt Source.read
  cases d.expressionReader depth (d.source.remaining start) with
  | error f => simp [eq_comm]
  | ok p => simp

end Document

end HoonReader
