import HoonReader.Expression.Backtracking
import HoonReader.Proofs.Choice
import HoonReader.Proofs.Document

/-!
# Looking ahead agrees with trying

The reader of expressions looks ahead for the alternative to take and commits itself to it. The
choice by trial reads every alternative in turn, and goes on to the next one after a failure that is
not committed. Both give the same outcome, failures with all their parts included:

* `Alternative.read_of_not_begins`, `Alternative.committed_of_begins`: an alternative fails without
  being committed exactly if its look-ahead says that it cannot begin;
* `firstOf_alternatives`: so trying alternatives takes the one that looking ahead finds;
* `expression_eq_expressionByTrial`: and this on every level of nesting.
-/

namespace HoonReader

/-! ## 1. Look-ahead and failure -/

section Alternatives

variable {argument : Grammar → Reader (Twig Extent)} {alternative : Alternative} {input : Bytes}

/-- An alternative that cannot begin here fails, and another one may still be tried. -/
theorem Alternative.read_of_not_begins (argument : Grammar → Reader (Twig Extent))
    (h : alternative.begins input = false) :
    ∃ f, alternative.read argument input = .error f ∧ f.committed = false := by
  cases alternative with
  | application form =>
    have hnone : after? form.glyph.bytes input = none := by
      have hstands : standsAt form.glyph.bytes input = false := h
      simpa [standsAt] using hstands
    refine ⟨.of (.glyph form.glyph.bytes) input, ?_, rfl⟩
    simp only [read, HoonReader.application, hnone]
  | literal =>
    have hdigit : digitStands input = false := h
    have hdigits : digits input = .error (.of .digit input) := by
      rw [digits, if_neg (by simp [hdigit])]
    refine ⟨.of .digit input, ?_, rfl⟩
    simp only [read, HoonReader.literal, hdigits, bind, Except.bind]

/-- **An alternative that can begin here succeeds, or no other one may be tried.** -/
theorem Alternative.committed_of_begins (h : alternative.begins input = true) {f : Failure}
    (hf : alternative.read argument input = .error f) : f.committed = true := by
  cases alternative with
  | application form =>
    obtain ⟨body, rfl⟩ := standsAt_iff.1 h
    have hread : HoonReader.application argument form (form.glyph.bytes ++ body) = .error f := hf
    simp only [HoonReader.application, after?_append] at hread
    cases hbody : formBody argument form body with
    | error e =>
      rw [hbody] at hread
      cases hread
      rfl
    | ok p =>
      rw [hbody] at hread
      cases hread
  | literal =>
    have hread : HoonReader.literal input = .error f := hf
    rw [literal_of_digit h] at hread
    cases hread

/-! ## 2. The choice -/

/-- **Trying alternatives takes the first one that can begin here**, and its failure is final. -/
theorem firstOf_alternatives (failure : Bytes → Failure) (alternatives : List Alternative) :
    firstOf failure (alternatives.map (·.read argument)) input =
      match alternatives.find? (·.begins input) with
      | none => .error (failure input)
      | some alternative => (alternative.read argument input).mapError Failure.commit := by
  induction alternatives with
  | nil => rfl
  | cons alternative alternatives ih =>
    rw [List.map_cons, firstOf]
    by_cases hbegins : alternative.begins input = true
    · rw [List.find?_cons_of_pos hbegins]
      cases hread : alternative.read argument input with
      | ok p => simp only [hread, Except.mapError]
      | error f =>
        have hcommitted := Alternative.committed_of_begins hbegins hread
        have hself : f.commit = f := by
          cases f
          cases hcommitted
          rfl
        simp only [hread, hcommitted, if_true, Except.mapError, hself]
    · have hnot : alternative.begins input = false := by simpa using hbegins
      obtain ⟨f, hread, hfree⟩ := Alternative.read_of_not_begins argument hnot
      rw [List.find?_cons_of_neg hbegins, ← ih]
      simp only [hread, hfree, Bool.false_eq_true, if_false]

end Alternatives

/-- The alternatives of a table are its forms in their order, and the literal behind them. -/
theorem Table.map_alternatives (table : Table) (argument : Grammar → Reader (Twig Extent)) :
    table.alternatives.map (·.read argument) =
      table.forms.map (application argument) ++ [literal] := by
  rw [alternatives, List.map_append, List.map_map]
  rfl

/-- **Looking ahead gives what trying gives**, on every level of nesting. -/
theorem expression_eq_expressionByTrial (table : Table) (limit : Int) (room : Nat) :
    expression table limit room = expressionByTrial table limit room := by
  induction room with
  | zero => rfl
  | succ n ih =>
    funext input
    rw [expression, expressionByTrial, ih, ← table.map_alternatives]
    exact (firstOf_alternatives _ _).symm

/-! ## 3. Documents -/

namespace Document

/-- **The look-ahead refines the choice by trial.** At every offset and depth, reading an expression
    gives the same twig, spans and end, or the same report, as trying the forms of the table in
    their order and then the literal, where the next one is tried exactly after a failure that is
    not committed. -/
theorem expressionAt_eq_byTrial (d : Document) (start : Nat) (depth : Int) :
    d.expressionAt start depth =
      d.twigAt (expressionByTrial d.table d.limit (room d.limit depth)) start := by
  rw [expressionAt_eq, expressionReader, expression_eq_expressionByTrial]

end Document

end HoonReader
