import HoonReader.Proofs.Document
import HoonReader.Proofs.Room

/-!
# How the limit of nesting shows

The limit shows in what is read only if it is reached: under a larger one the outcome is the same,
unless it was a nesting that went too deep (`expression_agree`, `Document.expressionAt_agree`).

So the stack, which is a limit of its own, shows only if it is exhausted
(`Document.parse_eq_expressionAt`): all else that is said of reading at the start of a document
holds of `parse` as well.
-/

namespace HoonReader

/-! ## 1. Expressions -/

/-- The second outcome is the first one, unless that is a nesting too deep for the limit. -/
def AgreeUpTo {α : Type} (limit : Int) (x y : Except Failure α) : Prop :=
  y = x ∨ ∃ f, x = .error f ∧ f.cause = .tooDeep limit

theorem Outruns.agree {α : Type} {rest : α → Bytes} {limit : Int} {x y : Except Failure α}
    (h : Outruns rest limit x y) : AgreeUpTo limit x y := by
  rcases h with heq | ⟨f, hf, hcause, -⟩
  · exact .inl heq
  · exact .inr ⟨f, hf, hcause⟩

/-- **With more room the outcome is the same**, unless it was a nesting that went too deep. -/
theorem expression_agree (table : Table) {limit limit' : Int} {room room' : Nat}
    (h : room ≤ room') (input : Bytes) :
    AgreeUpTo limit (expression table limit room input) (expression table limit' room' input) :=
  (expression_outruns table h input).agree

/-! ## 2. Documents -/

namespace Document

variable {d : Document} {start : Nat} {depth limit : Int}

theorem room_le_room {limit' : Int} (h : limit ≤ limit') (depth : Int) :
    room limit depth ≤ room limit' depth := by
  show (limit + 1 - depth).toNat ≤ (limit' + 1 - depth).toNat
  omega

/-- **Under a larger limit the outcome is the same**, unless it was a nesting that went too deep. -/
theorem expressionAt_agree (h : limit ≤ d.limit) (start : Nat) (depth : Int) :
    d.expressionAt start depth = { d with limit }.expressionAt start depth ∨
      ∃ e, { d with limit }.expressionAt start depth = .error e ∧ e.cause = .tooDeep limit := by
  have hagree : AgreeUpTo limit _ (expression d.table d.limit _ (d.source.remaining start)) :=
    expression_agree d.table (room_le_room h depth) (d.source.remaining start)
  rcases hagree with heq | ⟨f, hf, hcause⟩
  · refine .inl ?_
    rw [expressionAt_eq, expressionAt_eq]
    unfold twigAt Source.read expressionReader
    rw [heq]
  · exact .inr ⟨_, expressionAt_eq_error_iff.2 ⟨f, hf, rfl⟩, hcause⟩

/-- Reading from the start is reading an expression there, as far as the stack allows it. -/
theorem parse_eq (d : Document) :
    d.parse =
      if d.limit ≤ stackLevels then d.expressionAt 0 0
      else
        match { d with limit := stackLevels }.expressionAt 0 0 with
        | .ok reading => .ok reading
        | .error report =>
          if report.cause = .tooDeep stackLevels then
            .error (d.source.report (.stackExhausted d.limit) true 0)
          else .error report := rfl

/-- The document read with no more levels than the stack holds. -/
def onStack (d : Document) : Document :=
  { d with limit := min d.limit stackLevels }

/-- The stack was exhausted, since the limit of the document allows more than it holds. -/
def Exhausts (d : Document) (cause : Cause) : Prop :=
  stackLevels < d.limit ∧ cause = .tooDeep stackLevels

/-- The report that the stack was exhausted. -/
def exhausted (d : Document) : Report :=
  d.source.report (.stackExhausted d.limit) true 0

instance (d : Document) (cause : Cause) : Decidable (d.Exhausts cause) :=
  inferInstanceAs (Decidable (_ ∧ _))

theorem parse_eq_onStack (d : Document) :
    d.parse =
      match d.onStack.expressionAt 0 0 with
      | .ok r => .ok r
      | .error e => if d.Exhausts e.cause then .error d.exhausted else .error e := by
  rw [parse_eq]
  by_cases hlimit : d.limit ≤ stackLevels
  · have hself : d.onStack = d := by
      show { d with limit := min d.limit stackLevels } = d
      rw [min_eq_left hlimit]
    have hfits : ∀ cause, ¬ d.Exhausts cause := fun cause h => absurd h.1 (not_lt.2 hlimit)
    rw [if_pos hlimit, hself]
    cases d.expressionAt 0 0 with
    | ok r => rfl
    | error e => exact (if_neg (hfits e.cause)).symm
  · have hcut : d.onStack = { d with limit := stackLevels } := by
      show { d with limit := min d.limit stackLevels } = _
      rw [min_eq_right (Int.le_of_not_le hlimit)]
    rw [if_neg hlimit, hcut]
    cases { d with limit := stackLevels }.expressionAt 0 0 with
    | ok r => rfl
    | error e => simp [Exhausts, exhausted, not_le.1 hlimit]

theorem parse_eq_ok_iff {r : Reading} :
    d.parse = .ok r ↔ d.onStack.expressionAt 0 0 = .ok r := by
  rw [parse_eq_onStack]
  cases d.onStack.expressionAt 0 0 with
  | ok r' => rfl
  | error e =>
    by_cases hx : d.Exhausts e.cause
    · simp [hx]
    · simp [hx]

theorem parse_eq_error_iff {e : Report} :
    d.parse = .error e ↔
      (d.onStack.expressionAt 0 0 = .error e ∧ ¬ d.Exhausts e.cause) ∨
      (e = d.exhausted ∧ ∃ e', d.onStack.expressionAt 0 0 = .error e' ∧ d.Exhausts e'.cause) := by
  rw [parse_eq_onStack]
  cases d.onStack.expressionAt 0 0 with
  | ok r => simp
  | error e' =>
    constructor
    · intro h
      by_cases hx : d.Exhausts e'.cause
      · simp only [if_pos hx, Except.error.injEq] at h
        exact .inr ⟨h.symm, e', rfl, hx⟩
      · simp only [if_neg hx] at h
        cases h
        exact .inl ⟨rfl, hx⟩
    · intro h
      rcases h with ⟨he, hx⟩ | ⟨rfl, e'', he, hx⟩
      · cases he
        exact if_neg hx
      · cases he
        exact if_pos hx

/-- **The stack shows only if it is exhausted**: otherwise reading from the start is reading an
    expression at the start. -/
theorem parse_eq_expressionAt (d : Document) :
    d.parse = d.expressionAt 0 0 ∨ d.parse = .error d.exhausted := by
  have hcut : { d with limit := min d.limit stackLevels } = d.onStack := rfl
  have hagree := expressionAt_agree (min_le_left d.limit stackLevels) 0 0
  rcases hagree with heq | ⟨e, he, hcause⟩
  · rw [hcut] at heq
    rw [heq, parse_eq_onStack]
    cases d.onStack.expressionAt 0 0 with
    | ok r => exact .inl rfl
    | error e =>
      by_cases hx : d.Exhausts e.cause
      · exact .inr (if_pos hx)
      · exact .inl (if_neg hx)
  · by_cases hlimit : d.limit ≤ stackLevels
    · refine .inl ?_
      rw [parse_eq, if_pos hlimit]
    · rw [min_eq_right (Int.le_of_not_le hlimit)] at hcause
      exact .inr (parse_eq_error_iff.2 (.inr ⟨rfl, e, he, not_le.1 hlimit, hcause⟩))

end Document

end HoonReader
