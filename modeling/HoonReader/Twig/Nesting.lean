import HoonReader.Twig.Arguments

/-!
# Nesting and well-formed twigs

The nesting of a twig is the number of applications around its innermost literal, counted along
the deepest path; a literal has none. A twig is well-formed if it has a spelling in a source: a
literal that is a number and not negative, or the application of a rune with a glyph to as many
well-formed arguments as the rune takes.

Main statements: `nesting_ofValue`, `nesting_apply_fold`.
-/

namespace HoonReader.Twig

variable {σ : Type}

/-! ## 1. Nesting -/

/-- The greatest nesting among a first argument and `more` further ones that are folded into the
    twig. -/
def nestingOf : Twig σ → (more : Nat) → Nat
  | cell head tail _, more + 1 => max (head.nestingOf 0) (tail.nestingOf more)
  | cell (rune r) tail _, 0 =>
    if r.glyph?.isSome then tail.nestingOf (r.arity - 1) + 1 else 0
  | _, _ => 0

/-- The number of applications that are nested in the twig. -/
def nesting (t : Twig σ) : Nat :=
  t.nestingOf 0

/-- The greatest nesting in a list of twigs. -/
def maxNesting (ts : List (Twig σ)) : Nat :=
  ts.foldr (fun t n => max t.nesting n) 0

theorem nestingOf_fold (first : Twig σ) (more : List (Twig σ)) :
    (fold first more).nestingOf more.length = maxNesting (first :: more) := by
  induction more generalizing first with
  | nil => simp [fold, maxNesting, nesting]
  | cons second more ih =>
    rw [fold, List.length_cons, nestingOf, ih]
    simp [maxNesting, nesting]

/-- **A literal has no nesting.** -/
@[simp] theorem nesting_ofValue (odor : Odor) (value : Value) (note : Option σ) :
    (ofValue odor value note).nesting = 0 := rfl

/-- **An application nests one level deeper than its arguments.** -/
theorem nesting_apply_fold {r : Rune} (hr : r.glyph?.isSome) (first : Twig σ)
    (more : List (Twig σ)) (note : Option σ) (h : more.length + 1 = r.arity) :
    (apply r (fold first more) note).nesting = maxNesting (first :: more) + 1 := by
  have hm : r.arity - 1 = more.length := by omega
  rw [nesting, apply, nestingOf, if_pos hr, hm, nestingOf_fold]

/-! ## 2. Well-formed twigs -/

/-- The twig has a spelling in a source. -/
inductive WellFormed : BareTwig → Prop where
  | literal (n : Nat) : WellFormed (ofValue .ud (.number n) none)
  | application {r : Rune} {first : BareTwig} {more : List BareTwig}
      (hr : r.glyph?.isSome) (h : more.length + 1 = r.arity)
      (arguments : ∀ t ∈ first :: more, WellFormed t) :
      WellFormed (apply r (fold first more) none)

/-- The twig is a literal as it stands in a source. -/
def IsLiteral (t : Twig σ) : Prop :=
  t.appliedRune? = some .dtzy

end HoonReader.Twig
