import HoonReader.Twig

/-!
# Argument lists

The arguments of a rune are folded to the right into one twig: a single argument is itself, and
more are the cell of the first and of the folded others. `unfold` takes a twig apart again into a
given number of arguments.

Main statement: `unfold_fold`, taking apart what was folded gives the arguments back.
-/

namespace HoonReader

/-- A list without elements cannot be folded. -/
inductive FoldError where
  | noArguments
  deriving DecidableEq, Repr

/-- The text of the error. -/
def FoldError.message : FoldError → String
  | noArguments => "cannot fold an empty argument list"

/-- A twig holds fewer arguments than were asked for. -/
structure UnfoldError where
  /-- The number of arguments that are still asked for. -/
  wanted : Nat
  /-- The sort of the twig that was found instead of a cell. -/
  found : String
  deriving DecidableEq, Repr

/-- The text of the error. -/
def UnfoldError.message (e : UnfoldError) : String :=
  "expected " ++ toString e.wanted ++ " more arguments, found a " ++ e.found

namespace Twig

variable {σ : Type}

/-! ## 1. Folding -/

/-- The arguments folded to the right into one twig. -/
def fold (first : Twig σ) : List (Twig σ) → Twig σ
  | [] => first
  | second :: more => cell first (fold second more) none

/-- The list of arguments folded into one twig. -/
def foldList : List (Twig σ) → Except FoldError (Twig σ)
  | [] => .error .noArguments
  | first :: more => .ok (fold first more)

/-! ## 2. Unfolding -/

/-- The first argument and `more` further ones that are folded into the twig. -/
def unfoldMore : (more : Nat) → Twig σ → Except UnfoldError (List (Twig σ))
  | 0, t => .ok [t]
  | more + 1, cell head tail _ =>
    match unfoldMore more tail with
    | .ok arguments => .ok (head :: arguments)
    | .error e => .error e
  | more + 1, t => .error ⟨more + 2, t.sort⟩

/-- The `count` arguments that are folded into the twig; a count below two gives the twig. -/
def unfold (t : Twig σ) (count : Int) : Except UnfoldError (List (Twig σ)) :=
  unfoldMore (count - 1).toNat t

/-- **Taking apart what was folded gives the arguments back.** -/
theorem unfoldMore_fold (first : Twig σ) (more : List (Twig σ)) :
    unfoldMore more.length (fold first more) = .ok (first :: more) := by
  induction more generalizing first with
  | nil => rfl
  | cons second more ih => simp [fold, unfoldMore, ih]

end Twig

end HoonReader
