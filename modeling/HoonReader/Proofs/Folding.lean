import HoonReader.Twig.Context

/-!
# Folding and unfolding undo each other

Arguments are folded into cells that lean to the right, and taken apart again by their number. The
number alone tells arguments from what they are made of, for the last one may be a cell itself. What
can be taken apart is a question of the right spine:

* `unfoldMore_of_le`: where the spine is long enough, the arguments are found, and folding them
  gives the twig back, apart from the notes;
* `unfoldMore_of_lt`: where it is not, what is missing is counted from the end of the spine;
* `fold_unfold_inverse`: so folding and unfolding undo each other wherever unfolding succeeds, and
  it succeeds exactly if there are cells enough.
-/

namespace HoonReader.Twig

variable {σ : Type}

/-! ## 1. The right spine -/

/-- The number of cells on the right spine: those met by going from tail to tail. -/
def spine : Twig σ → Nat
  | cell _ tail _ => tail.spine + 1
  | _ => 0

/-- The twig at the end of the right spine; it is no cell. -/
def spineEnd : Twig σ → Twig σ
  | cell _ tail _ => tail.spineEnd
  | t => t

/-- **Where the spine is long enough, the arguments are found**, and they fold into the twig. -/
theorem unfoldMore_of_le {t : Twig σ} {more : Nat} (h : more ≤ t.spine) :
    ∃ first others, unfoldMore more t = .ok (first :: others) ∧ others.length = more ∧
      (fold first others).bare = t.bare := by
  -- both recursions go down the spine, so a count that is left over meets a cell
  induction more generalizing t with
  | zero => exact ⟨t, [], rfl, rfl, rfl⟩
  | succ more ih =>
    cases t with
    | literal odor value note => exact absurd h (Nat.not_succ_le_zero more)
    | rune r => exact absurd h (Nat.not_succ_le_zero more)
    | cell head tail note =>
      obtain ⟨first, others, hunfold, hlength, hfold⟩ := ih (Nat.le_of_succ_le_succ h)
      refine ⟨head, first :: others, ?_, congrArg (· + 1) hlength, ?_⟩
      · rw [unfoldMore, hunfold]
      · rw [fold, bare, bare, hfold]

/-- **Where the spine ends too early, the arguments that are missing are counted** from its end. -/
theorem unfoldMore_of_lt {t : Twig σ} {more : Nat} (h : t.spine < more) :
    unfoldMore more t = .error ⟨more + 1 - t.spine, t.spineEnd.sort⟩ := by
  induction more generalizing t with
  | zero => exact absurd h (Nat.not_lt_zero t.spine)
  | succ more ih =>
    cases t with
    | literal odor value note => rfl
    | rune r => rfl
    | cell head tail note =>
      rw [unfoldMore, ih (Nat.lt_of_succ_lt_succ h), spine, Nat.add_sub_add_right]
      rfl

/-! ## 2. Counts -/

section Count

variable {t : Twig σ} {count : Int}

theorem unfold_of_le (h : count - 1 ≤ t.spine) :
    ∃ items, t.unfold count = .ok items ∧ (items.length : Int) = max count 1 ∧
      ∃ u, foldList items = .ok u ∧ u.bare = t.bare := by
  have hmore : (count - 1).toNat ≤ t.spine := by omega
  obtain ⟨first, others, hunfold, hlength, hfold⟩ := unfoldMore_of_le hmore
  refine ⟨first :: others, hunfold, ?_, fold first others, rfl, hfold⟩
  rw [List.length_cons, hlength]
  omega

theorem unfold_of_lt (h : t.spine < count - 1) :
    ∃ e, t.unfold count = .error e ∧ (e.wanted : Int) = count - t.spine ∧
      e.found = t.spineEnd.sort := by
  have hmore : t.spine < (count - 1).toNat := by omega
  refine ⟨_, unfoldMore_of_lt hmore, ?_, rfl⟩
  show (((count - 1).toNat + 1 - t.spine : Nat) : Int) = count - t.spine
  omega

theorem unfold_fold (first : Twig σ) (more : List (Twig σ)) :
    (fold first more).unfold (first :: more).length = .ok (first :: more) := by
  have hmore : (((first :: more).length : Int) - 1).toNat = more.length := by
    rw [List.length_cons]
    omega
  rw [unfold, hmore, unfoldMore_fold]

end Count

/-- **Folding and unfolding undo each other.** What was folded from a list that is not empty is
    taken apart into the list by its length, whatever its members are made of. A twig is taken apart
    by a count exactly if its right spine has enough cells, and then into as many members as were
    asked for, at least one, which fold into the twig apart from the notes. If the spine has too few
    cells, the error says how many arguments were missing at its end and what stands there. -/
theorem fold_unfold_inverse :
    (∀ (first : Twig σ) (more : List (Twig σ)), ∃ t, foldList (first :: more) = .ok t ∧
      t.unfold (first :: more).length = .ok (first :: more)) ∧
    ∀ (t : Twig σ) (count : Int),
      ((∃ items, t.unfold count = .ok items) ↔ count - 1 ≤ t.spine) ∧
      (∀ items, t.unfold count = .ok items → (items.length : Int) = max count 1 ∧
        ∃ u, foldList items = .ok u ∧ u.bare = t.bare) ∧
      (t.spine < count - 1 → ∃ e, t.unfold count = .error e ∧
        (e.wanted : Int) = count - t.spine ∧ e.found = t.spineEnd.sort ∧
        e.message =
          "expected " ++ toString e.wanted ++ " more arguments, found a " ++ e.found) := by
  refine ⟨fun first more => ⟨fold first more, rfl, unfold_fold first more⟩, fun t count => ?_⟩
  by_cases hle : count - 1 ≤ t.spine
  · obtain ⟨items, hitems, hlength, hfold⟩ := unfold_of_le hle
    refine ⟨iff_of_true ⟨items, hitems⟩ hle, fun items' h => ?_,
      fun hlt => absurd hle (Int.not_le.2 hlt)⟩
    obtain rfl : items = items' := Except.ok.inj (hitems.symm.trans h)
    exact ⟨hlength, hfold⟩
  · obtain ⟨e, herror, hwanted, hfound⟩ := unfold_of_lt (Int.not_le.1 hle)
    have hnone : ∀ items, t.unfold count ≠ .ok items := fun items h => by
      rw [herror] at h
      cases h
    refine ⟨iff_of_false (fun ⟨items, h⟩ => hnone items h) hle,
      fun items h => absurd h (hnone items), fun _ => ⟨e, herror, hwanted, hfound, rfl⟩⟩

/-- Two arguments, the second one a cell of two runes. -/
def lastIsCell : BareTwig :=
  fold (rune .dtls) [cell (rune .dtts) (rune .ktts) none]

theorem fold_unfold_inverse_lastIsCell :
    (∃ items, lastIsCell.unfold 2 = .ok items ∧ (items.length : Int) = 2) ∧
      (∃ items, lastIsCell.unfold 3 = .ok items ∧ (items.length : Int) = 3) ∧
      ((lastIsCell.spine : Int) < 5 - 1 ∧
        ∃ e, lastIsCell.unfold 5 = .error e ∧ (e.wanted : Int) = 3 ∧ e.found = "RuneNode" ∧
          e.message =
            "expected " ++ toString e.wanted ++ " more arguments, found a " ++ e.found) := by
  obtain ⟨-, hunfold⟩ := fold_unfold_inverse (σ := Empty)
  have htwo : (2 : Int) - 1 ≤ lastIsCell.spine := by decide
  have hthree : (3 : Int) - 1 ≤ lastIsCell.spine := by decide
  have hfew : (lastIsCell.spine : Int) < 5 - 1 := by decide
  obtain ⟨items, hitems⟩ := (hunfold lastIsCell 2).1.2 htwo
  obtain ⟨items', hitems'⟩ := (hunfold lastIsCell 3).1.2 hthree
  exact ⟨⟨items, hitems, ((hunfold lastIsCell 2).2.1 items hitems).1⟩,
    ⟨items', hitems', ((hunfold lastIsCell 3).2.1 items' hitems').1⟩,
    hfew, (hunfold lastIsCell 5).2.2 hfew⟩

end HoonReader.Twig
