import Mathlib.Data.List.Forall2
import HoonReader.Twig.Arguments

/-!
# Outcomes and twigs that go together

Two runs are compared step by step: whether both give a result or both fail, and what their results
and their failures have to do with each other. What is read is compared node by node.

* `Paired`, `Paired.bind`: two outcomes go together, and this is kept from step to step;
* `Twig.Related`: two twigs are equal apart from their notes, and their notes are related.
-/

namespace HoonReader

open Twig

/-! ## 1. Outcomes that go together -/

/-- Two outcomes go together: both are results and these are related, or both are failures and
    these are related. -/
inductive Paired {ε ε' α β : Type} (failures : ε → ε' → Prop) (results : α → β → Prop) :
    Except ε α → Except ε' β → Prop where
  | ok {a : α} {b : β} (h : results a b) : Paired failures results (.ok a) (.ok b)
  | error {e : ε} {e' : ε'} (h : failures e e') : Paired failures results (.error e) (.error e')

namespace Paired

variable {ε ε' α β γ δ : Type} {failures failures' : ε → ε' → Prop}
  {results results' : α → β → Prop} {x : Except ε α} {y : Except ε' β}

theorem of_ok {a : α} (h : Paired failures results (.ok a) y) : ∃ b, y = .ok b ∧ results a b := by
  cases h with
  | ok h => exact ⟨_, rfl, h⟩

theorem of_error {e : ε} (h : Paired failures results (.error e) y) :
    ∃ e', y = .error e' ∧ failures e e' := by
  cases h with
  | error h => exact ⟨_, rfl, h⟩

theorem imp (h : Paired failures results x y) (failure : ∀ e e', failures e e' → failures' e e')
    (result : ∀ a b, results a b → results' a b) : Paired failures' results' x y := by
  cases h with
  | ok h => exact .ok (result _ _ h)
  | error h => exact .error (failure _ _ h)

/-- **Steps that go together lead on to steps that do.** -/
theorem bind {results' : γ → δ → Prop} {k : α → Except ε γ} {k' : β → Except ε' δ}
    (h : Paired failures results x y)
    (hk : ∀ a b, results a b → Paired failures results' (k a) (k' b)) :
    Paired failures results' (x >>= k) (y >>= k') := by
  cases h with
  | ok h => exact hk _ _ h
  | error h => exact .error h

theorem map {results' : γ → δ → Prop} (f : α → γ) (g : β → δ)
    (h : Paired failures results x y) (hfg : ∀ a b, results a b → results' (f a) (g b)) :
    Paired failures results' (x.map f) (y.map g) := by
  cases h with
  | ok h => exact .ok (hfg _ _ h)
  | error h => exact .error h

theorem mapError {ε₁ ε₂ : Type} {failures' : ε₁ → ε₂ → Prop} (f : ε → ε₁) (g : ε' → ε₂)
    (h : Paired failures results x y) (hfg : ∀ e e', failures e e' → failures' (f e) (g e')) :
    Paired failures' results (x.mapError f) (y.mapError g) := by
  cases h with
  | ok h => exact .ok h
  | error h => exact .error (hfg _ _ h)

end Paired

/-- The first argument and the others are related. -/
def ArgumentsRelated {α β : Type} (values : α → β → Prop) (a : α × List α) (b : β × List β) :
    Prop :=
  values a.1 b.1 ∧ List.Forall₂ values a.2 b.2

/-! ## 2. Twigs that go together -/

/-- The twigs are equal apart from their notes, and the notes are related one by one. -/
inductive Twig.Related {σ τ : Type} (notes : σ → τ → Prop) : Twig σ → Twig τ → Prop where
  | literal (odor : Odor) (value : Value) {a : Option σ} {b : Option τ}
      (note : Option.Rel notes a b) :
      Related notes (.literal odor value a) (.literal odor value b)
  | cell {head tail : Twig σ} {head' tail' : Twig τ} {a : Option σ} {b : Option τ}
      (first : Related notes head head') (second : Related notes tail tail')
      (note : Option.Rel notes a b) :
      Related notes (.cell head tail a) (.cell head' tail' b)
  | rune (r : Rune) : Related notes (.rune r) (.rune r)

namespace Twig.Related

variable {σ τ : Type} {notes : σ → τ → Prop} {t : Twig σ} {u : Twig τ}

theorem refl (t : Twig σ) : Twig.Related Eq t t := by
  have hnote : ∀ a : Option σ, Option.Rel Eq a a := by
    intro a
    cases a with
    | none => exact .none
    | some a => exact .some rfl
  induction t with
  | literal odor value note => exact .literal odor value (hnote note)
  | cell head tail note ihead itail => exact .cell ihead itail (hnote note)
  | rune r => exact .rune r

theorem bare_eq (h : Twig.Related notes t u) : t.bare = u.bare := by
  induction h with
  | literal odor value note => rfl
  | cell first second note ihfirst ihsecond => simp [bare, ihfirst, ihsecond]
  | rune r => rfl

theorem map {σ' τ' : Type} {notes' : σ' → τ' → Prop} (f : σ → σ') (g : τ → τ')
    (h : Twig.Related notes t u) (note : ∀ a b, notes a b → notes' (f a) (g b)) :
    Twig.Related notes' (t.map f) (u.map g) := by
  have hnote : ∀ {a : Option σ} {b : Option τ}, Option.Rel notes a b →
      Option.Rel notes' (a.map f) (b.map g) := by
    intro a b hab
    cases hab with
    | none => exact .none
    | some hab => exact .some (note _ _ hab)
  induction h with
  | literal odor value hab => exact .literal odor value (hnote hab)
  | cell first second hab ihfirst ihsecond => exact .cell ihfirst ihsecond (hnote hab)
  | rune r => exact .rune r

/-- Twigs with notes that are changed to the same notes are changed to the same twig. -/
theorem map_eq {ρ : Type} (f : σ → ρ) (g : τ → ρ) (h : Twig.Related notes t u)
    (note : ∀ a b, notes a b → f a = g b) : t.map f = u.map g := by
  have hnote : ∀ {a : Option σ} {b : Option τ}, Option.Rel notes a b → a.map f = b.map g := by
    intro a b hab
    cases hab with
    | none => rfl
    | some hab => exact congrArg some (note _ _ hab)
  induction h with
  | literal odor value hab => rw [Twig.map, Twig.map, hnote hab]
  | cell first second hab ihfirst ihsecond =>
    rw [Twig.map, Twig.map, hnote hab, ihfirst, ihsecond]
  | rune r => rfl

/-- A twig with notes that come of those of another one is that twig with its notes changed. -/
theorem eq_map (f : σ → τ) (h : Twig.Related notes t u) (note : ∀ a b, notes a b → b = f a) :
    u = t.map f := by
  have hnote : ∀ {a : Option σ} {b : Option τ}, Option.Rel notes a b → b = a.map f := by
    intro a b hab
    cases hab with
    | none => rfl
    | some hab => exact congrArg some (note _ _ hab)
  induction h with
  | literal odor value hab => rw [Twig.map, hnote hab]
  | cell first second hab ihfirst ihsecond => rw [Twig.map, hnote hab, ihfirst, ihsecond]
  | rune r => rfl

theorem fold {first : Twig σ} {first' : Twig τ} {more : List (Twig σ)} {more' : List (Twig τ)}
    (h : Twig.Related notes first first') (hmore : List.Forall₂ (Twig.Related notes) more more') :
    Twig.Related notes (.fold first more) (.fold first' more') := by
  induction hmore generalizing first first' with
  | nil => exact h
  | cons hsecond _ ih => exact .cell h (ih hsecond) .none

end Twig.Related

end HoonReader
