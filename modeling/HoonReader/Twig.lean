import HoonReader.Literal
import HoonReader.Rune

/-!
# Twigs

A twig is a binary tree: a literal, a cell of two twigs, or the name of a rune. The application of
a rune is the cell of the rune's name and its arguments, and a literal in a source is the
application of `dtzy` to it.

A literal and a cell may carry a note of where they stand; the type of the notes is a parameter.
Two twigs are the same if they are equal apart from their notes (`Twig.same`); `Twig.bare` drops
the notes, so that this is an equation.
-/

namespace HoonReader

/-- A tree of literals, cells and runes; literals and cells may have a note of type `σ`. -/
inductive Twig (σ : Type) where
  /-- A value under an odor. -/
  | literal (odor : Odor) (value : Value) (note : Option σ)
  /-- An ordered pair. -/
  | cell (head tail : Twig σ) (note : Option σ)
  /-- The name of a rune. -/
  | rune (rune : Rune)
  deriving DecidableEq

/-- A twig without notes. -/
abbrev BareTwig := Twig Empty

namespace Twig

variable {σ τ : Type}

/-! ## 1. Notes -/

/-- The twig with every note changed. -/
def map (f : σ → τ) : Twig σ → Twig τ
  | literal odor value note => literal odor value (note.map f)
  | cell head tail note => cell (head.map f) (tail.map f) (note.map f)
  | rune r => rune r

/-- The twig without its notes. -/
def bare : Twig σ → BareTwig
  | literal odor value _ => literal odor value none
  | cell head tail _ => cell head.bare tail.bare none
  | rune r => rune r

/-- The note of the whole twig. -/
def note? : Twig σ → Option σ
  | literal _ _ note => note
  | cell _ _ note => note
  | rune _ => none

/-- The twigs are equal apart from their notes. -/
def same : Twig σ → Twig τ → Bool
  | literal odor value _, literal odor' value' _ => odor == odor' && value.same value'
  | cell head tail _, cell head' tail' _ => head.same head' && tail.same tail'
  | rune r, rune r' => r == r'
  | _, _ => false

/-! ## 2. Applications -/

/-- The application of a rune to its folded arguments. -/
def apply (r : Rune) (arguments : Twig σ) (note : Option σ) : Twig σ :=
  cell (rune r) arguments note

/-- A value as it stands in a source: `dtzy` applied to the literal; both have the note. -/
def ofValue (odor : Odor) (value : Value) (note : Option σ) : Twig σ :=
  apply .dtzy (literal odor value note) note

/-- The rune that the twig applies. -/
def appliedRune? : Twig σ → Option Rune
  | cell (rune r) _ _ => some r
  | _ => none

/-! ## 3. Parts -/

/-- The twigs directly below. -/
def children : Twig σ → List (Twig σ)
  | cell head tail _ => [head, tail]
  | _ => []

/-- The twig and all twigs below it, each in front of its parts, in front of `rest`. -/
def preorderOnto (rest : List (Twig σ)) : Twig σ → List (Twig σ)
  | cell head tail note =>
    cell head tail note :: head.preorderOnto (tail.preorderOnto rest)
  | t => t :: rest

/-- The twig and all twigs below it, each in front of its parts. -/
def preorder (t : Twig σ) : List (Twig σ) :=
  t.preorderOnto []

/-- What a twig is called in a message. -/
def sort : Twig σ → String
  | literal .. => "Literal"
  | cell .. => "Cell"
  | rune _ => "RuneNode"

/-- How many twigs of each sort a twig is made of. -/
structure Census where
  literals : Nat
  cells : Nat
  runes : Nat
  deriving DecidableEq, Repr

/-- The number of literals, cells and runes in the twig. -/
def census : Twig σ → Census
  | literal .. => ⟨1, 0, 0⟩
  | rune _ => ⟨0, 0, 1⟩
  | cell head tail _ =>
    let a := head.census
    let b := tail.census
    ⟨a.literals + b.literals, a.cells + b.cells + 1, a.runes + b.runes⟩

end Twig

end HoonReader
