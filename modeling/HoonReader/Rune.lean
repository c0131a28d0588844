import HoonReader.Bytes

/-!
# Runes

A rune is an operator with a fixed number of arguments. Seven of them are written by a glyph of
two characters; the eighth, `dtzy`, marks a literal in a twig and has no glyph.

Main statements: `arity_pos`, every rune takes an argument; `eq_of_glyph?_eq`, a glyph names at
most one rune.
-/

namespace HoonReader

/-- The two bytes by which a rune is written. -/
structure Glyph where
  first : UInt8
  second : UInt8
  deriving DecidableEq, Repr

namespace Glyph

/-- The glyph as a tag. -/
def bytes (g : Glyph) : Bytes :=
  [g.first, g.second]

/-- The glyph as text. -/
def text (g : Glyph) : String :=
  g.bytes.text

/-- The glyph of two ASCII characters. -/
def ofChars (first second : Char) : Glyph :=
  ⟨UInt8.ofNat first.toNat, UInt8.ofNat second.toNat⟩

@[simp] theorem length_bytes (g : Glyph) : g.bytes.length = 2 := rfl

/-- **Glyphs with the same bytes are the same.** -/
theorem bytes_inj {g h : Glyph} : g.bytes = h.bytes ↔ g = h := by
  cases g
  cases h
  simp [bytes]

end Glyph

/-- The runes. -/
inductive Rune where
  /-- A loop point. -/
  | brhp
  /-- The successor of a number. -/
  | dtls
  /-- The test for equality. -/
  | dtts
  /-- A name for a value. -/
  | ktts
  /-- One expression evaluated against another. -/
  | tsgr
  /-- A value pushed onto the subject. -/
  | tsls
  /-- The choice between two branches. -/
  | wtcl
  /-- A literal. -/
  | dtzy
  deriving DecidableEq, Repr

namespace Rune

/-- All runes. -/
def all : List Rune :=
  [brhp, dtls, dtts, ktts, tsgr, tsls, wtcl, dtzy]

/-- The name of the rune. -/
def name : Rune → Bytes
  | brhp => ascii ['b', 'r', 'h', 'p']
  | dtls => ascii ['d', 't', 'l', 's']
  | dtts => ascii ['d', 't', 't', 's']
  | ktts => ascii ['k', 't', 't', 's']
  | tsgr => ascii ['t', 's', 'g', 'r']
  | tsls => ascii ['t', 's', 'l', 's']
  | wtcl => ascii ['w', 't', 'c', 'l']
  | dtzy => ascii ['d', 't', 'z', 'y']

/-- The name of the rune behind a percent sign, as it is printed. -/
def tag (r : Rune) : Bytes :=
  ascii ['%'] ++ r.name

/-- The glyph of the rune, if it is written by one. -/
def glyph? : Rune → Option Glyph
  | brhp => some (.ofChars '|' '-')
  | dtls => some (.ofChars '.' '+')
  | dtts => some (.ofChars '.' '=')
  | ktts => some (.ofChars '^' '=')
  | tsgr => some (.ofChars '=' '>')
  | tsls => some (.ofChars '=' '+')
  | wtcl => some (.ofChars '?' ':')
  | dtzy => none

/-- The number of arguments that the rune takes. -/
def arity : Rune → Nat
  | brhp | dtls | dtzy => 1
  | dtts | ktts | tsgr | tsls => 2
  | wtcl => 3

/-- The rune of a name. -/
def ofName? (name : Bytes) : Option Rune :=
  all.find? (·.name == name)

/-- The rune that is written by a text. -/
def ofGlyph? (text : String) : Option Rune :=
  all.find? fun r => r.glyph?.map Glyph.text == some text

theorem mem_all (r : Rune) : r ∈ all := by
  cases r <;> decide

/-- **Every rune takes at least one argument.** -/
theorem arity_pos (r : Rune) : 0 < r.arity := by
  cases r <;> decide

/-- **A glyph names at most one rune.** -/
theorem eq_of_glyph?_eq {r s : Rune} {g : Glyph} (hr : r.glyph? = some g)
    (hs : s.glyph? = some g) : r = s := by
  have h : r.glyph? = s.glyph? := hr.trans hs.symm
  revert h hr
  cases r <;> cases s <;> simp [glyph?, Glyph.ofChars]

end Rune

end HoonReader
