import HoonReader.Rune
import HoonReader.Text.Quoted

/-!
# Rune forms

A form says how the application of a rune is written: by its glyph, and by one grammar for each
of its arguments. A form is well made by its type: its glyph is the glyph of its rune, and it has
as many arguments as the rune takes (`Form.arguments_length`).

`Form.ofNames` makes a form from a list of grammar names, and refuses, in this order, a rune
without a glyph, a list of the wrong length, and the first name that is not one of a grammar.
-/

namespace HoonReader

/-- The grammar of an argument. -/
inductive Grammar where
  /-- Any expression. -/
  | expression
  deriving DecidableEq, Repr

namespace Grammar

/-- The name of the grammar. -/
def name : Grammar → String
  | expression => "expression"

/-- The grammar of a name. -/
def ofName? (name : String) : Option Grammar :=
  if name = expression.name then some expression else none

end Grammar

/-- A rune with its glyph and the grammar of each argument. -/
structure Form where
  rune : Rune
  glyph : Glyph
  /-- The grammar of the first argument. -/
  first : Grammar
  /-- The grammars of the other arguments. -/
  more : List Grammar
  glyph_eq : rune.glyph? = some glyph
  arity_eq : more.length + 1 = rune.arity
  deriving DecidableEq

/-- Why a form cannot be made. -/
inductive FormError where
  /-- The rune is not written by a glyph. -/
  | noGlyph (rune : Rune)
  /-- The rune takes another number of arguments. -/
  | wrongLength (rune : Rune) (given : Nat)
  /-- No grammar has this name. -/
  | unknownGrammar (name : String)
  deriving DecidableEq, Repr

/-- The text of the error. -/
def FormError.message : FormError → String
  | noGlyph rune => "rune " ++ rune.name.text ++ " has no two-character glyph"
  | wrongLength rune given =>
    "rune " ++ rune.name.text ++ " takes " ++ toString rune.arity ++
      " arguments, grammar lists " ++ toString given
  | unknownGrammar name => "unknown argument grammar: " ++ Text.quoted name

namespace Form

/-- The grammars of all arguments. -/
def arguments (f : Form) : List Grammar :=
  f.first :: f.more

/-- **A form has one grammar for each argument of its rune.** -/
theorem arguments_length (f : Form) : f.arguments.length = f.rune.arity :=
  f.arity_eq

/-- The form of a glyph's rune whose arguments are all expressions. -/
def ofGlyph (rune : Rune) (glyph : Glyph) (h : rune.glyph? = some glyph) : Form where
  rune
  glyph
  first := .expression
  more := List.replicate (rune.arity - 1) .expression
  glyph_eq := h
  arity_eq := by
    have := rune.arity_pos
    simp only [List.length_replicate]
    omega

/-- The form of a rune whose arguments are all expressions. -/
def ofExpressions (rune : Rune) : Except FormError Form :=
  match h : rune.glyph? with
  | none => .error (.noGlyph rune)
  | some glyph => .ok (ofGlyph rune glyph h)

/-- The grammars of a list of names; refuses the first name that is not one of a grammar. -/
def grammars : (names : List String) →
    Except FormError { found : List Grammar // found.length = names.length }
  | [] => .ok ⟨[], rfl⟩
  | name :: names =>
    match Grammar.ofName? name with
    | none => .error (.unknownGrammar name)
    | some grammar =>
      match grammars names with
      | .error e => .error e
      | .ok ⟨found, h⟩ => .ok ⟨grammar :: found, by simp [h]⟩

/-- The form of a rune with the grammars of these names. -/
def ofNames (rune : Rune) (names : List String) : Except FormError Form :=
  match hg : rune.glyph? with
  | none => .error (.noGlyph rune)
  | some glyph =>
    if ha : names.length = rune.arity then
      match grammars names with
      | .error e => .error e
      | .ok ⟨[], h⟩ =>
        absurd (h.trans ha) (Nat.ne_of_lt rune.arity_pos)
      | .ok ⟨first :: more, h⟩ =>
        .ok { rune, glyph, first, more, glyph_eq := hg, arity_eq := h.trans ha }
    else .error (.wrongLength rune names.length)

end Form

end HoonReader
