import HoonReader.Cause.Wording
import HoonReader.Gap
import HoonReader.Rune.Table
import HoonReader.Twig.Arguments
import HoonReader.Wing

/-!
# Expressions

An expression is the application of a registered rune or a decimal literal. The application of a
rune is written

* wide: the glyph, an opening parenthesis, the arguments with single spaces between them, a
  closing parenthesis; or
* tall: the glyph, a gap, every argument with a gap behind it, two equals signs.

The alternatives of a table are its forms in order and then the literal; the first one that can
begin here is taken, and its failures are committed. How deep applications may be nested is
bounded: `room` is the number of levels that are still allowed, and the reader is structurally
recursive on it.

The readers of this file run on what is left of a source. A source is read by offsets, which is the
matter of `HoonReader.Layout`.
-/

namespace HoonReader

/-! ## 1. Literals -/

/-- The stretch of input from where `start` is left up to where `stop` is left. -/
structure Extent where
  start : Bytes
  stop : Bytes
  deriving DecidableEq, Repr

/-- Reads a decimal literal. -/
def literal : Reader (Twig Extent) := fun input => do
  let (text, rest) ← digits input
  match Odor.ud.decode text with
  | .ok n => .ok (.ofValue .ud (.number n) (some ⟨input, rest⟩), rest)
  | .error e => .error (.of (.invalidLiteral Odor.ud.name.text text e.message) input)

/-! ## 2. Arguments -/

section Arguments

variable {α : Type}

/-- Reads further arguments of the wide form, each behind a separator, and its end. -/
def wideMore : List (Reader α) → Reader (List α)
  | [], input => do
    let rest ← expect Tag.wideClose input
    return ([], rest)
  | argument :: arguments, input => do
    let rest ← expect Tag.wideSeparator input
    let (value, rest) ← argument rest
    let (values, rest) ← wideMore arguments rest
    return (value :: values, rest)

/-- Reads the arguments of the wide form and its end. -/
def wideForm (first : Reader α) (more : List (Reader α)) : Reader (α × List α) := fun input => do
  let (value, rest) ← first input
  let (values, rest) ← wideMore more rest
  return ((value, values), rest)

/-- Reads further arguments of the tall form, each with a gap behind it, and its end. -/
def tallMore : List (Reader α) → Reader (List α)
  | [], input => do
    let rest ← expect Tag.tallEnd input
    return ([], rest)
  | argument :: arguments, input => do
    let (value, rest) ← argument input
    let rest ← gap rest
    let (values, rest) ← tallMore arguments rest
    return (value :: values, rest)

/-- Reads the arguments of the tall form, each with a gap behind it, and its end. -/
def tallForm (first : Reader α) (more : List (Reader α)) : Reader (α × List α) := fun input => do
  let (value, rest) ← first input
  let rest ← gap rest
  let (values, rest) ← tallMore more rest
  return ((value, values), rest)

end Arguments

/-! ## 3. Applications -/

/-- Reads what stands behind the glyph of a form: the opening parenthesis chooses the wide form,
    anything else must be the gap of the tall form. -/
def formBody (argument : Grammar → Reader (Twig Extent)) (form : Form) :
    Reader (Twig Extent × List (Twig Extent)) := fun input =>
  match after? Tag.wideOpen input with
  | some rest => wideForm (argument form.first) (form.more.map argument) rest
  | none => do
    let rest ← gap input
    tallForm (argument form.first) (form.more.map argument) rest

/-- Reads the application of the rune of a form; failures behind the glyph are committed. -/
def application (argument : Grammar → Reader (Twig Extent)) (form : Form) :
    Reader (Twig Extent) := fun input =>
  match after? form.glyph.bytes input with
  | none => .error (.of (.glyph form.glyph.bytes) input)
  | some rest =>
    match formBody argument form rest with
    | .error e => .error e.commit
    | .ok ((first, more), rest) =>
      .ok (.apply form.rune (.fold first more) (some ⟨input, rest⟩), rest)

/-! ## 4. The choice -/

/-- One way to read an expression. -/
inductive Alternative where
  /-- The application of the rune of a form. -/
  | application (form : Form)
  /-- A decimal literal. -/
  | literal
  deriving DecidableEq

namespace Alternative

/-- The name of the alternative: the glyph of the form, or the odor of the literal. -/
def name : Alternative → String
  | application form => form.glyph.text
  | literal => Odor.ud.name.text

/-- The alternative can begin here. -/
def begins (input : Bytes) : Alternative → Bool
  | application form => standsAt form.glyph.bytes input
  | literal => digitStands input

/-- Reads the alternative, with the readers of the arguments. -/
def read (argument : Grammar → Reader (Twig Extent)) : Alternative → Reader (Twig Extent)
  | application form => HoonReader.application argument form
  | literal => HoonReader.literal

end Alternative

/-- The alternatives of a table, in the order in which they are tried. -/
def Table.alternatives (t : Table) : List Alternative :=
  t.forms.map .application ++ [.literal]

/-- What reads each grammar, given what reads expressions. -/
def Grammar.reader {ρ : Type} (expression : ρ) : Grammar → ρ
  | .expression => expression

/-- Nothing that can begin an expression stands here. -/
def noExpression (table : Table) (input : Bytes) : Failure :=
  .of (.expression (glyphsSharing input (table.glyphs.map Glyph.text))) input

/-- Reads an expression, with `room` levels of applications still allowed under `limit`. -/
def expression (table : Table) (limit : Int) : (room : Nat) → Reader (Twig Extent)
  | 0, input => .error (.of (.tooDeep limit) input)
  | room + 1, input =>
    match table.alternatives.find? (·.begins input) with
    | none => .error (noExpression table input)
    | some alternative =>
      (alternative.read (Grammar.reader (expression table limit room)) input).mapError
        Failure.commit

/-- The number of levels that the limit still allows at a depth. -/
def room (limit depth : Int) : Nat :=
  (limit + 1 - depth).toNat

end HoonReader
