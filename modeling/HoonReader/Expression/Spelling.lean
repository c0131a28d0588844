import HoonReader.Expression
import HoonReader.Gap.Spelling
import HoonReader.Twig.Nesting

/-!
# What an expression looks like

The spellings of a twig under a rune table, said without the reader: a non-empty run of digits
spells a literal, and an application is spelled wide or tall from spellings of its arguments.
-/

namespace HoonReader

/-- A twig with a text that is to spell it. -/
structure Spelling where
  text : Bytes
  twig : BareTwig

/-- A twig with a text that is to spell it and the gap behind the text. -/
structure TallSpelling extends Spelling where
  gap : Bytes

/-- The texts of the wide form with single spaces between them. -/
def wideText (arguments : List Spelling) : Bytes :=
  Tag.wideSeparator.intercalate (arguments.map (·.text))

/-- The texts of the tall form, each with its gap behind it. -/
def tallText (arguments : List TallSpelling) : Bytes :=
  arguments.flatMap fun a => a.text ++ a.gap

/-- The text spells the twig under the table. -/
inductive Spells (table : Table) : Bytes → BareTwig → Prop where
  /-- Digits spell the literal of their value. -/
  | literal {run : Bytes} (nonempty : run ≠ []) (digits : ∀ b ∈ run, isDigit b) :
      Spells table run (.ofValue .ud (.number (Decimal.positional run)) none)
  /-- The wide form of an application. -/
  | wide {form : Form} {first : Spelling} {more : List Spelling}
      (registered : form ∈ table.forms) (length : more.length + 1 = form.rune.arity)
      (arguments : ∀ a ∈ first :: more, Spells table a.text a.twig) :
      Spells table
        (form.glyph.bytes ++ Tag.wideOpen ++ wideText (first :: more) ++ Tag.wideClose)
        (.apply form.rune (.fold first.twig (more.map (·.twig))) none)
  /-- The tall form of an application. -/
  | tall {form : Form} {opening : Bytes} {first : TallSpelling} {more : List TallSpelling}
      (registered : form ∈ table.forms) (length : more.length + 1 = form.rune.arity)
      (opened : IsGap opening) (gaps : ∀ a ∈ first :: more, IsGap a.gap)
      (arguments : ∀ a ∈ first :: more, Spells table a.text a.twig) :
      Spells table
        (form.glyph.bytes ++ opening ++ tallText (first :: more) ++ Tag.tallEnd)
        (.apply form.rune (.fold first.twig (more.map (·.twig))) none)

end HoonReader
