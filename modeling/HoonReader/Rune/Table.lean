import HoonReader.Rune.Form

/-!
# Rune tables

A table holds forms in the order in which they were registered, no two of them with one glyph.
That no glyph occurs twice is part of the type, so every table that can be built has it.

Main statements: `register_eq_ok_iff`, a form is accepted exactly if its glyph is new, and is
then the last one; `copy_eq`, a table can be copied; `lookup_eq_some_iff`, looking up a glyph finds
its form.
-/

namespace HoonReader

/-- Forms in the order of their registration, with distinct glyphs. -/
structure Table where
  forms : List Form
  distinct : (forms.map (·.glyph)).Nodup
  deriving DecidableEq

/-- The table already has a form with this glyph. -/
structure GlyphTaken where
  glyph : Glyph
  deriving DecidableEq, Repr

/-- The text of the error. -/
def GlyphTaken.message (e : GlyphTaken) : String :=
  "glyph " ++ Text.quoted e.glyph.text ++ " is already registered"

namespace Table

/-- The table without forms. -/
def empty : Table where
  forms := []
  distinct := List.nodup_nil

/-- The glyphs of the table, in order. -/
def glyphs (t : Table) : List Glyph :=
  t.forms.map (·.glyph)

/-- The form that is written by these bytes. -/
def lookup (t : Table) (glyph : Bytes) : Option Form :=
  t.forms.find? (·.glyph.bytes == glyph)

/-- The table has a form of the rune. -/
def contains (t : Table) (rune : Rune) : Bool :=
  t.forms.any (·.rune == rune)

/-- The glyphs stay distinct when a form with a new one is put behind the others. -/
theorem distinct_append (t : Table) {form : Form} (new : form.glyph ∉ t.glyphs) :
    ((t.forms ++ [form]).map (·.glyph)).Nodup := by
  rw [List.map_append]
  refine List.nodup_append.2 ⟨t.distinct, by simp, fun a ha b hb e => new ?_⟩
  have hf : b = form.glyph := List.mem_singleton.1 hb
  exact hf ▸ e ▸ ha

/-- The table with one more form, which comes last. -/
def register (t : Table) (form : Form) : Except GlyphTaken Table :=
  if taken : form.glyph ∈ t.glyphs then .error ⟨form.glyph⟩
  else .ok ⟨t.forms ++ [form], t.distinct_append taken⟩

/-- The table of these forms, registered one after the other. -/
def ofForms (forms : List Form) : Except GlyphTaken Table :=
  forms.foldlM register empty

/-- Another table of the same forms. -/
def copy (t : Table) : Except GlyphTaken Table :=
  ofForms t.forms

/-- The runes of the standard table. -/
def standardRunes : List Rune :=
  [.brhp, .dtls, .dtts, .ktts, .tsgr, .tsls, .wtcl]

/-- The standard table: every rune with a glyph, its arguments all expressions. -/
def standard : Table where
  forms := standardRunes.filterMap fun rune => (Form.ofExpressions rune).toOption
  distinct := by decide

/-- **A form is accepted exactly if its glyph is new, and is then the last one.** -/
theorem register_eq_ok_iff {t u : Table} {form : Form} :
    t.register form = .ok u ↔ form.glyph ∉ t.glyphs ∧ u.forms = t.forms ++ [form] := by
  cases u
  unfold register
  split <;> simp_all [eq_comm]

/-- **A form is refused exactly if its glyph is taken.** -/
theorem register_eq_error_iff {t : Table} {form : Form} {e : GlyphTaken} :
    t.register form = .error e ↔ form.glyph ∈ t.glyphs ∧ e = ⟨form.glyph⟩ := by
  unfold register
  split <;> simp_all [eq_comm]

/-- Forms with new and distinct glyphs are accepted one after the other. -/
theorem foldlM_register (t : Table) {forms : List Form}
    (distinct : ((t.forms ++ forms).map (·.glyph)).Nodup) :
    forms.foldlM register t = .ok ⟨t.forms ++ forms, distinct⟩ := by
  induction forms generalizing t with
  | nil => simp [pure, Except.pure]
  | cons form forms ih =>
    have hnew : form.glyph ∉ t.glyphs := by
      intro htaken
      rw [List.map_append] at distinct
      exact (List.nodup_append.1 distinct).2.2 _ htaken _ List.mem_cons_self rfl
    have hone : t.register form = .ok ⟨t.forms ++ [form], t.distinct_append hnew⟩ :=
      register_eq_ok_iff.2 ⟨hnew, rfl⟩
    rw [List.foldlM_cons, hone]
    have hrest := ih ⟨t.forms ++ [form], t.distinct_append hnew⟩ (by simpa using distinct)
    simpa [bind, Except.bind] using hrest

/-- **A table can be copied.** -/
theorem copy_eq (t : Table) : t.copy = .ok t :=
  foldlM_register empty t.distinct

/-- **Looking up a glyph finds its form, and only registered forms are found.** -/
theorem lookup_eq_some_iff {t : Table} {glyph : Bytes} {form : Form} :
    t.lookup glyph = some form ↔ form ∈ t.forms ∧ form.glyph.bytes = glyph := by
  obtain ⟨forms, distinct⟩ := t
  simp only [lookup]
  induction forms with
  | nil => simp
  | cons f fs ih =>
    obtain ⟨hf, hfs⟩ := List.nodup_cons.1 distinct
    by_cases h : f.glyph.bytes = glyph
    · subst h
      simp only [List.find?_cons, beq_self_eq_true, Option.some.injEq, List.mem_cons]
      constructor
      · rintro rfl
        exact ⟨.inl rfl, rfl⟩
      · rintro ⟨rfl | hm, hg⟩
        · rfl
        · have hm' : form.glyph ∈ fs.map (·.glyph) := List.mem_map.2 ⟨form, hm, rfl⟩
          rw [Glyph.bytes_inj.1 hg] at hm'
          exact absurd hm' hf
    · have hb : (f.glyph.bytes == glyph) = false := beq_false_of_ne h
      rw [List.find?_cons, hb, ih hfs, List.mem_cons]
      constructor
      · rintro ⟨hm, hg⟩
        exact ⟨.inr hm, hg⟩
      · rintro ⟨rfl | hm, hg⟩
        · exact absurd hg h
        · exact ⟨hm, hg⟩

/-- **Looking up finds nothing exactly if no form has the glyph.** -/
theorem lookup_eq_none_iff {t : Table} {glyph : Bytes} :
    t.lookup glyph = none ↔ ∀ form ∈ t.forms, form.glyph.bytes ≠ glyph := by
  simp [lookup]

end Table

end HoonReader
