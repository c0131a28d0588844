import Mathlib.Data.List.Nodup
import HoonReader.Proofs.Lockstep

/-!
# Larger tables, and tables in another order

No form can take input away from another one: glyphs are distinct and all of one length, and none
begins with a digit. So the order of the forms shows only in the suggestions of a report, and a
further form shows only in twigs that have its rune.

* `expression_carriesOver`: what is read under one table is read under another one that has the
  forms of the runes in it;
* `reordered_readAlike`: under tables with the same forms the same steps are taken;
* `Document.parse_extended`: so a larger table reads the same of what has no further rune, and a
  table in another order reads and reports the same, apart from the order of the suggestions.
-/

namespace HoonReader

open Twig

/-! ## 1. The runes in a twig -/

/-- The rune stands in the twig. -/
def Twig.HasRune {σ : Type} (t : Twig σ) (r : Rune) : Prop :=
  .rune r ∈ t.preorder

section HasRune

variable {σ τ : Type} {r : Rune}

theorem Twig.hasRune_cell {head tail : Twig σ} {note : Option σ} :
    (cell head tail note).HasRune r ↔ head.HasRune r ∨ tail.HasRune r := by
  simp [HasRune, preorder_cell]

theorem Twig.hasRune_rune {r' : Rune} : (rune r' : Twig σ).HasRune r ↔ r = r' := by
  simp [HasRune, preorder, preorderOnto]

theorem Twig.not_hasRune_literal {odor : Odor} {value : Value} {note : Option σ} :
    ¬ (literal odor value note).HasRune r := by
  simp [HasRune, preorder, preorderOnto]

theorem Twig.hasRune_fold {first : Twig σ} {more : List (Twig σ)} :
    (fold first more).HasRune r ↔ ∃ a ∈ first :: more, a.HasRune r := by
  induction more generalizing first with
  | nil => simp [fold]
  | cons second more ih => simp [fold, hasRune_cell, ih]

/-- The runes of an application are its own and those in its arguments. -/
theorem Twig.hasRune_apply {r' : Rune} {first : Twig σ} {more : List (Twig σ)} {note : Option σ} :
    (apply r' (fold first more) note).HasRune r ↔ r = r' ∨ ∃ a ∈ first :: more, a.HasRune r := by
  rw [apply, hasRune_cell, hasRune_rune, hasRune_fold]

theorem Twig.hasRune_literalTwig {input : Bytes} : (literalTwig input).HasRune r ↔ r = .dtzy := by
  rw [literalTwig, ofValue, apply, hasRune_cell, hasRune_rune]
  exact or_iff_left not_hasRune_literal

theorem Twig.hasRune_map {f : σ → τ} {t : Twig σ} : (t.map f).HasRune r ↔ t.HasRune r := by
  induction t with
  | literal odor value note => exact iff_of_false not_hasRune_literal not_hasRune_literal
  | cell head tail note ihhead ihtail => rw [map, hasRune_cell, hasRune_cell, ihhead, ihtail]
  | rune r' => rw [map, hasRune_rune, hasRune_rune]

end HasRune

/-! ## 2. Reading carried over -/

/-- What the first reader reads and is good, the second reader reads as well. -/
def Reader.CarriesOver {α : Type} (good : α → Prop) (reader reader' : Reader α) : Prop :=
  ∀ ⦃input value rest⦄, good value → reader input = .ok (value, rest) →
    reader' input = .ok (value, rest)

section Arguments

variable {α : Type} {good : α → Prop} {reader reader' : Reader α}
  {readers readers' : List (Reader α)}

theorem wideMore_carriesOver (h : List.Forall₂ (Reader.CarriesOver good) readers readers') :
    Reader.CarriesOver (fun values => ∀ a ∈ values, good a) (wideMore readers)
      (wideMore readers') := by
  induction h with
  | nil => exact fun input values rest _ hread => hread
  | cons hr _ ih =>
    intro input values rest hgood hread
    obtain ⟨value, more, a, b, hsplit, hv, hm, rfl⟩ := wideMore_cons_eq_ok_iff.1 hread
    obtain ⟨hvalue, hmore⟩ := List.forall_mem_cons.1 hgood
    exact wideMore_cons_eq_ok_iff.2 ⟨value, more, a, b, hsplit, hr hvalue hv, ih hmore hm, rfl⟩

theorem tallMore_carriesOver (h : List.Forall₂ (Reader.CarriesOver good) readers readers') :
    Reader.CarriesOver (fun values => ∀ a ∈ values, good a) (tallMore readers)
      (tallMore readers') := by
  induction h with
  | nil => exact fun input values rest _ hread => hread
  | cons hr _ ih =>
    intro input values rest hgood hread
    obtain ⟨value, more, a, b, hv, hg, hm, rfl⟩ := tallMore_cons_eq_ok_iff.1 hread
    obtain ⟨hvalue, hmore⟩ := List.forall_mem_cons.1 hgood
    exact tallMore_cons_eq_ok_iff.2 ⟨value, more, a, b, hr hvalue hv, hg, ih hmore hm, rfl⟩

end Arguments

theorem formBody_carriesOver {good : Twig Extent → Prop} {reader reader' : Reader (Twig Extent)}
    (h : Reader.CarriesOver good reader reader') (form : Form) :
    Reader.CarriesOver (fun arguments => ∀ a ∈ arguments.1 :: arguments.2, good a)
      (formBody (Grammar.reader reader) form) (formBody (Grammar.reader reader') form) := by
  have hmore := form.forall₂_moreReaders h
  rintro input ⟨first, more⟩ rest hgood hread
  rcases formBody_eq_ok_iff.1 hread with ⟨a, hwide, hform⟩ | ⟨hnone, a, hgap, hform⟩
  · obtain ⟨b, hf, hm⟩ := wideForm_eq_ok_iff.1 hform
    obtain ⟨hfirst, hothers⟩ := List.forall_mem_cons.1 hgood
    refine formBody_eq_ok_iff.2 (.inl ⟨a, hwide, wideForm_eq_ok_iff.2 ⟨b, h hfirst hf, ?_⟩⟩)
    exact wideMore_carriesOver hmore hothers hm
  · refine formBody_eq_ok_iff.2 (.inr ⟨hnone, a, hgap, ?_⟩)
    exact tallMore_carriesOver (.cons h hmore) hgood hform

section Expression

variable {table table' : Table} {limit : Int} {room : Nat} {input rest : Bytes} {t : Twig Extent}

/-- **What is read under one table is read under another one** that has the forms of the runes
    in it. -/
theorem expression_carriesOver {p : Rune → Prop}
    (forms : ∀ form ∈ table.forms, p form.rune → form ∈ table'.forms) :
    Reader.CarriesOver (fun t => ∀ r, t.HasRune r → p r) (expression table limit room)
      (expression table' limit room) := by
  induction room with
  | zero =>
    intro input t rest _ hread
    cases hread
  | succ n ih =>
    intro input t rest hgood hread
    rcases expression_eq_ok_iff.1 hread with ⟨form, hform, body, first, more, rfl, hb, rfl⟩ | hd
    · have hform' := forms form hform (hgood _ (hasRune_apply.2 (.inl rfl)))
      have harguments : ∀ a ∈ first :: more, ∀ r, a.HasRune r → p r :=
        fun a ha r hr => hgood r (hasRune_apply.2 (.inr ⟨a, ha, hr⟩))
      have hb' := formBody_carriesOver ih form harguments hb
      exact expression_eq_ok_iff.2 (.inl ⟨form, hform', body, first, more, rfl, hb', rfl⟩)
    · exact expression_eq_ok_iff.2 (.inr hd)

/-- **Every rune that is read is registered**, apart from the one of literals. -/
theorem expression_registered (h : expression table limit room input = .ok (t, rest)) {r : Rune}
    (hr : t.HasRune r) (hne : r ≠ .dtzy) : table.contains r = true := by
  induction room generalizing input t rest with
  | zero => cases h
  | succ n ih =>
    rcases expression_eq_ok_iff.1 h with ⟨form, hform, body, first, more, rfl, hb, rfl⟩ |
      ⟨-, rfl, -⟩
    · rcases hasRune_apply.1 hr with rfl | ⟨a, ha, hra⟩
      · exact List.any_eq_true.2 ⟨form, hform, beq_self_eq_true form.rune⟩
      · obtain ⟨separators, closing, -, -, hturn⟩ := formBody_inTurn hb
        obtain ⟨start, stop, -, hread⟩ := hturn.read_mem (expression_sound table limit n) ha
        exact ih hread hra
    · exact absurd (hasRune_literalTwig.1 hr) hne

end Expression

/-- A larger table has no other form of a rune than the smaller one has. -/
theorem Table.mem_of_contains {table table' : Table}
    (sub : ∀ form ∈ table.forms, form ∈ table'.forms) {form : Form} (h : form ∈ table'.forms)
    (hr : table.contains form.rune = true) : form ∈ table.forms := by
  obtain ⟨form', hform', hrune⟩ := List.any_eq_true.1 hr
  have hglyph : form'.glyph = form.glyph := by
    have hsome := form'.glyph_eq
    rw [eq_of_beq hrune, form.glyph_eq] at hsome
    exact (Option.some.inj hsome).symm
  have hself : form' = form :=
    Table.eq_of_stands (sub form' hform') h (congrArg (·.bytes ++ []) hglyph)
  exact hself ▸ hform'

/-! ## 3. Tables in another order -/

/-- The causes are the same, or they suggest the same in another order. -/
inductive Cause.Reordered : Cause → Cause → Prop where
  | refl (cause : Cause) : Reordered cause cause
  | expression {candidates candidates' : List String} (h : candidates.Perm candidates') :
      Reordered (.expression candidates) (.expression candidates')

theorem Cause.Reordered.wording {cause cause' : Cause} (h : cause.Reordered cause') :
    cause'.kind = cause.kind ∧ cause'.sphere = cause.sphere ∧ cause'.code = cause.code ∧
      cause'.message = cause.message ∧ cause'.help? = cause.help? ∧
      cause'.expected? = cause.expected? := by
  cases h with
  | refl => exact ⟨rfl, rfl, rfl, rfl, rfl, rfl⟩
  | expression => exact ⟨rfl, rfl, rfl, rfl, rfl, rfl⟩

section Reordered

variable {table table' : Table} (same : ∀ form, form ∈ table.forms ↔ form ∈ table'.forms)

include same

theorem Table.forms_perm : table.forms.Perm table'.forms :=
  (List.perm_ext_iff_of_nodup (List.Nodup.of_map _ table.distinct)
    (List.Nodup.of_map _ table'.distinct)).2 same

theorem noExpression_reordered (input : Bytes) :
    (noExpression table input).cause.Reordered (noExpression table' input).cause := by
  refine .expression ?_
  cases input with
  | nil => exact .refl []
  | cons b input => exact (((Table.forms_perm same).map _).map _).filter _

/-- **Under tables with the same forms the same steps are taken.** -/
theorem reordered_readAlike : ReadAlike table table' Cause.Reordered Eq where
  forms := same
  cause := .refl
  nesting := by
    intro cause cause' h limit
    cases h with
    | refl => exact Iff.rfl
    | expression h => simp
  tag := by
    rintro tag - input _ rfl
    exact .self fun _ _ => rfl
  digits := by
    rintro input _ rfl
    exact ⟨rfl, rfl⟩
  piece := by
    rintro input _ rfl
    cases gapPiece input with
    | ok rest => exact .ok rfl
    | error f => exact .error ⟨.refl _, rfl, rfl⟩
  noExpression := by
    rintro input _ rfl
    exact noExpression_reordered same input

end Reordered

/-! ## 4. Documents -/

/-- The reports are the same, apart from the order of what they suggest. -/
structure Report.Reordered (e e' : Report) : Prop where
  cause : e.cause.Reordered e'.cause
  kind : e'.cause.kind = e.cause.kind
  sphere : e'.cause.sphere = e.cause.sphere
  code : e'.cause.code = e.cause.code
  message : e'.cause.message = e.cause.message
  help : e'.cause.help? = e.cause.help?
  expected : e'.cause.expected? = e.cause.expected?
  committed : e'.committed = e.committed
  offset : e'.offset = e.offset
  remaining : e'.remaining = e.remaining
  location : e'.location = e.location

theorem Report.reordered_of_paired {s : Source} {e e' : Report}
    (h : ReportedAlike s s Cause.Reordered Eq e e') : e.Reordered e' := by
  cases h with
  | @mk f f' halike =>
    obtain ⟨hkind, hsphere, hcode, hmessage, hhelp, hexpected⟩ := halike.cause.wording
    have hplace : s.offsetOf 0 f'.place = s.offsetOf 0 f.place := by rw [halike.place]
    exact ⟨halike.cause, hkind, hsphere, hcode, hmessage, hhelp, hexpected, halike.committed,
      hplace, congrArg s.remaining hplace, congrArg (fun offset : Nat => s.location offset) hplace⟩

theorem Reading.eq_of_paired {s : Source} {r r' : Reading} (h : LocatedAlike s s Eq r r') :
    r = r' := by
  cases h with
  | @mk t t' rest rest' htwig hstop =>
    have hspans : t.map s.spanOf = t'.map s.spanOf :=
      htwig.map_eq _ _ fun a b hab => by rw [Source.spanOf, Source.spanOf, hab.1, hab.2]
    rw [Source.located_zero, Source.located_zero, hspans, hstop]

namespace Document

section Tables

variable (d : Document) (table : Table) {r : Reading}

/-- **What is read under one table is read under another one** that has the forms of its runes. -/
theorem parse_carriesOver
    (forms : ∀ form ∈ d.table.forms, r.twig.HasRune form.rune → form ∈ table.forms)
    (h : d.parse = .ok r) : { d with table }.parse = .ok r := by
  obtain ⟨t, rest, hread, rfl⟩ := expressionAt_eq_ok_iff.1 (parse_eq_ok_iff.1 h)
  have hforms : ∀ form ∈ d.table.forms, t.HasRune form.rune → form ∈ table.forms :=
    fun form hform hr => forms form hform (hasRune_map.2 hr)
  have hread' := expression_carriesOver hforms (fun _ hr => hr) hread
  exact parse_eq_ok_iff.2 (expressionAt_eq_ok_iff.2 ⟨t, rest, hread', rfl⟩)

theorem parse_registered {d : Document} (h : d.parse = .ok r) {x : Rune} (hx : r.twig.HasRune x)
    (hne : x ≠ .dtzy) : d.table.contains x = true := by
  obtain ⟨t, rest, hread, rfl⟩ := expressionAt_eq_ok_iff.1 (parse_eq_ok_iff.1 h)
  exact expression_registered hread (hasRune_map.1 hx) hne

end Tables

/-- **Further forms change nothing of what is read without them, and the order of the forms does not
    matter.** Under a larger table the same is read as under a smaller one, where no rune stands
    that is registered in the larger one only. Under two tables with the same forms the same is
    read, and the reports are the same up to the order of what they suggest. -/
theorem parse_extended (d : Document) {table : Table}
    (sub : ∀ form ∈ d.table.forms, form ∈ table.forms) :
    (∀ r, d.parse = .ok r ↔ { d with table }.parse = .ok r ∧
      ∀ x, r.twig.HasRune x → x ≠ .dtzy → d.table.contains x = true) ∧
    ((∀ form ∈ table.forms, form ∈ d.table.forms) →
      Paired Report.Reordered Eq d.parse { d with table }.parse) := by
  refine ⟨fun r => ⟨fun h => ⟨?_, ?_⟩, ?_⟩, fun super => ?_⟩
  · exact d.parse_carriesOver table (fun form hform _ => sub form hform) h
  · exact fun x hx hne => parse_registered h hx hne
  · rintro ⟨h, hregistered⟩
    refine { d with table }.parse_carriesOver d.table (fun form hform hr => ?_) h
    exact Table.mem_of_contains sub hform (hregistered _ hr form.rune_ne_dtzy)
  · have hsame : ∀ form, form ∈ d.table.forms ↔ form ∈ table.forms :=
      fun form => ⟨sub form, super form⟩
    have hpaired := (reordered_readAlike hsame).parse_paired d { d with table } rfl rfl
    exact hpaired.imp (fun _ _ => Report.reordered_of_paired) fun _ _ => Reading.eq_of_paired

/-- The standard table, its forms in the opposite order. -/
def standardReversed : Table where
  forms := Table.standard.forms.reverse
  distinct := by decide

/-- A document that ends behind the first byte of a glyph. -/
def halfGlyph (table : Table) : Document :=
  ⟨⟨ascii ['='], Source.unknownFile⟩, 0, table⟩

theorem parse_extended_reversed :
    (∀ form ∈ Table.standard.forms, form ∈ standardReversed.forms) ∧
      (∀ form ∈ standardReversed.forms, form ∈ Table.standard.forms) ∧
      { tallEquality with table := standardReversed }.parse = .ok tallEqualityReading ∧
      ∃ e, (halfGlyph .standard).parse = .error e ∧
        ∃ e', (halfGlyph standardReversed).parse = .error e' ∧ e.Reordered e' := by
  have hsub : ∀ form ∈ Table.standard.forms, form ∈ standardReversed.forms := by decide
  have hsuper : ∀ form ∈ standardReversed.forms, form ∈ Table.standard.forms := by decide
  have hread : tallEquality.parse = .ok tallEqualityReading := by decide +kernel
  obtain ⟨e, he⟩ : ∃ e, (halfGlyph .standard).parse = .error e := ⟨_, rfl⟩
  have hpaired := (parse_extended (halfGlyph .standard) hsub).2 hsuper
  refine ⟨hsub, hsuper, ?_, e, he, Paired.of_error (he ▸ hpaired)⟩
  exact (((parse_extended tallEquality hsub).1 _).1 hread).1

end Document

end HoonReader
