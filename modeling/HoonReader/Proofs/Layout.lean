import HoonReader.Document
import HoonReader.Proofs.Location
import HoonReader.Proofs.Offsets

/-!
# Expressions at an offset

A document is read at offsets, by its layout; readers of expressions run on what is left. This file
shows that the two agree, with any room: the same alternative is taken, arguments are read alike one
after the other, and what is read is located where its extents begin and end.

* `wideForm_runsAs`, `tallForm_runsAs`: argument lists keep the relation between offsets and what is
  left, if the arguments do;
* `literal_runsAs`, `application_runsAs`: so do both sorts of alternatives;
* `expression_runsAs`: so do expressions, by induction on the room;
* `Document.expressionAt_eq`, `applicationAt_eq`, `literalAt_eq`: reading at an offset gives what
  running the reader of what is left gives there, spans and reports included.
-/

namespace HoonReader

/-! ## 1. Arguments -/

namespace Source

variable {s : Source} {origin : Nat}

section Arguments

variable {α β : Type} {values : α → β → Prop} {first : Reader α} {firstAt : Scan β}
  {readers : List (Reader α)} {scans : List (Scan β)}

theorem wideMore_runsAs (h : List.Forall₂ (Reader.RunsAs s origin values) readers scans) :
    Reader.RunsAs s origin (List.Forall₂ values) (wideMore readers) (s.wideMoreAt scans) := by
  induction h with
  | nil =>
    intro input offset hleaves
    exact (expect_runsAs (by decide) hleaves).bind fun a b hab => .ok ⟨.nil, hab⟩
  | cons hr _ ih =>
    intro input offset hleaves
    refine (expect_runsAs (by decide) hleaves).bind fun a b hab => (hr hab).bind fun p q hpq => ?_
    exact (ih hpq.2).bind fun t u htu => .ok ⟨.cons hpq.1 htu.1, htu.2⟩

theorem wideForm_runsAs (hfirst : Reader.RunsAs s origin values first firstAt)
    (h : List.Forall₂ (Reader.RunsAs s origin values) readers scans) :
    Reader.RunsAs s origin (ArgumentsRelated values) (wideForm first readers)
      (s.wideFormAt firstAt scans) := by
  intro input offset hleaves
  refine (hfirst hleaves).bind fun p q hpq => ?_
  exact (wideMore_runsAs h hpq.2).bind fun t u htu => .ok ⟨⟨hpq.1, htu.1⟩, htu.2⟩

theorem tallMore_runsAs (h : List.Forall₂ (Reader.RunsAs s origin values) readers scans) :
    Reader.RunsAs s origin (List.Forall₂ values) (tallMore readers) (s.tallMoreAt scans) := by
  induction h with
  | nil =>
    intro input offset hleaves
    exact (expect_runsAs (by decide) hleaves).bind fun a b hab => .ok ⟨.nil, hab⟩
  | cons hr _ ih =>
    intro input offset hleaves
    refine (hr hleaves).bind fun p q hpq => (gap_runsAs hpq.2).bind fun a b hab => ?_
    exact (ih hab).bind fun t u htu => .ok ⟨.cons hpq.1 htu.1, htu.2⟩

theorem tallForm_runsAs (hfirst : Reader.RunsAs s origin values first firstAt)
    (h : List.Forall₂ (Reader.RunsAs s origin values) readers scans) :
    Reader.RunsAs s origin (ArgumentsRelated values) (tallForm first readers)
      (s.tallFormAt firstAt scans) := by
  intro input offset hleaves
  refine (hfirst hleaves).bind fun p q hpq => (gap_runsAs hpq.2).bind fun a b hab => ?_
  exact (tallMore_runsAs h hab).bind fun t u htu => .ok ⟨⟨hpq.1, htu.1⟩, htu.2⟩

end Arguments

/-! ## 2. Spans -/

/-- The location is the one of an offset where this is left. -/
def Locates (s : Source) (origin : Nat) (rest : Bytes) (l : Location) : Prop :=
  ∃ offset, s.Leaves origin rest offset ∧ l = s.location offset

/-- The span goes from where the extent begins to where it ends. -/
structure Spans (s : Source) (origin : Nat) (e : Extent) (span : Span) : Prop where
  start : s.Locates origin e.start span.start
  stop : s.Locates origin e.stop span.stop

theorem Locates.eq {rest : Bytes} {l : Location} (h : s.Locates origin rest l) :
    l = s.location (s.offsetOf origin rest) := by
  obtain ⟨offset, hleaves, rfl⟩ := h
  rw [hleaves.offsetOf_eq]

/-- A twig with spans that go from where its extents begin to where they end is that twig, located
    in the source. -/
theorem eq_located {t : Twig Extent} {u : Twig Span} (h : t.Related (s.Spans origin) u) :
    u = s.located origin t := by
  unfold located
  simp only [locationFrom_eq]
  refine h.eq_map _ ?_
  rintro extent ⟨start, stop⟩ hspan
  exact congrArg₂ Span.mk hspan.start.eq hspan.stop.eq

end Source

/-! ## 3. Alternatives -/

namespace Layout

variable {l : Layout} {origin : Nat} {input : Bytes} {offset : Nat}

theorem span_spans {rest : Bytes} {stop : Nat} (hstart : l.source.Leaves origin input offset)
    (hstop : l.source.Leaves origin rest stop) :
    l.source.Spans origin ⟨input, rest⟩ (l.span offset stop) := by
  unfold span
  rw [l.starts_eq, Source.locationFrom_eq, Source.locationFrom_eq]
  exact ⟨⟨offset, hstart, rfl⟩, ⟨stop, hstop, rfl⟩⟩

theorem literal_runsAs :
    Reader.RunsAs l.source origin (Twig.Related (l.source.Spans origin)) HoonReader.literal
      l.literal := by
  intro input offset h
  refine (Source.digits_runsAs h).bind ?_
  rintro ⟨text, rest⟩ ⟨_, stop⟩ ⟨rfl, hrest⟩
  cases hdecode : Odor.ud.decode text with
  | error e =>
    simp only [hdecode]
    exact .error (h.failedAt _)
  | ok n =>
    have hnote := Option.Rel.some (span_spans h hrest)
    simp only [hdecode]
    exact .ok ⟨.cell (.rune _) (.literal .ud _ hnote) hnote, hrest⟩

section Applications

variable {argument : Grammar → Reader (Twig Extent)} {argumentAt : Grammar → Scan (Twig Span)}
  (h : ∀ g, Reader.RunsAs l.source origin (Twig.Related (l.source.Spans origin)) (argument g)
    (argumentAt g))

include h

theorem formBody_runsAs (form : Form) :
    Reader.RunsAs l.source origin (ArgumentsRelated (Twig.Related (l.source.Spans origin)))
      (formBody argument form) (l.source.formBodyAt argumentAt form) := by
  have hmore : List.Forall₂
      (Reader.RunsAs l.source origin (Twig.Related (l.source.Spans origin)))
      (form.more.map argument) (form.more.map argumentAt) := by
    rw [List.forall₂_map_left_iff, List.forall₂_map_right_iff, List.forall₂_same]
    exact fun g _ => h g
  have hne : Tag.wideOpen ≠ [] := by decide
  intro input offset hleaves
  unfold formBody Source.formBodyAt
  rcases hleaves.tag_cases hne with ⟨rest, rfl, hstands, hrest⟩ | ⟨hnone, hstands⟩
  · rw [after?_append, if_pos hstands]
    exact Source.wideForm_runsAs (h form.first) hmore hrest
  · have hafter : after? Tag.wideOpen input = none := by simpa [standsAt] using hnone
    rw [hafter, if_neg (by simp [hstands])]
    refine (Source.gap_runsAs hleaves).bind fun a b hab => ?_
    exact Source.tallForm_runsAs (h form.first) hmore hab

theorem application_runsAs (form : Form) :
    Reader.RunsAs l.source origin (Twig.Related (l.source.Spans origin))
      (HoonReader.application argument form) (l.application argumentAt form) := by
  have hne : form.glyph.bytes ≠ [] := List.cons_ne_nil _ _
  intro input offset hleaves
  unfold HoonReader.application application
  rcases hleaves.tag_cases hne with ⟨body, rfl, hstands, hbody⟩ | ⟨hnone, hstands⟩
  · have hpaired := formBody_runsAs h form hbody
    simp only [after?_append, if_pos hstands]
    generalize formBody argument form body = x, l.source.formBodyAt argumentAt form _ = y at hpaired
    cases hpaired with
    | ok hread =>
      obtain ⟨harguments, hrest⟩ := hread
      have hfolded := harguments.1.fold harguments.2
      exact .ok ⟨.cell (.rune _) hfolded (.some (span_spans hleaves hrest)), hrest⟩
    | error hreports => exact .error hreports.commit
  · have hafter : after? form.glyph.bytes input = none := by simpa [standsAt] using hnone
    rw [hafter, if_neg (by simp [hstands])]
    exact .error (hleaves.failedAt _)

theorem read_runsAs (alternative : Alternative) :
    Reader.RunsAs l.source origin (Twig.Related (l.source.Spans origin))
      (alternative.read argument) (l.read argumentAt alternative) := by
  cases alternative with
  | application form => exact application_runsAs h form
  | literal => exact literal_runsAs

end Applications

end Layout

/-! ## 4. Expressions -/

namespace Source

variable {s : Source} {origin offset : Nat} {input : Bytes}

/-- The same alternatives can begin at an offset and in what is left there. -/
theorem Leaves.beginsAt_eq (h : s.Leaves origin input offset) (alternative : Alternative) :
    alternative.beginsAt s offset = alternative.begins input := by
  rw [h.rest]
  cases alternative with
  | application form => exact hasTagAt_eq (List.cons_ne_nil _ _)
  | literal => exact hasDigitAt_eq

/-- Only the first byte of what was found is looked for among the glyphs. -/
theorem glyphsSharing_slice (s : Source) (offset : Nat) (glyphs : List String) :
    glyphsSharing (s.slice offset (offset + Layout.foundLength)) glyphs =
      glyphsSharing (s.remaining offset) glyphs := by
  rw [slice, Nat.add_sub_cancel_left]
  cases s.remaining offset <;> rfl

end Source

namespace Document

variable {d : Document} {origin start : Nat} {depth : Int}

theorem noExpression_reports {input : Bytes} {offset : Nat}
    (h : d.source.Leaves origin input offset) :
    d.source.Reports origin (noExpression d.table input) (d.layout.noExpressionAt offset) := by
  have hglyphs := d.source.glyphsSharing_slice offset (d.table.glyphs.map Glyph.text)
  rw [← h.rest] at hglyphs
  rw [noExpression, ← hglyphs]
  exact h.failedAt _

/-- **Expressions are read alike** at an offset and in what is left there, with any room. -/
theorem expression_runsAs (d : Document) (origin room : Nat) :
    Reader.RunsAs d.source origin (Twig.Related (d.source.Spans origin))
      (expression d.table d.limit room) (d.layout.expression room) := by
  induction room with
  | zero => exact fun input offset h => .error (h.failedAt (.tooDeep d.limit))
  | succ n ih =>
    intro input offset h
    have hargument : ∀ g : Grammar, Reader.RunsAs d.source origin
        (Twig.Related (d.source.Spans origin)) (g.reader (expression d.table d.limit n))
        (g.reader (d.layout.expression n)) := by
      intro g
      rw [Grammar.reader_eq, Grammar.reader_eq]
      exact ih
    have hfind : d.layout.alternatives.find? (·.beginsAt d.layout.source offset) =
        d.table.alternatives.find? (·.begins input) :=
      congrArg (d.table.alternatives.find? ·) (funext h.beginsAt_eq)
    rw [expression, Layout.expression, hfind]
    cases d.table.alternatives.find? (·.begins input) with
    | none => exact .error (noExpression_reports h)
    | some alternative =>
      have hpaired := Layout.read_runsAs (l := d.layout) hargument alternative h
      exact hpaired.mapError Failure.commit Report.commit fun f e hreports => hreports.commit

/-! ## 5. Documents -/

/-- **What a layout reads at an offset is what the reader of what is left reads there**, if the two
    read alike. -/
theorem readAt_eq {reader : Reader (Twig Extent)} {scan : Scan (Twig Span)}
    (h : Reader.RunsAs d.source start (Twig.Related (d.source.Spans start)) reader scan) :
    Layout.readAt scan start = d.twigAt reader start := by
  have hpaired := h (Source.Leaves.self d.source start)
  unfold Layout.readAt twigAt Source.read
  generalize reader (d.source.remaining start) = x, scan start = y at hpaired
  cases hpaired with
  | ok hread =>
    have hstop := hread.2.offsetOf_eq.symm
    exact congrArg Except.ok (congrArg₂ Reading.mk (Source.eq_located hread.1) hstop)
  | error hreports => exact congrArg Except.error hreports.eq

theorem expressionAt_eq (d : Document) (start : Nat) (depth : Int) :
    d.expressionAt start depth = d.twigAt (d.expressionReader depth) start :=
  readAt_eq (d.expression_runsAs start _)

theorem literalAt_eq (d : Document) (start : Nat) :
    d.literalAt start = d.twigAt literal start :=
  readAt_eq (Layout.literal_runsAs (l := d.layout))

theorem applicationAt_eq (d : Document) (form : Form) (start : Nat) (depth : Int) :
    d.applicationAt form start depth =
      d.twigAt (application (Grammar.reader (d.expressionReader (depth + 1))) form) start := by
  refine readAt_eq (Layout.application_runsAs (l := d.layout) (fun g => ?_) form)
  rw [Grammar.reader_eq, Grammar.reader_eq]
  exact d.expression_runsAs start _

end Document

end HoonReader
