import HoonReader.Proofs.Application
import HoonReader.Proofs.Location

/-!
# Every span says what stands there

A reader notes at every application and every literal the extent it read. Located in the source this
is a span, and the span can be trusted: reading what stands there, alone, gives the same twig again.

* `expression_inside`: every application and literal inside of what was read was itself read, as an
  expression, where it stands;
* `ReadInTurn.extents`: arguments stand one behind the other, inside of the application;
* `Document.spans_faithful`: both, for the spans of a document.
-/

namespace HoonReader

open Twig

/-! ## 1. The parts of a twig -/

section Preorder

variable {σ τ : Type}

theorem Twig.preorderOnto_eq (t : Twig σ) (rest : List (Twig σ)) :
    t.preorderOnto rest = t.preorder ++ rest := by
  induction t generalizing rest with
  | literal odor value note => rfl
  | rune r => rfl
  | cell head tail note ihead itail =>
    rw [preorder, preorderOnto, preorderOnto, ihead, itail, ihead, itail, List.append_nil,
      List.cons_append, List.append_assoc]

theorem Twig.preorder_cell (head tail : Twig σ) (note : Option σ) :
    (cell head tail note).preorder = cell head tail note :: (head.preorder ++ tail.preorder) := by
  rw [preorder, preorderOnto, preorderOnto_eq]
  rfl

theorem Twig.preorder_map (f : σ → τ) (t : Twig σ) :
    (t.map f).preorder = t.preorder.map (Twig.map f) := by
  induction t with
  | literal odor value note => rfl
  | rune r => rfl
  | cell head tail note ihead itail =>
    rw [preorder_cell, List.map_cons, List.map_append, ← ihead, ← itail, Twig.map, preorder_cell]

theorem Twig.appliedRune?_map (f : σ → τ) (t : Twig σ) :
    (t.map f).appliedRune? = t.appliedRune? := by
  cases t with
  | literal odor value note => rfl
  | rune r => rfl
  | cell head tail note => cases head <;> rfl

theorem Twig.note?_map (f : σ → τ) (t : Twig σ) : (t.map f).note? = t.note?.map f := by
  cases t <;> rfl

theorem Twig.map_fold (f : σ → τ) (first : Twig σ) (more : List (Twig σ)) :
    (fold first more).map f = fold (first.map f) (more.map (Twig.map f)) := by
  induction more generalizing first with
  | nil => rfl
  | cons second more ih => exact congrArg (cell (first.map f) · none) (ih second)

/-- An application inside of folded arguments is inside of one of them: the cells of the fold
    apply nothing. -/
theorem Twig.mem_preorder_fold {r : Rune} {s first : Twig σ} {more : List (Twig σ)}
    (noted : ∀ a ∈ first :: more, a.note?.isSome) (hr : s.appliedRune? = some r)
    (h : s ∈ (fold first more).preorder) : ∃ a ∈ first :: more, s ∈ a.preorder := by
  induction more generalizing first with
  | nil => exact ⟨first, List.mem_cons_self, h⟩
  | cons second more ih =>
    obtain ⟨hfirst, hmore⟩ := List.forall_mem_cons.1 noted
    rw [fold, preorder_cell, List.mem_cons, List.mem_append] at h
    rcases h with rfl | h | h
    · cases first with
      | rune r' => cases hfirst
      | literal odor value note => cases hr
      | cell head tail note => cases hr
    · exact ⟨first, List.mem_cons_self, h⟩
    · obtain ⟨a, ha, hs⟩ := ih hmore h
      exact ⟨a, List.mem_cons_of_mem _ ha, hs⟩

/-- An application inside of an application is that one or inside of an argument. -/
theorem Twig.mem_preorder_apply {r r' : Rune} {s first : Twig σ} {more : List (Twig σ)}
    {note : Option σ} (noted : ∀ a ∈ first :: more, a.note?.isSome)
    (hr : s.appliedRune? = some r) (h : s ∈ (apply r' (fold first more) note).preorder) :
    s = apply r' (fold first more) note ∨ ∃ a ∈ first :: more, s ∈ a.preorder := by
  rw [apply, preorder_cell, List.mem_cons, List.mem_append] at h
  rcases h with rfl | h | h
  · exact .inl rfl
  · rw [List.mem_singleton.1 h] at hr
    cases hr
  · exact .inr (mem_preorder_fold noted hr h)

end Preorder

/-! ## 2. What stands inside was read there -/

section Inside

variable {table : Table} {limit : Int} {room : Nat} {reader : Reader (Twig Extent)}
  {separators : List Bytes} {input rest : Bytes} {values : List (Twig Extent)}

theorem ReadInTurn.read_mem {t : Twig Extent} (sound : Sound table room reader)
    (h : ReadInTurn reader separators input values rest) (ht : t ∈ values) :
    ∃ start stop, start <:+ input ∧ reader start = .ok (t, stop) := by
  induction h with
  | nil => cases ht
  | @cons separator start stop rest separators value values first more ih =>
    rcases List.mem_cons.1 ht with rfl | ht
    · exact ⟨start, stop, List.suffix_append _ _, first⟩
    · obtain ⟨start', stop', hsuffix, hread⟩ := ih ht
      obtain ⟨text, -, rfl, -⟩ := sound first
      refine ⟨start', stop', hsuffix.trans ?_, hread⟩
      exact (List.suffix_append text stop).trans (List.suffix_append separator _)

/-- **What stands inside of what was read was read there.** -/
theorem expression_inside {t s : Twig Extent} {r : Rune}
    (h : expression table limit room input = .ok (t, rest)) (hs : s ∈ t.preorder)
    (hr : s.appliedRune? = some r) : ∃ n start stop, n ≤ room ∧ start <:+ input ∧
      expression table limit n start = .ok (s, stop) := by
  induction room generalizing input rest t with
  | zero => cases h
  | succ n ih =>
    rcases expression_eq_ok_iff.1 h with ⟨form, hform, body, first, more, rfl, hb, rfl⟩ |
      ⟨hd, rfl, rfl⟩
    · obtain ⟨separators, closing, -, -, hturn⟩ := formBody_inTurn hb
      have hread : ∀ a ∈ first :: more, ∃ start stop, start <:+ body ∧
          expression table limit n start = .ok (a, stop) :=
        fun a ha => hturn.read_mem (expression_sound table limit n) ha
      have hnoted : ∀ a ∈ first :: more, a.note?.isSome := by
        intro a ha
        obtain ⟨start, stop, -, hstart⟩ := hread a ha
        rw [expression_note hstart]
        rfl
      rcases mem_preorder_apply hnoted hr hs with rfl | ⟨a, ha, hsa⟩
      · exact ⟨n + 1, _, rest, Nat.le_refl _, List.suffix_rfl, h⟩
      · obtain ⟨start, stop, hsuffix, hstart⟩ := hread a ha
        obtain ⟨m, start', stop', hm, hsuffix', hstart'⟩ := ih hstart hsa
        refine ⟨m, start', stop', Nat.le_succ_of_le hm, ?_, hstart'⟩
        exact (hsuffix'.trans hsuffix).trans (List.suffix_append _ _)
    · have hself : s = literalTwig input := by
        rcases List.mem_cons.1 hs with rfl | hs
        · rfl
        · rcases List.mem_cons.1 hs with rfl | hs
          · cases hr
          · rw [List.mem_singleton.1 hs] at hr
            cases hr
      exact ⟨n + 1, input, _, Nat.le_refl _, List.suffix_rfl, hself ▸ h⟩

/-! ## 3. Arguments stand one behind the other -/

/-- **Arguments stand one behind the other**, with something between them. -/
theorem ReadInTurn.extents
    (h : ReadInTurn (expression table limit room) separators input values rest)
    (between : ∀ s ∈ separators, s ≠ []) : ∃ extents : List Extent,
      values.map Twig.note? = extents.map some ∧
      (∀ e ∈ extents, e.start.length < input.length ∧ rest.length ≤ e.stop.length) ∧
      rest.length ≤ input.length ∧
      extents.Pairwise fun e e' => e'.start.length < e.stop.length := by
  induction h with
  | nil => exact ⟨[], rfl, by simp, Nat.le_refl _, .nil⟩
  | @cons separator start stop rest separators value values first more ih =>
    obtain ⟨hseparator, hbetween⟩ := List.forall_mem_cons.1 between
    obtain ⟨extents, hmap, hinside, hle, hpairwise⟩ := ih hbetween
    obtain ⟨text, -, hsplit, -⟩ := expression_sound table limit room first
    have hpos := List.length_pos_iff.2 hseparator
    have hstart : start.length = text.length + stop.length := by rw [hsplit, List.length_append]
    refine ⟨⟨start, stop⟩ :: extents, ?_, ?_, ?_, ?_⟩
    · rw [List.map_cons, expression_note first, hmap]
      rfl
    · refine List.forall_mem_cons.2 ⟨⟨?_, hle⟩, ?_⟩
      · rw [List.length_append]
        show start.length < _
        omega
      · intro e he
        have := hinside e he
        rw [List.length_append]
        omega
    · rw [List.length_append]
      omega
    · exact List.pairwise_cons.2 ⟨fun e he => (hinside e he).1, hpairwise⟩

end Inside

/-! ## 4. Spans of a source -/

theorem Location.offset_ofOffset (file : String) (source : Bytes) (offset : Int) :
    (ofOffset file source offset).offset = clamp offset source.length :=
  length_take_clamp source offset

namespace Source

variable {s : Source} {rest : Bytes}

/-- The span between two offsets. -/
def span (s : Source) (start stop : Nat) : Span :=
  ⟨s.location start, s.location stop⟩

/-- The span of an extent of the source. -/
def spanOf (s : Source) (e : Extent) : Span :=
  s.span (s.offsetOf 0 e.start) (s.offsetOf 0 e.stop)

theorem located_zero (t : Twig Extent) : s.located 0 t = t.map s.spanOf := by
  unfold located
  simp only [locationFrom_eq]
  rfl

theorem offsetOf_zero (s : Source) (rest : Bytes) :
    s.offsetOf 0 rest = s.bytes.length - rest.length := by
  rw [offsetOf, length_remaining]
  omega

theorem offsetOf_passed {passed : Bytes} (h : s.bytes = passed ++ rest) :
    s.offsetOf 0 rest = passed.length := by
  rw [offsetOf_zero, h, List.length_append, Nat.add_sub_cancel]

theorem offset_location {offset : Nat} (h : offset ≤ s.bytes.length) :
    (s.location offset).offset = offset := by
  rw [location, Location.offset_ofOffset, clamp_of_le h]

theorem offsets_spanOf (s : Source) (e : Extent) :
    (s.spanOf e).start.offset = s.bytes.length - e.start.length ∧
      (s.spanOf e).stop.offset = s.bytes.length - e.stop.length := by
  refine ⟨?_, ?_⟩
  · rw [← offsetOf_zero]
    exact offset_location (by rw [offsetOf_zero]; omega)
  · rw [← offsetOf_zero]
    exact offset_location (by rw [offsetOf_zero]; omega)

theorem remaining_offsetOf (h : rest <:+ s.bytes) : s.remaining (s.offsetOf 0 rest) = rest := by
  obtain ⟨passed, hsplit⟩ := h
  rw [offsetOf_passed hsplit.symm, remaining, ← hsplit, List.drop_left]

end Source

/-! ## 5. The spans of a document -/

namespace Document

variable {d : Document}

/-- The document with other bytes. -/
def withBytes (d : Document) (bytes : Bytes) : Document :=
  { d with source := ⟨bytes, d.source.file⟩ }

/-- The bytes between two offsets as a document of their own. -/
def slice (d : Document) (start stop : Nat) : Document :=
  d.withBytes ((d.source.remaining start).take (stop - start))

/-- The twig stands between two offsets: it has their span, and what is between them, read alone, is
    the same twig and nothing else. -/
structure StandsBetween (d : Document) (start stop : Nat) (t : Twig Span) : Prop where
  span : t.note? = some (d.source.span start stop)
  nonempty : start < stop
  inside : stop ≤ d.source.bytes.length
  read : ∃ q, (d.slice start stop).expressionAt 0 0 = .ok q ∧ q.twig.bare = t.bare ∧
    (d.slice start stop).source.remaining q.stop = []

/-- The arguments have spans between two offsets, without these, one behind the other and with
    something between any two of them. -/
def ArgumentsBetween (start stop : Nat) (arguments : List (Twig Span)) : Prop :=
  ∃ spans : List Span, arguments.map Twig.note? = spans.map some ∧
    (∀ s ∈ spans, start < s.start.offset ∧ s.stop.offset < stop) ∧
    spans.Pairwise fun s s' => s.stop.offset < s'.start.offset

theorem standsBetween_of_read {n : Nat} {start stop : Bytes} {t : Twig Extent}
    (hn : n ≤ room d.limit 0) (hstart : start <:+ d.source.bytes)
    (h : expression d.table d.limit n start = .ok (t, stop)) :
    d.StandsBetween (d.source.offsetOf 0 start) (d.source.offsetOf 0 stop)
      (t.map d.source.spanOf) := by
  obtain ⟨text, hspelled, rfl, -⟩ := expression_sound d.table d.limit n h
  have hle := hstart.length_le
  rw [List.length_append] at hle
  have hpos : 0 < text.length := by
    obtain ⟨b, tail, rfl, -⟩ := hspelled.spells.solid
    simp
  have hslice : (d.slice (d.source.offsetOf 0 (text ++ stop)) (d.source.offsetOf 0 stop)) =
      d.withBytes text := by
    have hlength : d.source.offsetOf 0 stop - d.source.offsetOf 0 (text ++ stop) =
        text.length := by
      rw [Source.offsetOf_zero, Source.offsetOf_zero, List.length_append]
      omega
    rw [slice, Source.remaining_offsetOf hstart, hlength, List.take_left]
  constructor
  · rw [Twig.note?_map, expression_note h]
    rfl
  · rw [Source.offsetOf_zero, Source.offsetOf_zero, List.length_append]
    omega
  · rw [Source.offsetOf_zero]
    omega
  · have hnesting : (t.bare.nesting : Int) ≤ d.limit := by
      have hlt := lt_room_iff.1 (Nat.lt_of_lt_of_le hspelled.nesting hn)
      omega
    obtain ⟨q, hq, hbare, hstop⟩ := read_whole (d := d.withBytes text) hspelled.spells hnesting
    rw [hslice, Twig.bare_map]
    refine ⟨q, hq, hbare, ?_⟩
    rw [hstop]
    exact List.drop_length

theorem argumentsBetween_of_read {n : Nat} {form : Form} {body stop : Bytes}
    {first : Twig Extent} {more : List (Twig Extent)}
    (hstart : form.glyph.bytes ++ body <:+ d.source.bytes)
    (h : formBody (Grammar.reader (expression d.table d.limit n)) form body =
      .ok ((first, more), stop)) :
    ArgumentsBetween (d.source.offsetOf 0 (form.glyph.bytes ++ body)) (d.source.offsetOf 0 stop)
      (first.map d.source.spanOf :: more.map (Twig.map d.source.spanOf)) := by
  obtain ⟨separators, closing, hseparators, -, hturn⟩ := formBody_inTurn h
  obtain ⟨hbetween, hclosing⟩ := hseparators.ne_nil
  obtain ⟨extents, hmap, hinside, hclosed, hpairwise⟩ := hturn.extents hbetween
  have hle := hstart.length_le
  have hpos := List.length_pos_iff.2 hclosing
  rw [List.length_append] at hle hclosed
  refine ⟨extents.map d.source.spanOf, ?_, ?_, ?_⟩
  · have hnotes := congrArg (List.map (Option.map d.source.spanOf)) hmap
    rw [List.map_map, List.map_map] at hnotes
    rw [← List.map_cons, List.map_map, List.map_map]
    simpa only [Function.comp_def, Twig.note?_map, Option.map_some] using hnotes
  · intro s hs
    obtain ⟨e, he, rfl⟩ := List.mem_map.1 hs
    obtain ⟨hfront, hback⟩ := hinside e he
    obtain ⟨hoffset, hoffset'⟩ := d.source.offsets_spanOf e
    rw [List.length_append] at hback
    rw [hoffset, hoffset', Source.offsetOf_zero, Source.offsetOf_zero, List.length_append]
    omega
  · refine List.pairwise_map.2 (hpairwise.imp_of_mem fun {e e'} he he' hlt => ?_)
    have hfront := (hinside e' he').1
    rw [(d.source.offsets_spanOf e).2, (d.source.offsets_spanOf e').1]
    omega

/-- **Every span says what stands there.** The whole twig has the span of what was read; every
    application and every literal inside stands between the offsets of its span, a literal with its
    value; and the arguments of an application stand inside of it, one behind the other. -/
theorem spans_faithful (d : Document) {r : Reading} (h : d.expressionAt 0 0 = .ok r) :
    r.twig.note? = some (d.source.span 0 r.stop) ∧
    ∀ t ∈ r.twig.preorder, ∀ rune, t.appliedRune? = some rune → ∃ start stop,
      d.StandsBetween start stop t ∧
      (rune = .dtzy ∧ (∃ n, t = ofValue .ud (.number n) (some (d.source.span start stop))) ∨
        rune.glyph?.isSome ∧ ∃ first more, more.length + 1 = rune.arity ∧
          t = apply rune (fold first more) (some (d.source.span start stop)) ∧
          ArgumentsBetween start stop (first :: more)) := by
  obtain ⟨u, rest, hread, rfl⟩ := expressionAt_eq_ok_iff.1 h
  rw [Source.located_zero]
  constructor
  · rw [Twig.note?_map, expression_note hread]
    have hzero : d.source.offsetOf 0 (d.source.remaining 0) = 0 := by
      rw [Source.offsetOf, Nat.sub_self]
    show some (d.source.span (d.source.offsetOf 0 (d.source.remaining 0)) _) = _
    rw [hzero]
  · intro t ht rune hrune
    rw [Twig.preorder_map] at ht
    obtain ⟨s, hs, rfl⟩ := List.mem_map.1 ht
    rw [Twig.appliedRune?_map] at hrune
    obtain ⟨n, start, stop, hn, hstart, hread'⟩ := expression_inside hread hs hrune
    refine ⟨_, _, standsBetween_of_read hn hstart hread', ?_⟩
    cases n with
    | zero => cases hread'
    | succ n =>
      rcases expression_eq_ok_iff.1 hread' with ⟨form, hform, body, first, more, rfl, hb, rfl⟩ |
        ⟨hd, rfl, rfl⟩
      · cases hrune
        obtain ⟨separators, closing, -, harity, hturn⟩ := formBody_inTurn hb
        have hlength := hturn.length
        rw [harity] at hlength
        refine .inr ⟨form.glyph_isSome, first.map d.source.spanOf,
          more.map (Twig.map d.source.spanOf), by simpa using hlength.symm, ?_,
          argumentsBetween_of_read hstart hb⟩
        rw [← Twig.map_fold]
        rfl
      · cases hrune
        exact .inl ⟨rfl, _, rfl⟩

/-- An equality in the tall form, its second argument a loop point in the wide form. -/
def tallEquality : Document :=
  .ofBytes (ascii ['.', '=', '\n', ' ', '1', '2', '\n', ' ', '|', '-', '(', '7', ')', '\n', '=',
    '=']) none {} .standard

/-- The loop point that is read in it. -/
def loopPoint : Twig Span :=
  .apply .brhp
    (.ofValue .ud (.number 7)
      (some ⟨⟨Source.unknownFile, 3, 5, 11⟩, ⟨Source.unknownFile, 3, 6, 12⟩⟩))
    (some ⟨⟨Source.unknownFile, 3, 2, 8⟩, ⟨Source.unknownFile, 3, 7, 13⟩⟩)

/-- What is read of it. -/
def tallEqualityReading : Reading where
  twig := .apply .dtts
    (.fold (.ofValue .ud (.number 12)
      (some ⟨⟨Source.unknownFile, 2, 2, 4⟩, ⟨Source.unknownFile, 2, 4, 6⟩⟩)) [loopPoint])
    (some ⟨⟨Source.unknownFile, 1, 1, 0⟩, ⟨Source.unknownFile, 4, 3, 16⟩⟩)
  stop := 16

theorem tallEquality_read : tallEquality.expressionAt 0 0 = .ok tallEqualityReading := by
  decide +kernel

theorem spans_faithful_tallEquality :
    tallEquality.expressionAt 0 0 = .ok tallEqualityReading ∧
      tallEqualityReading.twig.note? = some (tallEquality.source.span 0 16) ∧
      loopPoint ∈ tallEqualityReading.twig.preorder ∧
      ∃ start stop, tallEquality.StandsBetween start stop loopPoint := by
  have hmem : loopPoint ∈ tallEqualityReading.twig.preorder := by decide
  obtain ⟨hwhole, hparts⟩ := spans_faithful tallEquality tallEquality_read
  obtain ⟨start, stop, hstands, -⟩ := hparts loopPoint hmem .brhp rfl
  exact ⟨tallEquality_read, hwhole, hmem, start, stop, hstands⟩

end Document

end HoonReader
