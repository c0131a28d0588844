import HoonReader.Proofs.Document
import HoonReader.Proofs.Spelling

/-!
# The reader of expressions and the grammar

The grammar (`Spells`) says which texts spell which twig; the reader takes an input apart. This
file shows that they agree, in both directions and for every table, limit and depth.

* `expression_sound`: what is read is a spelling of the twig, nested no deeper than the room that
  was left, and a literal takes all digits that stand there;
* `expression_complete`: a spelling is read, whatever stands behind it, except that no digit may
  stand behind a literal;
* `Document.expressionAt_sound`, `Document.expressionAt_complete`: the same at an offset of a
  document.

Both inductions are on the room that is left. Inside of one level the arguments are gone through as
a list, and each of the two forms needs to know what stands behind an argument: a space or a
parenthesis in the wide form, a gap in the tall one.
-/

namespace HoonReader

open Twig

/-- The text spells the twig, and less than `room` applications are nested in it. -/
structure SpelledIn (table : Table) (room : Nat) (text : Bytes) (t : BareTwig) : Prop where
  spells : Spells table text t
  nesting : t.nesting < room

/-- What the reader reads is spelled, and a literal is read with all its digits. -/
def Sound (table : Table) (room : Nat) (reader : Reader (Twig Extent)) : Prop :=
  ∀ ⦃input rest : Bytes⦄ ⦃t : Twig Extent⦄, reader input = .ok (t, rest) →
    ∃ text, SpelledIn table room text t.bare ∧ input = text ++ rest ∧
      (IsLiteral t.bare → digitStands rest = false)

/-- What is spelled is read, if no digit stands behind a literal. -/
def Complete (table : Table) (room : Nat) (reader : Reader (Twig Extent)) : Prop :=
  ∀ ⦃text : Bytes⦄ ⦃t : BareTwig⦄, SpelledIn table room text t → ∀ rest : Bytes,
    (IsLiteral t → digitStands rest = false) →
      ∃ u, u.bare = t ∧ reader (text ++ rest) = .ok (u, rest)

section Arguments

variable {table : Table} {room : Nat} {reader : Reader (Twig Extent)}
  {readers : List (Reader (Twig Extent))} {input rest : Bytes}

/-! ## 1. What is read is spelled -/

theorem wideMore_sound (sound : ∀ r ∈ readers, Sound table room r) {values : List (Twig Extent)}
    (h : wideMore readers input = .ok (values, rest)) : ∃ more : List Spelling,
      more.map (·.twig) = values.map Twig.bare ∧ more.length = readers.length ∧
      (∀ a ∈ more, SpelledIn table room a.text a.twig) ∧
      input = wideTail more ++ Tag.wideClose ++ rest := by
  induction readers generalizing input values with
  | nil =>
    obtain ⟨rfl, hi⟩ := wideMore_nil_eq_ok_iff.1 h
    exact ⟨[], rfl, rfl, by simp, by simpa using hi⟩
  | cons r readers ih =>
    obtain ⟨hr, hreaders⟩ := List.forall_mem_cons.1 sound
    obtain ⟨value, others, a, b, rfl, hv, hm, rfl⟩ := wideMore_cons_eq_ok_iff.1 h
    obtain ⟨text, hspelled, rfl, -⟩ := hr hv
    obtain ⟨more, hmap, hlen, hmore, rfl⟩ := ih hreaders hm
    refine ⟨⟨text, value.bare⟩ :: more, by simp [hmap], by simp [hlen], ?_, by simp⟩
    exact List.forall_mem_cons.2 ⟨hspelled, hmore⟩

theorem tallMore_sound (sound : ∀ r ∈ readers, Sound table room r) {values : List (Twig Extent)}
    (h : tallMore readers input = .ok (values, rest)) : ∃ more : List TallSpelling,
      more.map (·.twig) = values.map Twig.bare ∧ more.length = readers.length ∧
      (∀ a ∈ more, SpelledIn table room a.text a.twig ∧ IsGap a.gap) ∧
      input = tallText more ++ Tag.tallEnd ++ rest := by
  induction readers generalizing input values with
  | nil =>
    obtain ⟨rfl, hi⟩ := tallMore_nil_eq_ok_iff.1 h
    exact ⟨[], rfl, rfl, by simp, by simpa using hi⟩
  | cons r readers ih =>
    obtain ⟨hr, hreaders⟩ := List.forall_mem_cons.1 sound
    obtain ⟨value, others, a, b, hv, hg, hm, rfl⟩ := tallMore_cons_eq_ok_iff.1 h
    obtain ⟨text, hspelled, rfl, -⟩ := hr hv
    obtain ⟨behind, hgap, rfl⟩ := gap_sound hg
    obtain ⟨more, hmap, hlen, hmore, rfl⟩ := ih hreaders hm
    refine ⟨⟨⟨text, value.bare⟩, behind⟩ :: more, by simp [hmap], by simp [hlen], ?_, by simp⟩
    exact List.forall_mem_cons.2 ⟨⟨hspelled, hgap⟩, hmore⟩

theorem spelledIn_wide {form : Form} (registered : form ∈ table.forms) (first : Spelling)
    {more : List Spelling} (length : more.length + 1 = form.rune.arity)
    (arguments : ∀ a ∈ first :: more, SpelledIn table room a.text a.twig) :
    SpelledIn table (room + 1)
      (form.glyph.bytes ++ Tag.wideOpen ++ wideText (first :: more) ++ Tag.wideClose)
      (apply form.rune (fold first.twig (more.map (·.twig))) none) where
  spells := .wide registered length fun a ha => (arguments a ha).spells
  nesting := (nesting_apply_lt_iff form.glyph_isSome (·.twig) first more length).2
    fun a ha => (arguments a ha).nesting

theorem spelledIn_tall {form : Form} (registered : form ∈ table.forms) {opening : Bytes}
    (first : TallSpelling) {more : List TallSpelling} (length : more.length + 1 = form.rune.arity)
    (opened : IsGap opening)
    (arguments : ∀ a ∈ first :: more, SpelledIn table room a.text a.twig ∧ IsGap a.gap) :
    SpelledIn table (room + 1)
      (form.glyph.bytes ++ opening ++ tallText (first :: more) ++ Tag.tallEnd)
      (apply form.rune (fold first.twig (more.map (·.twig))) none) where
  spells := .tall registered length opened (fun a ha => (arguments a ha).2)
    fun a ha => (arguments a ha).1.spells
  nesting := (nesting_apply_lt_iff form.glyph_isSome (·.twig) first more length).2
    fun a ha => (arguments a ha).1.nesting

theorem formBody_sound (sound : Sound table room reader) {form : Form}
    (registered : form ∈ table.forms) {first : Twig Extent} {more : List (Twig Extent)}
    (h : formBody (Grammar.reader reader) form input = .ok ((first, more), rest)) :
    ∃ text, input = text ++ rest ∧ SpelledIn table (room + 1) (form.glyph.bytes ++ text)
      (apply form.rune (fold first.bare (more.map Twig.bare)) none) := by
  have hreaders := form.forall_moreReaders sound
  have harity := form.length_moreReaders reader
  rcases formBody_eq_ok_iff.1 h with ⟨a, rfl, hw⟩ | ⟨-, a, hg, ht⟩
  · obtain ⟨b, hfirst, hmore⟩ := wideForm_eq_ok_iff.1 hw
    obtain ⟨text, hspelled, rfl, -⟩ := sound hfirst
    obtain ⟨others, hmap, hlen, hothers, rfl⟩ := wideMore_sound hreaders hmore
    have hs := spelledIn_wide registered ⟨text, first.bare⟩ (by omega)
      (List.forall_mem_cons.2 ⟨hspelled, hothers⟩)
    rw [hmap] at hs
    exact ⟨Tag.wideOpen ++ wideText (⟨text, first.bare⟩ :: others) ++ Tag.wideClose,
      by simp [wideText_cons], by simpa using hs⟩
  · obtain ⟨opening, hopening, rfl⟩ := gap_sound hg
    obtain ⟨arguments, hmap, hlen, harguments, rfl⟩ :=
      tallMore_sound (List.forall_mem_cons.2 ⟨sound, hreaders⟩) ht
    cases arguments with
    | nil => cases hmap
    | cons a others =>
      have hfirst : a.twig = first.bare := (List.cons.inj hmap).1
      have hothers : others.map (·.twig) = more.map Twig.bare := (List.cons.inj hmap).2
      rw [List.length_cons, List.length_cons] at hlen
      have hs := spelledIn_tall registered a (by omega) hopening harguments
      rw [hothers, hfirst] at hs
      exact ⟨opening ++ tallText (a :: others) ++ Tag.tallEnd, by simp, by simpa using hs⟩

/-! ## 2. What is spelled is read -/

theorem wideMore_complete (complete : ∀ r ∈ readers, Complete table room r)
    {more : List Spelling} (length : more.length = readers.length)
    (arguments : ∀ a ∈ more, SpelledIn table room a.text a.twig) (rest : Bytes) :
    ∃ values : List (Twig Extent), values.map Twig.bare = more.map (·.twig) ∧
      wideMore readers (wideTail more ++ Tag.wideClose ++ rest) = .ok (values, rest) := by
  induction readers generalizing more with
  | nil =>
    rw [List.length_eq_zero_iff.1 length]
    exact ⟨[], rfl, wideMore_nil_eq_ok_iff.2 ⟨rfl, by simp⟩⟩
  | cons r readers ih =>
    obtain ⟨hr, hreaders⟩ := List.forall_mem_cons.1 complete
    cases more with
    | nil => cases length
    | cons a more =>
      obtain ⟨ha, hmore⟩ := List.forall_mem_cons.1 arguments
      obtain ⟨values, hmap, hvalues⟩ := ih hreaders (by simpa using length) hmore
      obtain ⟨value, hbare, hvalue⟩ := hr ha (wideTail more ++ Tag.wideClose ++ rest)
        fun _ => digitStands_wideTail more rest
      refine ⟨value :: values, by simp [hbare, hmap], wideMore_cons_eq_ok_iff.2 ?_⟩
      exact ⟨value, values, _, _, by simp, hvalue, hvalues, rfl⟩

theorem tallMore_complete (complete : ∀ r ∈ readers, Complete table room r)
    {more : List TallSpelling} (length : more.length = readers.length)
    (arguments : ∀ a ∈ more, SpelledIn table room a.text a.twig ∧ IsGap a.gap) (rest : Bytes) :
    ∃ values : List (Twig Extent), values.map Twig.bare = more.map (·.twig) ∧
      tallMore readers (tallText more ++ Tag.tallEnd ++ rest) = .ok (values, rest) := by
  induction readers generalizing more with
  | nil =>
    rw [List.length_eq_zero_iff.1 length]
    exact ⟨[], rfl, tallMore_nil_eq_ok_iff.2 ⟨rfl, by simp⟩⟩
  | cons r readers ih =>
    obtain ⟨hr, hreaders⟩ := List.forall_mem_cons.1 complete
    cases more with
    | nil => cases length
    | cons a more =>
      obtain ⟨⟨ha, hgap⟩, hmore⟩ := List.forall_mem_cons.1 arguments
      obtain ⟨values, hmap, hvalues⟩ := ih hreaders (by simpa using length) hmore
      have hsolid := solid_tallText (fun b hb => (hmore b hb).1.spells) rest
      obtain ⟨value, hbare, hvalue⟩ := hr ha (a.gap ++ (tallText more ++ Tag.tallEnd ++ rest))
        fun _ => digitStands_gap hgap _
      refine ⟨value :: values, by simp [hbare, hmap], tallMore_cons_eq_ok_iff.2 ?_⟩
      exact ⟨value, values, _, _, by simpa using hvalue, gap_complete hgap hsolid, hvalues, rfl⟩

section Body

variable {form : Form} (complete : Complete table room reader)

include complete

theorem formBody_wide_complete {first : Spelling} {more : List Spelling}
    (length : more.length + 1 = form.rune.arity)
    (arguments : ∀ a ∈ first :: more, SpelledIn table room a.text a.twig) (rest : Bytes) :
    ∃ (value : Twig Extent) (values : List (Twig Extent)), value.bare = first.twig ∧
      values.map Twig.bare = more.map (·.twig) ∧
      formBody (Grammar.reader reader) form
        (Tag.wideOpen ++ (wideText (first :: more) ++ Tag.wideClose ++ rest)) =
          .ok ((value, values), rest) := by
  have harity := form.length_moreReaders reader
  obtain ⟨hfirst, hmore⟩ := List.forall_mem_cons.1 arguments
  obtain ⟨values, hmap, hvalues⟩ :=
    wideMore_complete (form.forall_moreReaders complete) (by omega) hmore rest
  obtain ⟨value, hbare, hvalue⟩ := complete hfirst (wideTail more ++ Tag.wideClose ++ rest)
    fun _ => digitStands_wideTail more rest
  refine ⟨value, values, hbare, hmap, formBody_eq_ok_iff.2 (.inl ⟨_, rfl, ?_⟩)⟩
  rw [wideText_cons]
  exact wideForm_eq_ok_iff.2 ⟨_, by simpa using hvalue, by simpa using hvalues⟩

theorem formBody_tall_complete {opening : Bytes} {first : TallSpelling} {more : List TallSpelling}
    (length : more.length + 1 = form.rune.arity) (opened : IsGap opening)
    (arguments : ∀ a ∈ first :: more, SpelledIn table room a.text a.twig ∧ IsGap a.gap)
    (rest : Bytes) :
    ∃ (value : Twig Extent) (values : List (Twig Extent)), value.bare = first.twig ∧
      values.map Twig.bare = more.map (·.twig) ∧
      formBody (Grammar.reader reader) form
        (opening ++ (tallText (first :: more) ++ Tag.tallEnd ++ rest)) =
          .ok ((value, values), rest) := by
  have harity := form.length_moreReaders reader
  have hreaders := List.forall_mem_cons.2 ⟨complete, form.forall_moreReaders complete⟩
  obtain ⟨values, hmap, hvalues⟩ :=
    tallMore_complete hreaders (by rw [List.length_cons, List.length_cons]; omega) arguments rest
  have hsolid := solid_tallText (fun a ha => (arguments a ha).1.spells) rest
  cases values with
  | nil => cases hmap
  | cons value values =>
    obtain ⟨hbare, hmore⟩ := List.cons.inj hmap
    refine ⟨value, values, hbare, hmore, formBody_eq_ok_iff.2 (.inr ⟨?_, _, ?_, hvalues⟩)⟩
    · exact wideOpen_gap opened _
    · exact gap_complete opened hsolid

end Body

end Arguments

/-! ## 3. Expressions -/

variable {table : Table} {limit : Int} {input rest : Bytes}

/-- No digit stands at the input if its first byte is none. -/
theorem digitStands_eq_false_iff {input : Bytes} :
    digitStands input = false ↔ ∀ b ∈ input.head?, isDigit b = false := by
  cases input <;> simp [digitStands]

theorem splits_digits (input : Bytes) :
    input = input.takeWhile isDigit ++ input.dropWhile isDigit ∧
      (∀ b ∈ input.takeWhile isDigit, isDigit b = true) ∧
      digitStands (input.dropWhile isDigit) = false := by
  rw [digitStands_eq_false_iff]
  exact splits_run isDigit input

/-- **What is read is a spelling of the twig**, and a literal is read with all its digits. -/
theorem expression_sound (table : Table) (limit : Int) (room : Nat) :
    Sound table room (expression table limit room) := by
  induction room with
  | zero =>
    intro input rest t h
    cases h
  | succ n ih =>
    intro input rest t h
    rcases expression_eq_ok_iff.1 h with ⟨form, hform, body, first, more, rfl, hb, rfl⟩ |
      ⟨hd, rfl, rfl⟩
    · obtain ⟨text, rfl, hs⟩ := formBody_sound ih hform hb
      refine ⟨form.glyph.bytes ++ text, ?_, (List.append_assoc ..).symm, ?_⟩
      · rw [bare_apply, bare_fold]
        exact hs
      · exact fun hlit => absurd (Option.some.inj hlit) form.rune_ne_dtzy
    · obtain ⟨hsplit, hdigits, hend⟩ := splits_digits input
      refine ⟨_, ⟨?_, ?_⟩, hsplit, fun _ => hend⟩
      · exact .literal (takeWhile_digits_ne_nil hd) hdigits
      · exact Nat.succ_pos n

/-- A run of digits is taken whole and nothing more, if no digit stands behind it. -/
theorem takeWhile_digits {run : Bytes} (digits : ∀ b ∈ run, isDigit b = true)
    (ends : digitStands rest = false) :
    (run ++ rest).takeWhile isDigit = run ∧ (run ++ rest).dropWhile isDigit = rest := by
  rw [digitStands_eq_false_iff] at ends
  exact ⟨takeWhile_run digits ends, dropWhile_run digits ends⟩

theorem expression_complete_literal {run : Bytes} (nonempty : run ≠ [])
    (digits : ∀ b ∈ run, isDigit b = true) (ends : digitStands rest = false) (n : Nat) :
    ∃ u : Twig Extent, u.bare = ofValue .ud (.number (Decimal.positional run)) none ∧
      expression table limit (n + 1) (run ++ rest) = .ok (u, rest) := by
  have hd : digitStands (run ++ rest) = true := by
    cases run with
    | nil => exact absurd rfl nonempty
    | cons b run => exact digits b List.mem_cons_self
  obtain ⟨htake, hdrop⟩ := takeWhile_digits digits ends
  refine ⟨literalTwig (run ++ rest), ?_, ?_⟩
  · rw [literalTwig, bare_ofValue, htake]
  · rw [expression_digit hd, hdrop]

/-- **A spelling is read**, if no digit stands behind a literal. -/
theorem expression_complete (table : Table) (limit : Int) (room : Nat) :
    Complete table room (expression table limit room) := by
  induction room with
  | zero =>
    intro text t h
    exact absurd h.nesting (Nat.not_lt_zero _)
  | succ n ih =>
    intro text t h rest ends
    obtain ⟨spells, nesting⟩ := h
    cases spells with
    | literal nonempty digits => exact expression_complete_literal nonempty digits (ends rfl) n
    | @wide form first more registered length arguments =>
      have hnest := (nesting_apply_lt_iff form.glyph_isSome (·.twig) first more length).1 nesting
      obtain ⟨value, values, hbare, hmap, hbody⟩ := formBody_wide_complete ih length
        (fun a ha => ⟨arguments a ha, hnest a ha⟩) rest
      refine ⟨_, ?_, by simpa using expression_ok_of_body registered hbody⟩
      rw [bare_apply, bare_fold, hbare, hmap]
    | @tall form opening first more registered length opened gaps arguments =>
      have hnest := (nesting_apply_lt_iff form.glyph_isSome (·.twig) first more length).1 nesting
      obtain ⟨value, values, hbare, hmap, hbody⟩ := formBody_tall_complete ih length opened
        (fun a ha => ⟨⟨arguments a ha, hnest a ha⟩, gaps a ha⟩) rest
      refine ⟨_, ?_, by simpa using expression_ok_of_body registered hbody⟩
      rw [bare_apply, bare_fold, hbare, hmap]

/-! ## 4. Documents -/

namespace Document

variable {d : Document} {start : Nat} {depth : Int}

/-- What is read at an offset of a document is spelled there. -/
theorem expressionAt_sound {r : Reading} (h : d.expressionAt start depth = .ok r) :
    start ≤ r.stop ∧ r.stop ≤ d.source.bytes.length ∧
      Spells d.table ((d.source.remaining start).take (r.stop - start)) r.twig.bare ∧
      (r.twig.bare.nesting : Int) ≤ d.limit - depth ∧
      (IsLiteral r.twig.bare → digitStands (d.source.remaining r.stop) = false) := by
  obtain ⟨u, rest, hread, rfl⟩ := expressionAt_eq_ok_iff.1 h
  obtain ⟨text, hspelled, hsplit, ends⟩ := expression_sound d.table d.limit _ hread
  have hbare : (d.source.located start u).bare = u.bare := bare_map _ u
  have hstop : d.source.offsetOf start rest = start + text.length :=
    Source.offsetOf_append hsplit
  have htake : (d.source.remaining start).take (start + text.length - start) = text := by
    rw [hsplit, Nat.add_sub_cancel_left, List.take_left]
  have hlen := congrArg List.length hsplit
  rw [Source.length_remaining, List.length_append] at hlen
  have hpos : 0 < text.length := by
    obtain ⟨b, tail, rfl, -⟩ := hspelled.spells.solid
    simp
  show start ≤ d.source.offsetOf start rest ∧ d.source.offsetOf start rest ≤ _ ∧ _
  rw [hbare, hstop, htake, Source.remaining_append hsplit]
  exact ⟨by omega, by omega, hspelled.spells, lt_room_iff.1 hspelled.nesting, ends⟩

/-- What is spelled at an offset of a document is read there. -/
theorem expressionAt_complete {stop : Nat} {t : BareTwig} (hle : start ≤ stop)
    (hlen : stop ≤ d.source.bytes.length)
    (spells : Spells d.table ((d.source.remaining start).take (stop - start)) t)
    (nesting : (t.nesting : Int) ≤ d.limit - depth)
    (ends : IsLiteral t → digitStands (d.source.remaining stop) = false) :
    ∃ r, d.expressionAt start depth = .ok r ∧ r.twig.bare = t ∧ r.stop = stop := by
  have hsplit := d.source.remaining_split hle
  obtain ⟨u, hbare, hread⟩ := expression_complete d.table d.limit (room d.limit depth)
    ⟨spells, lt_room_iff.2 nesting⟩ (d.source.remaining stop) ends
  rw [← hsplit] at hread
  refine ⟨_, expressionAt_eq_ok_iff.2 ⟨u, _, hread, rfl⟩, ?_, ?_⟩
  · rw [Source.located, bare_map, hbare]
  · show d.source.offsetOf start (d.source.remaining stop) = stop
    rw [Source.offsetOf_append hsplit, List.length_take, Source.length_remaining]
    omega

/-- A document whose bytes spell a twig is read to its end. -/
theorem read_whole {t : BareTwig} (spells : Spells d.table d.source.bytes t)
    (nesting : (t.nesting : Int) ≤ d.limit) :
    ∃ r, d.expressionAt 0 0 = .ok r ∧ r.twig.bare = t ∧ r.stop = d.source.bytes.length := by
  have htake : (d.source.remaining 0).take (d.source.bytes.length - 0) = d.source.bytes :=
    List.take_length
  have hnothing : d.source.remaining d.source.bytes.length = [] := List.drop_length
  refine expressionAt_complete (Nat.zero_le _) (Nat.le_refl _) ?_ (by omega) fun _ => ?_
  · rw [htake]
    exact spells
  · rw [hnothing]
    rfl

/-- **An expression is read at an offset exactly if a spelling of it stands there**, nested no
    deeper than the limit allows at that depth, with no digit behind a literal. -/
theorem expressionAt_iff_spells (d : Document) (start stop : Nat) (depth : Int) (t : BareTwig) :
    (∃ r, d.expressionAt start depth = .ok r ∧ r.twig.bare = t ∧ r.stop = stop) ↔
      start ≤ stop ∧ stop ≤ d.source.bytes.length ∧
      Spells d.table ((d.source.remaining start).take (stop - start)) t ∧
      (t.nesting : Int) ≤ d.limit - depth ∧
      (IsLiteral t → digitStands (d.source.remaining stop) = false) := by
  constructor
  · intro h
    obtain ⟨r, hr, rfl, rfl⟩ := h
    exact expressionAt_sound hr
  · intro h
    obtain ⟨hle, hlen, spells, nesting, ends⟩ := h
    exact expressionAt_complete hle hlen spells nesting ends

end Document

end HoonReader
