import HoonReader.Proofs.Appending
import HoonReader.Proofs.Lockstep

/-!
# Line endings do not matter

A line may end in a newline or in a carriage return and a newline. The carriage return weighs
nothing, and no tag, digit or glyph has one, so a document reads the same with a carriage return in
front of every newline: the same twig, or the same report, at offsets that count the carriage
returns and on the same lines and columns.

* `withReturns`: the bytes with the carriage returns put in;
* `returned_readAlike`: a place of the one goes with the place of the other where the same is left,
  carriage returns put in;
* `Document.parse_withReturns`: so the outcome is the same up to these.
-/

namespace HoonReader

open Twig

/-! ## 1. Carriage returns -/

/-- The bytes with a carriage return put in front of every newline. -/
def withReturns (bytes : Bytes) : Bytes :=
  bytes.flatMap fun b => if b = Byte.newline then [Byte.carriageReturn, b] else [b]

@[simp] theorem withReturns_nil : withReturns [] = [] := rfl

@[simp] theorem withReturns_newline (rest : Bytes) :
    withReturns (Byte.newline :: rest) =
      Byte.carriageReturn :: Byte.newline :: withReturns rest := rfl

theorem withReturns_cons {b : UInt8} (h : b ≠ Byte.newline) (rest : Bytes) :
    withReturns (b :: rest) = b :: withReturns rest := by
  rw [withReturns, List.flatMap_cons, if_neg h]
  rfl

@[simp] theorem withReturns_append (a b : Bytes) :
    withReturns (a ++ b) = withReturns a ++ withReturns b :=
  List.flatMap_append

theorem withReturns_of_line {line : Bytes} (h : Byte.newline ∉ line) : withReturns line = line := by
  induction line with
  | nil => rfl
  | cons b line ih =>
    obtain ⟨hb, hline⟩ := not_or.1 (mt List.mem_cons.2 h)
    rw [withReturns_cons (Ne.symm hb), ih hline]

theorem length_withReturns (bytes : Bytes) :
    (withReturns bytes).length = bytes.length + bytes.count Byte.newline := by
  induction bytes with
  | nil => rfl
  | cons b bytes ih =>
    by_cases hb : b = Byte.newline
    · rw [hb, withReturns_newline, List.length_cons, List.length_cons, ih, List.length_cons,
        List.count_cons_self]
      omega
    · rw [withReturns_cons hb, List.length_cons, ih, List.length_cons, List.count_cons_of_ne hb]
      omega

theorem count_withReturns (bytes : Bytes) :
    (withReturns bytes).count Byte.newline = bytes.count Byte.newline := by
  induction bytes with
  | nil => rfl
  | cons b bytes ih =>
    by_cases hb : b = Byte.newline
    · rw [hb, withReturns_newline, List.count_cons_of_ne (by decide), List.count_cons_self, ih,
        List.count_cons_self]
    · rw [withReturns_cons hb, List.count_cons_of_ne hb, ih, List.count_cons_of_ne hb]

/-- A carriage return weighs nothing. -/
theorem weight_withReturns (run : Bytes) : weight (withReturns run) = weight run := by
  induction run with
  | nil => rfl
  | cons b run ih =>
    by_cases hb : b = Byte.newline
    · rw [hb, withReturns_newline, weight_cons, weight_cons, weight_cons, ih]
      exact Nat.zero_add _
    · rw [withReturns_cons hb, weight_cons, weight_cons, ih]

theorem mem_withReturns {b : UInt8} {bytes : Bytes} (h : b ∈ withReturns bytes) :
    b ∈ bytes ∨ b = Byte.carriageReturn := by
  obtain ⟨c, hc, hb⟩ := List.mem_flatMap.1 h
  by_cases hn : c = Byte.newline
  · rw [if_pos hn] at hb
    rcases List.mem_cons.1 hb with rfl | hb
    · exact .inr rfl
    · exact .inl (List.mem_singleton.1 hb ▸ hc)
  · rw [if_neg hn] at hb
    exact .inl (List.mem_singleton.1 hb ▸ hc)

/-- What ends a run of blanks stays as it is. -/
theorem BlanksEnd.head?_withReturns {rest : Bytes} (h : BlanksEnd rest) :
    (withReturns rest).head? = rest.head? := by
  cases rest with
  | nil => rfl
  | cons b rest =>
    have hb : b ≠ Byte.newline := by
      intro e
      have hblank := h b rfl
      rw [e] at hblank
      exact absurd hblank (by decide)
    rw [withReturns_cons hb]
    rfl

theorem blanks_withReturns {run : Bytes} (blank : ∀ b ∈ run, isBlank b = true) :
    ∀ b ∈ withReturns run, isBlank b = true := by
  intro b hb
  rcases mem_withReturns hb with h | rfl
  · exact blank b h
  · rfl

theorem withReturns_digits (input : Bytes) :
    (withReturns input).takeWhile isDigit = input.takeWhile isDigit ∧
      (withReturns input).dropWhile isDigit = withReturns (input.dropWhile isDigit) := by
  induction input with
  | nil => exact ⟨rfl, rfl⟩
  | cons b input ih =>
    by_cases hb : b = Byte.newline
    · rw [hb]
      exact ⟨rfl, rfl⟩
    · rw [withReturns_cons hb]
      by_cases hd : isDigit b = true
      · simp only [List.takeWhile_cons_of_pos hd, List.dropWhile_cons_of_pos hd, ih, and_self]
      · simp only [List.takeWhile_cons_of_neg hd, List.dropWhile_cons_of_neg hd,
          withReturns_cons hb, and_self]

/-- A tag without line ends that stands behind the change stood there before. -/
theorem eq_append_of_withReturns {tag input rest : Bytes}
    (plain : ∀ b ∈ tag, b ≠ Byte.newline ∧ b ≠ Byte.carriageReturn)
    (h : withReturns input = tag ++ rest) : ∃ a, input = tag ++ a := by
  induction tag generalizing input with
  | nil => exact ⟨input, rfl⟩
  | cons t tag ih =>
    obtain ⟨⟨hnewline, hreturn⟩, hplain⟩ := List.forall_mem_cons.1 plain
    cases input with
    | nil => cases h
    | cons b input =>
      by_cases hb : b = Byte.newline
      · rw [hb, withReturns_newline, List.cons_append] at h
        exact absurd (List.cons.inj h).1.symm hreturn
      · rw [withReturns_cons hb, List.cons_append] at h
        obtain ⟨rfl, hrest⟩ := List.cons.inj h
        obtain ⟨a, rfl⟩ := ih hplain hrest
        exact ⟨a, rfl⟩

theorem standsAt_withReturns {tag : Bytes}
    (plain : ∀ b ∈ tag, b ≠ Byte.newline ∧ b ≠ Byte.carriageReturn) {input : Bytes}
    (h : standsAt tag input = false) : standsAt tag (withReturns input) = false := by
  by_contra hstands
  obtain ⟨rest, hrest⟩ := standsAt_iff.1 (Bool.not_eq_false _ ▸ hstands)
  rw [standsAt_iff.2 (eq_append_of_withReturns plain hrest)] at h
  cases h

/-! ## 2. Places that go together -/

/-- What is left at a place of a source, and what is left there with the carriage returns. -/
def Returned (bytes rest rest' : Bytes) : Prop :=
  rest <:+ bytes ∧ rest' = withReturns rest

theorem Tag.plain : ∀ tag ∈ Tag.comment :: Tag.ofExpressions,
    ∀ b ∈ tag, b ≠ Byte.newline ∧ b ≠ Byte.carriageReturn := by
  decide +kernel

section Returned

variable {bytes : Bytes}

theorem Returned.tag {tag input input' : Bytes} (htag : tag ∈ Tag.ofExpressions)
    (h : Returned bytes input input') : Tag.Alike (Returned bytes) tag input input' := by
  obtain ⟨hsuffix, rfl⟩ := h
  have hplain := Tag.plain tag (List.mem_cons_of_mem _ htag)
  rcases standsAt_cases tag input with ⟨rest, rfl⟩ | hnone
  · have htext : withReturns tag = tag :=
      withReturns_of_line fun hmem => (hplain _ hmem).1 rfl
    refine .inl ⟨rest, withReturns rest, rfl, by rw [withReturns_append, htext], ?_, rfl⟩
    exact (List.suffix_append tag rest).trans hsuffix
  · exact .inr ⟨hnone, standsAt_withReturns hplain hnone⟩

theorem Returned.digits {input input' : Bytes} (h : Returned bytes input input') :
    input'.takeWhile isDigit = input.takeWhile isDigit ∧
      Returned bytes (input.dropWhile isDigit) (input'.dropWhile isDigit) := by
  obtain ⟨hsuffix, rfl⟩ := h
  obtain ⟨htake, hdrop⟩ := withReturns_digits input
  exact ⟨htake, (List.dropWhile_suffix isDigit).trans hsuffix, hdrop⟩

/-- A piece of a gap is read in the same of the five ways. -/
theorem returned_piece : Skipper.InStep Eq (Returned bytes) gapPiece gapPiece := by
  rintro input input' ⟨hsuffix, rfl⟩
  obtain ⟨out, hreads⟩ := exists_readsPiece input
  have hforward := (gapPiece_forward input).trans hsuffix
  rw [hreads.eq] at hforward ⊢
  cases hreads with
  | @comment body rest inside text =>
    have hinside : Byte.newline ∉ body ++ [Byte.carriageReturn] := by
      rw [List.mem_append, not_or]
      exact ⟨inside, by decide⟩
    have hreads' : ReadsPiece (withReturns input) (.ok (withReturns rest)) := by
      refine .comment hinside ?_
      have hopen : withReturns Tag.comment = Tag.comment := rfl
      have hclose : withReturns Tag.newline = [Byte.carriageReturn] ++ Tag.newline := rfl
      rw [text]
      simp only [withReturns_append, hopen, hclose, withReturns_of_line inside, List.append_assoc]
    rw [hreads'.eq]
    exact .ok ⟨hforward, rfl⟩
  | @openComment body inside text =>
    have hreads' : ReadsPiece (withReturns input)
        (.error (Failure.of .openComment (withReturns input)).commit) := by
      refine .openComment inside ?_
      have hline : Byte.newline ∉ Tag.comment ++ body := by
        rw [List.mem_append, not_or]
        exact ⟨by decide, inside⟩
      rw [text, withReturns_of_line hline]
    rw [hreads'.eq]
    exact .error ⟨rfl, rfl, hforward, rfl⟩
  | @blanks run rest blank ends tab long text =>
    have hhead := ends.head?_withReturns
    have hreads' : ReadsPiece (withReturns input) (.ok (withReturns rest)) := by
      refine .blanks (blanks_withReturns blank) ?_ (hhead ▸ tab) ?_
        (by rw [text, withReturns_append])
      · rw [BlanksEnd, hhead]
        exact ends
      · rw [weight_withReturns]
        exact long
    rw [hreads'.eq]
    exact .ok ⟨hforward, rfl⟩
  | @tab run rest blank text =>
    have htab : withReturns (Byte.tab :: rest) = Byte.tab :: withReturns rest :=
      withReturns_cons (by decide) rest
    have hreads' : ReadsPiece (withReturns input)
        (.error (.of .tab (Byte.tab :: withReturns rest))) :=
      .tab (blanks_withReturns blank) (by rw [text, withReturns_append, htab])
    rw [hreads'.eq]
    exact .error ⟨rfl, rfl, hforward, htab.symm⟩
  | @light run rest blank ends tab light noComment text =>
    have hhead := ends.head?_withReturns
    have hreads' : ReadsPiece (withReturns input)
        (.error (.of .whitespace (withReturns input))) := by
      refine .light (blanks_withReturns blank) ?_ (hhead ▸ tab) ?_
        (standsAt_withReturns (Tag.plain _ List.mem_cons_self) noComment)
        (by rw [text, withReturns_append])
      · rw [BlanksEnd, hhead]
        exact ends
      · rw [weight_withReturns]
        exact light
    rw [hreads'.eq]
    exact .error ⟨rfl, rfl, hforward, rfl⟩

/-- No glyph has a line end in it. -/
theorem Rune.glyph_text_line {r : Rune} {g : Glyph} (h : r.glyph? = some g) :
    Char.ofNat Byte.newline.toNat ∉ g.text.toList ∧
      Char.ofNat Byte.carriageReturn.toNat ∉ g.text.toList := by
  cases r <;> cases h <;> decide

/-- The glyphs that are suggested are the same: a line end suggests none. -/
theorem noExpression_withReturns (table : Table) (input : Bytes) :
    (noExpression table (withReturns input)).cause = (noExpression table input).cause := by
  have hglyphs : ∀ b : UInt8, b = Byte.newline ∨ b = Byte.carriageReturn → ∀ rest,
      glyphsSharing (b :: rest) (table.glyphs.map Glyph.text) = [] := by
    intro b hb rest
    refine List.filter_eq_nil_iff.2 fun text htext => ?_
    obtain ⟨glyph, hglyph, rfl⟩ := List.mem_map.1 htext
    obtain ⟨form, -, rfl⟩ := List.mem_map.1 hglyph
    obtain ⟨hnewline, hreturn⟩ := Rune.glyph_text_line form.glyph_eq
    rcases hb with rfl | rfl
    · simpa using hnewline
    · simpa using hreturn
  cases input with
  | nil => rfl
  | cons b input =>
    by_cases hb : b = Byte.newline
    · rw [hb, withReturns_newline]
      show Cause.expression _ = Cause.expression _
      rw [hglyphs _ (.inr rfl), hglyphs _ (.inl rfl)]
    · rw [withReturns_cons hb]
      rfl

theorem returned_readAlike (table : Table) (bytes : Bytes) :
    ReadAlike table table Eq (Returned bytes) where
  forms _ := Iff.rfl
  cause _ := rfl
  nesting := by
    rintro cause _ rfl limit
    exact Iff.rfl
  tag _ htag _ _ hplaces := hplaces.tag htag
  digits _ _ hplaces := hplaces.digits
  piece := returned_piece
  noExpression := by
    rintro input _ ⟨-, rfl⟩
    exact (noExpression_withReturns table input).symm

end Returned

/-! ## 3. Lines and columns -/

theorem lineBefore_withReturns (before : Bytes) :
    lineBefore (withReturns before) = lineBefore before := by
  induction before using List.reverseRecOn with
  | nil => rfl
  | append_singleton before b ih =>
    by_cases hb : b = Byte.newline
    · have hline : withReturns [b] = [Byte.carriageReturn, Byte.newline] := by rw [hb]; rfl
      rw [withReturns_append, hline, lineBefore_append_of_mem (by simp),
        lineBefore_append_of_mem (by simp [hb]), hb]
      rfl
    · have hline : withReturns [b] = [b] := withReturns_cons hb []
      have hb' : Byte.newline ∉ [b] := by simpa using Ne.symm hb
      rw [withReturns_append, hline, lineBefore_append_of_not_mem hb',
        lineBefore_append_of_not_mem hb', ih]

/-- **Carriage returns change neither the line nor the column** of what stands behind them. -/
theorem Location.past_withReturns (file : String) (before : Bytes) :
    past file (withReturns before) =
      { past file before with offset := before.length + before.count Byte.newline } := by
  have hcolumn := congrArg List.length (lineBefore_withReturns before)
  unfold lineBefore at hcolumn
  unfold past
  rw [count_withReturns, length_withReturns, hcolumn]

/-! ## 4. Documents -/

/-- The source with a carriage return put in front of every newline. -/
def Source.withReturns (s : Source) : Source where
  bytes := HoonReader.withReturns s.bytes
  file := s.file

/-- The offset with the carriage returns in front of it counted. -/
def Source.offsetWithReturns (s : Source) (offset : Nat) : Nat :=
  offset + (s.bytes.take offset).count Byte.newline

/-- The location with the carriage returns in front of it counted; line and column stay. -/
def Location.withReturns (s : Source) (l : Location) : Location :=
  { l with offset := s.offsetWithReturns l.offset }

/-- The span with the carriage returns in front of its ends counted. -/
def Span.withReturns (s : Source) (a : Span) : Span :=
  ⟨a.start.withReturns s, a.stop.withReturns s⟩

/-- The same twig, with the carriage returns counted in its spans and in front of its end. -/
def Reading.withReturns (s : Source) (r : Reading) : Reading :=
  ⟨r.twig.map (Span.withReturns s), s.offsetWithReturns r.stop⟩

/-- The same report, with the carriage returns counted in front of it and put in behind it. -/
def Report.withReturns (s : Source) (e : Report) : Report :=
  { e with
    offset := s.offsetWithReturns e.offset
    remaining := HoonReader.withReturns e.remaining
    location := e.location.withReturns s }

namespace Source

variable {s : Source}

theorem offsetWithReturns_passed {passed rest : Bytes} (h : s.bytes = passed ++ rest) :
    s.offsetWithReturns passed.length = passed.length + passed.count Byte.newline := by
  rw [offsetWithReturns, h, List.take_left]

/-- What is left at an offset is left behind the carriage returns, with those put in. -/
theorem remaining_withReturns (s : Source) (offset : Nat) :
    s.withReturns.remaining (s.offsetWithReturns offset) =
      HoonReader.withReturns (s.remaining offset) := by
  have hsplit : s.withReturns.bytes = HoonReader.withReturns (s.bytes.take offset) ++
      HoonReader.withReturns (s.bytes.drop offset) := by
    rw [← withReturns_append, List.take_append_drop]
    rfl
  have hlength := length_withReturns (s.bytes.take offset)
  rw [remaining, hsplit, offsetWithReturns]
  by_cases hoffset : offset ≤ s.bytes.length
  · rw [List.length_take, min_eq_left hoffset] at hlength
    rw [← hlength, List.drop_left]
    rfl
  · -- nothing is left behind the end of the source
    have hend : s.bytes.drop offset = [] := List.drop_eq_nil_of_le (by omega)
    rw [remaining, hend, withReturns_nil, List.append_nil]
    refine List.drop_eq_nil_of_le ?_
    rw [hlength, List.length_take]
    omega

theorem location_withReturns {rest rest' : Bytes} (h : Returned s.bytes rest rest') :
    s.withReturns.offsetOf 0 rest' = s.offsetWithReturns (s.offsetOf 0 rest) ∧
      s.withReturns.location (s.withReturns.offsetOf 0 rest') =
        (s.location (s.offsetOf 0 rest)).withReturns s := by
  obtain ⟨⟨passed, hsplit⟩, rfl⟩ := h
  have hsplit' : s.withReturns.bytes =
      HoonReader.withReturns passed ++ HoonReader.withReturns rest := by
    rw [← withReturns_append, hsplit]
    rfl
  have hoffset := offsetWithReturns_passed hsplit.symm
  constructor
  · rw [offsetOf_passed hsplit', offsetOf_passed hsplit.symm, hoffset, length_withReturns]
  · rw [location_passed hsplit', location_passed hsplit.symm, Location.withReturns,
      Location.past_withReturns]
    show _ = { Location.past s.file passed with offset := s.offsetWithReturns passed.length }
    rw [hoffset]
    rfl

end Source

namespace Document

/-- The document with a carriage return put in front of every newline. -/
def withReturns (d : Document) : Document :=
  { d with source := d.source.withReturns }

theorem reading_withReturns {s : Source} {r r' : Reading}
    (h : LocatedAlike s s.withReturns (Returned s.bytes) r r') : r' = r.withReturns s := by
  cases h with
  | @mk t t' rest rest' htwig hstop =>
    have hspans : (s.located 0 t).map (Span.withReturns s) = s.withReturns.located 0 t' := by
      rw [Source.located_zero, Source.located_zero, Twig.map_map]
      refine htwig.map_eq _ _ fun a b hab => ?_
      exact congrArg₂ Span.mk (Source.location_withReturns hab.1).2.symm
        (Source.location_withReturns hab.2).2.symm
    rw [Reading.withReturns, hspans, (Source.location_withReturns hstop).1]

theorem report_withReturns {s : Source} {e e' : Report}
    (h : ReportedAlike s s.withReturns Eq (Returned s.bytes) e e') : e' = e.withReturns s := by
  cases h with
  | @mk f f' halike =>
    obtain ⟨hoffset, hlocation⟩ := Source.location_withReturns halike.place
    rw [Source.reportOf, Source.report, ← halike.cause, halike.committed, hlocation, hoffset,
      Source.remaining_withReturns]
    rfl

/-- **Line endings do not matter.** With a carriage return put in front of every newline a document
    is read if and only if it is read without them, and gives the same twig, or else the same
    report: offsets count the carriage returns in front of them, lines and columns stay, and what
    is left at any offset is left with the carriage returns put in. -/
theorem parse_withReturns (d : Document) :
    (d.withReturns.parse =
      match d.parse with
      | .ok r => .ok (r.withReturns d.source)
      | .error e => .error (e.withReturns d.source)) ∧
    ∀ offset, d.withReturns.source.remaining (d.source.offsetWithReturns offset) =
      HoonReader.withReturns (d.source.remaining offset) := by
  refine ⟨?_, d.source.remaining_withReturns⟩
  have hpaired := (returned_readAlike d.table d.source.bytes).parse_paired d d.withReturns rfl
    ⟨List.suffix_rfl, rfl⟩
  cases hparse : d.parse with
  | ok r =>
    rw [hparse] at hpaired
    obtain ⟨r', hparse', hr⟩ := hpaired.of_ok
    rw [hparse', reading_withReturns hr]
  | error e =>
    rw [hparse] at hpaired
    obtain ⟨e', hparse', he⟩ := hpaired.of_error
    rw [hparse', report_withReturns he]

end Document

end HoonReader
