import HoonReader.Proofs.Spans

/-!
# Spans are splice points

The bytes of an argument, however deep inside, can be taken out at its span and another expression
put there. What is read then is the old twig with that one argument exchanged, and nothing around
it notices: neither the digits and gaps next to it nor the end markers of the applications it
stands in.

* `expression_fillAll`: a twig inside of applications was read where it stands, and any spelling
  that fits the room left there may stand in its place;
* `Document.read_spliced`: the same for a document, with spans and offsets.
-/

namespace HoonReader

open Twig

/-! ## 1. Any depth -/

section FillAll

variable {table : Table} {limit : Int} {room : Nat} {input rest : Bytes}

/-- **A twig inside of applications was read where it stands, and another one may be put there.** -/
theorem expression_fillAll {frames : List (Frame Extent)} (applies : ∀ f ∈ frames, f.Applies)
    {t : Twig Extent} (h : expression table limit room input = .ok (fillAll frames t, rest)) :
    ∃ n front back start stop, room = n + frames.length ∧ input = front ++ start ∧
      stop = back ++ rest ∧ expression table limit n start = .ok (t, stop) ∧
      ∀ text u, SpelledIn table n text u →
        SpelledIn table room (front ++ text ++ back) (fillAll (frames.map Frame.bare) u) := by
  induction frames generalizing room input rest with
  | nil =>
    refine ⟨room, [], [], input, rest, rfl, rfl, rfl, h, ?_⟩
    intro text u hs
    simpa [fillAll] using hs
  | cons f frames ih =>
    obtain ⟨hf, hframes⟩ := List.forall_mem_cons.1 applies
    cases room with
    | zero => cases h
    | succ room =>
      obtain ⟨front, back, start, stop, rfl, rfl, hread, hfill⟩ := expression_fill hf h
      obtain ⟨n, front', back', start', stop', rfl, rfl, rfl, hread', hfill'⟩ := ih hframes hread
      refine ⟨n, front ++ front', back' ++ back, start', _, rfl, by simp, by simp, hread', ?_⟩
      intro text u hs
      have hspelled := hfill _ _ (hfill' text u hs)
      simpa [fillAll] using hspelled

end FillAll

/-! ## 2. Frames with other notes -/

section Map

variable {σ τ : Type} {g : σ → τ}

/-- The frame with every note changed. -/
def Twig.Frame.map (g : σ → τ) (f : Frame σ) : Frame τ :=
  ⟨f.rune, f.before.map (Twig.map g), f.behind.map (Twig.map g), f.note.map g⟩

theorem Twig.Frame.bare_map (f : Frame σ) : (f.map g).bare = f.bare := by
  simp [Frame.map, Frame.bare, Function.comp_def]

theorem Twig.Frame.applies_map {f : Frame σ} : (f.map g).Applies ↔ f.Applies := by
  constructor
  · intro h
    exact ⟨by simpa [Frame.map, Frame.Fits] using h.fits, h.glyph⟩
  · intro h
    exact ⟨by simpa [Frame.map, Frame.Fits] using h.fits, h.glyph⟩

theorem Twig.map_eq_fold {t : Twig σ} {first : Twig τ} {more : List (Twig τ)}
    (h : t.map g = fold first more) : ∃ first' more', t = fold first' more' ∧
      first'.map g = first ∧ more'.map (Twig.map g) = more := by
  induction more generalizing t first with
  | nil => exact ⟨t, [], rfl, h, rfl⟩
  | cons second more ih =>
    cases t with
    | literal odor value note => cases h
    | rune r => cases h
    | cell head tail note =>
      injection h with hhead htail hnote
      obtain ⟨second', more', rfl, rfl, rfl⟩ := ih htail
      rw [Option.map_eq_none_iff.1 hnote]
      exact ⟨head, second' :: more', rfl, hhead, rfl⟩

/-- What fills a frame once notes are changed, filled one before. -/
theorem Twig.map_eq_fill {t : Twig σ} {f : Frame τ} {s : Twig τ} (h : t.map g = f.fill s) :
    ∃ (f' : Frame σ) (s' : Twig σ), t = f'.fill s' ∧ f'.map g = f ∧ s'.map g = s := by
  obtain ⟨first, more, hlist, hfill⟩ := f.fill_eq s
  rw [hfill] at h
  cases t with
  | literal odor value note => cases h
  | rune r => cases h
  | cell head tail note =>
    injection h with hhead htail hnote
    cases head with
    | literal odor value note' => cases hhead
    | cell a b note' => cases hhead
    | rune r =>
      obtain ⟨first', more', rfl, hfirst, hmore⟩ := map_eq_fold htail
      have hmap : (first' :: more').map (Twig.map g) = f.before ++ s :: f.behind := by
        rw [hlist, List.map_cons, hfirst, hmore]
      obtain ⟨before, rest, hrest, hbefore, hmapRest⟩ := List.map_eq_append_iff.1 hmap
      obtain ⟨s', behind, rfl, hs, hbehind⟩ := List.map_eq_cons_iff.1 hmapRest
      refine ⟨⟨r, before, behind, note⟩, s', ?_, ?_, hs⟩
      · obtain ⟨first'', more'', hlist', hfill'⟩ := Frame.fill_eq ⟨r, before, behind, note⟩ s'
        obtain ⟨rfl, rfl⟩ := List.cons.inj (hrest.trans hlist')
        exact hfill'.symm
      · rw [Frame.map, hbefore, hbehind, Twig.rune.inj hhead, hnote]

theorem Twig.map_eq_fillAll {frames : List (Frame τ)} {t : Twig σ} {s : Twig τ}
    (h : t.map g = fillAll frames s) :
    ∃ (frames' : List (Frame σ)) (s' : Twig σ), t = fillAll frames' s' ∧
      frames'.map (Frame.map g) = frames ∧ s'.map g = s := by
  induction frames generalizing t with
  | nil => exact ⟨[], t, rfl, rfl, h⟩
  | cons f frames ih =>
    obtain ⟨f', t', rfl, rfl, ht⟩ := map_eq_fill h
    obtain ⟨frames', s', rfl, rfl, hs⟩ := ih ht
    exact ⟨f' :: frames', s', rfl, rfl, hs⟩

end Map

/-! ## 3. Documents -/

/-- An application of a rune with a glyph is no literal. -/
theorem Twig.not_isLiteral_fillAll {σ : Type} {frames : List (Frame σ)} (inside : frames ≠ [])
    (glyphs : ∀ f ∈ frames, f.rune.glyph?.isSome) (t : Twig σ) :
    ¬ IsLiteral (fillAll frames t) := by
  obtain ⟨f, others, rfl⟩ := List.exists_cons_of_ne_nil inside
  obtain ⟨first, more, -, hfill⟩ := f.fill_eq (fillAll others t)
  have hall : fillAll (f :: others) t = f.fill (fillAll others t) := rfl
  intro hlit
  rw [hall, hfill] at hlit
  have hglyph := glyphs f List.mem_cons_self
  rw [show f.rune = .dtzy from Option.some.inj hlit] at hglyph
  cases hglyph

namespace Document

variable {d : Document}

/-- The document with `text` in place of the bytes between two offsets. -/
def splice (d : Document) (start stop : Nat) (text : Bytes) : Document :=
  d.withBytes (d.source.bytes.take start ++ text ++ d.source.bytes.drop stop)

/-- What is read of a document with nothing left spells its twig. -/
theorem spells_of_read_whole {r : Reading} (h : d.expressionAt 0 0 = .ok r)
    (whole : d.source.remaining r.stop = []) : Spells d.table d.source.bytes r.twig.bare := by
  obtain ⟨-, -, hspells, -, -⟩ := expressionAt_sound h
  have hlength : d.source.bytes.length ≤ r.stop := List.drop_eq_nil_iff.1 whole
  have htake : (d.source.remaining 0).take (r.stop - 0) = d.source.bytes :=
    List.take_of_length_le hlength
  rwa [htake] at hspells

/-- What is spelled at the start of a document and is no literal is read, whatever follows. -/
theorem read_front {text rest : Bytes} {t : BareTwig} (spells : Spells d.table text t)
    (nesting : (t.nesting : Int) ≤ d.limit) (application : ¬ IsLiteral t)
    (bytes : d.source.bytes = text ++ rest) :
    ∃ r, d.expressionAt 0 0 = .ok r ∧ r.twig.bare = t ∧ r.stop = text.length := by
  have htake : (d.source.remaining 0).take (text.length - 0) = text := by
    show d.source.bytes.take text.length = text
    rw [bytes, List.take_left]
  refine expressionAt_complete (Nat.zero_le _) ?_ ?_ (by omega) fun hlit => absurd hlit application
  · rw [bytes, List.length_append]
    omega
  · rwa [htake]

theorem splice_bytes {front old rest : Bytes} (bytes : d.source.bytes = front ++ old ++ rest)
    (text : Bytes) :
    (d.splice front.length (front.length + old.length) text).source.bytes =
      front ++ text ++ rest := by
  show d.source.bytes.take _ ++ text ++ d.source.bytes.drop _ = _
  rw [bytes, ← List.length_append]
  simp

/-- With the old text exchanged, a document is read as the new text and what is around it spell. -/
theorem read_splice {front old back rest text : Bytes} {t : BareTwig}
    (bytes : d.source.bytes = front ++ old ++ (back ++ rest))
    (spelled : SpelledIn d.table (room d.limit 0) (front ++ text ++ back) t)
    (application : ¬ IsLiteral t) :
    ∃ q, (d.splice front.length (front.length + old.length) text).expressionAt 0 0 = .ok q ∧
      q.twig.bare = t ∧ q.stop = front.length + text.length + back.length ∧
      (d.splice front.length (front.length + old.length) text).source.remaining q.stop = rest := by
  have hnesting : (t.nesting : Int) ≤ d.limit := by
    have hlt := lt_room_iff.1 spelled.nesting
    omega
  have hsplice := splice_bytes bytes text
  rw [← List.append_assoc] at hsplice
  obtain ⟨q, hq, hbare, hstop⟩ :=
    read_front (d := d.splice _ _ text) spelled.spells hnesting application hsplice
  refine ⟨q, hq, hbare, ?_, ?_⟩
  · rw [hstop, List.length_append, List.length_append]
  · rw [Source.remaining, hsplice, hstop, List.drop_left]

/-- What is read to its end and nests no deeper than the room left inside of applications fits
    there. -/
theorem spelledIn_of_read_whole {n : Nat} {frames : List (Frame Extent)} {text : Bytes}
    {u : Reading} (hroom : room d.limit 0 = n + frames.length)
    (h : (d.withBytes text).expressionAt 0 0 = .ok u)
    (whole : (d.withBytes text).source.remaining u.stop = [])
    (nesting : (u.twig.nesting : Int) ≤ d.limit - frames.length) :
    SpelledIn d.table n text u.twig.bare := by
  refine ⟨spells_of_read_whole h whole, ?_⟩
  rw [nesting_bare]
  unfold room at hroom
  omega

/-- **Spans are splice points.** An argument of what was read has a span, and any expression that is
    read to its end and fits the room left there may be put in its place: what is read then is the
    old twig with that argument exchanged, and what is left behind it is the same. -/
theorem read_spliced (d : Document) {r : Reading} (h : d.expressionAt 0 0 = .ok r)
    {frames : List (Frame Span)} (inside : frames ≠ []) (applies : ∀ f ∈ frames, f.Applies)
    {t : Twig Span} (place : r.twig = fillAll frames t) :
    ∃ start stop, t.note? = some (d.source.span start stop) ∧ start < stop ∧
      stop ≤ d.source.bytes.length ∧
      ∀ text u, (d.withBytes text).expressionAt 0 0 = .ok u →
        (d.withBytes text).source.remaining u.stop = [] →
        (u.twig.nesting : Int) ≤ d.limit - frames.length →
        ∃ q, (d.splice start stop text).expressionAt 0 0 = .ok q ∧
          q.twig.bare = fillAll (frames.map Frame.bare) u.twig.bare ∧
          (d.splice start stop text).source.remaining q.stop = d.source.remaining r.stop ∧
          (q.stop : Int) = r.stop + text.length - (stop - start) := by
  obtain ⟨whole, rest, hread, rfl⟩ := expressionAt_eq_ok_iff.1 h
  rw [Source.located_zero] at place
  obtain ⟨frames', t', rfl, rfl, rfl⟩ := map_eq_fillAll place
  have happlies : ∀ f ∈ frames', f.Applies :=
    fun f hf => Frame.applies_map.1 (applies _ (List.mem_map_of_mem hf))
  obtain ⟨n, front, back, start, stop, hroom, hinput, rfl, hread', hfill⟩ :=
    expression_fillAll happlies hread
  obtain ⟨old, hold, rfl, -⟩ := expression_sound d.table d.limit n hread'
  -- the source is cut where the argument begins, where it ends, and where reading ended
  have hbytes : d.source.bytes = front ++ old ++ (back ++ rest) := by
    simpa [Source.remaining] using hinput
  have hstart : d.source.offsetOf 0 (old ++ (back ++ rest)) = front.length :=
    Source.offsetOf_passed (by rw [hbytes, List.append_assoc])
  have hstop : d.source.offsetOf 0 (back ++ rest) = front.length + old.length := by
    rw [Source.offsetOf_passed hbytes, List.length_append]
  have hend : d.source.offsetOf 0 rest = front.length + old.length + back.length := by
    rw [← List.append_assoc] at hbytes
    rw [Source.offsetOf_passed hbytes, List.length_append, List.length_append]
  refine ⟨front.length, front.length + old.length, ?_, ?_, ?_, ?_⟩
  · rw [Twig.note?_map, expression_note hread', ← hstop, ← hstart]
    rfl
  · obtain ⟨b, tail, rfl, -⟩ := hold.spells.solid
    simp
  · rw [hbytes, List.length_append, List.length_append]
    omega
  · intro text u hu huwhole hnesting
    rw [List.length_map] at hnesting
    have hspelled := hfill text _ (spelledIn_of_read_whole hroom hu huwhole hnesting)
    have hglyphs : ∀ f ∈ frames'.map Frame.bare, f.rune.glyph?.isSome := by
      intro f hf
      obtain ⟨f', hf', rfl⟩ := List.mem_map.1 hf
      exact (happlies f' hf').glyph
    obtain ⟨q, hq, hbare, hqstop, hqrest⟩ := read_splice hbytes hspelled
      (not_isLiteral_fillAll (by simpa using inside) hglyphs _)
    refine ⟨q, hq, ?_, ?_, ?_⟩
    · rw [hbare]
      simp [Function.comp_def, Frame.bare_map]
    · show _ = d.source.remaining (d.source.offsetOf 0 rest)
      rw [hqrest, hend, ← List.length_append, ← List.length_append, Source.remaining, hbytes,
        ← List.append_assoc, List.drop_left]
    · show (q.stop : Int) = (d.source.offsetOf 0 rest : Nat) + _ - _
      rw [hend, hqstop]
      omega

/-- A successor, to be put in the place of a literal. -/
def successor : Bytes :=
  ascii ['.', '+', '(', '1', ')']

/-- What is read of it. -/
def successorReading : Reading where
  twig := .apply .dtls
    (.ofValue .ud (.number 1)
      (some ⟨⟨Source.unknownFile, 1, 4, 3⟩, ⟨Source.unknownFile, 1, 5, 4⟩⟩))
    (some ⟨⟨Source.unknownFile, 1, 1, 0⟩, ⟨Source.unknownFile, 1, 6, 5⟩⟩)
  stop := 5

/-- The literal inside of the loop point of the equality, and what is around it. -/
def loopFrames : List (Frame Span) :=
  [⟨.dtts, [.ofValue .ud (.number 12)
      (some ⟨⟨Source.unknownFile, 2, 2, 4⟩, ⟨Source.unknownFile, 2, 4, 6⟩⟩)], [],
      tallEqualityReading.twig.note?⟩,
    ⟨.brhp, [], [], loopPoint.note?⟩]

/-- That literal. -/
def loopLiteral : Twig Span :=
  .ofValue .ud (.number 7) (some ⟨⟨Source.unknownFile, 3, 5, 11⟩, ⟨Source.unknownFile, 3, 6, 12⟩⟩)

theorem read_spliced_tallEquality :
    tallEquality.expressionAt 0 0 = .ok tallEqualityReading ∧
      loopFrames ≠ [] ∧ (∀ f ∈ loopFrames, f.Applies) ∧
      tallEqualityReading.twig = fillAll loopFrames loopLiteral ∧
      (tallEquality.withBytes successor).expressionAt 0 0 = .ok successorReading ∧
      ∃ start stop, loopLiteral.note? = some (tallEquality.source.span start stop) ∧
        ∃ q, (tallEquality.splice start stop successor).expressionAt 0 0 = .ok q ∧
          q.twig.bare = fillAll (loopFrames.map Frame.bare) successorReading.twig.bare := by
  have hinside : loopFrames ≠ [] := List.cons_ne_nil _ _
  have hplace : tallEqualityReading.twig = fillAll loopFrames loopLiteral := by decide
  have happlies : ∀ f ∈ loopFrames, f.Applies := by
    refine List.forall_mem_cons.2 ⟨⟨rfl, rfl⟩, List.forall_mem_singleton.2 ⟨rfl, rfl⟩⟩
  have hsuccessor : (tallEquality.withBytes successor).expressionAt 0 0 = .ok successorReading := by
    decide +kernel
  obtain ⟨start, stop, hnote, -, -, hsplice⟩ :=
    read_spliced tallEquality tallEquality_read hinside happlies hplace
  obtain ⟨q, hq, hbare, -, -⟩ := hsplice successor successorReading hsuccessor rfl (by decide)
  exact ⟨tallEquality_read, hinside, happlies, hplace, hsuccessor, start, stop, hnote, q, hq, hbare⟩

end Document

end HoonReader
