import HoonReader.Proofs.Location

/-!
# Locations are exact and in order

A location names an offset by line and column. This file says what line and column are, by the bytes
in front of the offset alone, and that they keep the order of the offsets:

* `lineStarts_increasing`: the table of line starts is in increasing order, so the lines that start
  up to an offset can be counted by a binary search;
* `exists_line`: the bytes of a line up to a place are those behind the last newline;
* `Location.past_before`: what stands between two places takes the line or the column further;
* `Location.ofOffset_exact`: so locations tell offsets, with their order, and no two offsets of a
  source share one.
-/

namespace HoonReader

/-! ## 1. Lines -/

theorem lineStartsFrom_increasing (base : Nat) (source : Bytes) :
    (lineStartsFrom base source).Pairwise (· < ·) := by
  induction source generalizing base with
  | nil => exact .nil
  | cons b rest ih =>
    rw [lineStartsFrom]
    split
    · exact .cons (fun start hstart => (mem_lineStartsFrom hstart).1) (ih _)
    · exact ih _

/-- **The line starts are in increasing order.** -/
theorem lineStarts_increasing (source : Bytes) : (lineStarts source).Pairwise (· < ·) :=
  .cons (fun _ hstart => (mem_lineStartsFrom hstart).1) (lineStartsFrom_increasing 0 source)

/-- **The bytes of a line up to a place are those behind the last newline**, or all in front of the
    place if there is none. -/
theorem exists_line (before : Bytes) : ∃ front line, before = front ++ line ∧
    Byte.newline ∉ line ∧ (front = [] ∨ front.getLast? = some Byte.newline) ∧
    (lineBefore before).length = line.length := by
  obtain ⟨hsplit, hline, hends⟩ := splits_run (· != Byte.newline) before.reverse
  refine ⟨(before.reverse.dropWhile (· != Byte.newline)).reverse, (lineBefore before).reverse,
    ?_, ?_, ?_, List.length_reverse.symm⟩
  · rw [← List.reverse_append, lineBefore, ← hsplit, List.reverse_reverse]
  · intro hmem
    simpa using hline Byte.newline (List.mem_reverse.1 hmem)
  · rw [List.getLast?_reverse]
    cases hrest : before.reverse.dropWhile (· != Byte.newline) with
    | nil => exact .inl rfl
    | cons b rest =>
      rw [hrest] at hends
      have hb : b = Byte.newline := by simpa using hends b rfl
      exact .inr (congrArg some hb)

/-! ## 2. Locations -/

namespace Location

/-- What a location tells of an offset of a source: the offset, moved into the source; the lines in
    front of it; the bytes of its line in front of it, which are those behind the last newline; and
    with them where its line starts. -/
structure Tells (l : Location) (file : String) (source : Bytes) (offset : Int) : Prop where
  file : l.file = file
  offset : (l.offset : Int) = max 0 (min offset source.length)
  line : l.line = 1 + (source.take l.offset).count Byte.newline
  column : ∃ front line, source.take l.offset = front ++ line ∧ Byte.newline ∉ line ∧
    (front = [] ∨ front.getLast? = some Byte.newline) ∧ l.column = 1 + line.length
  start : ∃ start, (lineStarts source)[l.line - 1]? = some start ∧
    start + l.column - 1 = l.offset

/-- The location comes first: it lies in an earlier line, or in the same one at a smaller column. -/
def Before (l l' : Location) : Prop :=
  l.line < l'.line ∨ l.line = l'.line ∧ l.column < l'.column

theorem clamp_eq (offset : Int) (length : Nat) :
    (clamp offset length : Int) = max 0 (min offset length) := by
  unfold clamp
  omega

theorem ofOffset_tells (file : String) (source : Bytes) (offset : Int) :
    (ofOffset file source offset).Tells file source offset := by
  obtain ⟨front, line, hsplit, hline, hfront, hlength⟩ :=
    exists_line (source.take (clamp offset source.length))
  have hoffset : (ofOffset file source offset).offset = clamp offset source.length :=
    length_take_clamp source offset
  have hstart := getElem?_lineStarts (source.take (clamp offset source.length))
    (source.drop (clamp offset source.length))
  rw [List.take_append_drop, length_take_clamp] at hstart
  have hle := length_lineBefore_le (source.take (clamp offset source.length))
  rw [length_take_clamp] at hle
  constructor
  case file => rfl
  case offset => rw [hoffset, clamp_eq]
  case line =>
    rw [hoffset]
    exact Nat.add_comm _ 1
  case column =>
    rw [hoffset]
    exact ⟨front, line, hsplit, hline, hfront, hlength ▸ Nat.add_comm _ 1⟩
  case start =>
    refine ⟨_, hstart, ?_⟩
    rw [hoffset]
    show _ + ((lineBefore _).length + 1) - 1 = _
    omega

/-- **What stands between two places takes the line or the column further.** -/
theorem past_before (file : String) (before : Bytes) {between : Bytes} (h : between ≠ []) :
    (past file before).Before (past file (before ++ between)) := by
  by_cases hnewline : Byte.newline ∈ between
  · left
    have hcount := List.count_pos_iff.2 hnewline
    simp only [past, List.count_append]
    omega
  · right
    have hpos := List.length_pos_iff.2 h
    have hline : (lineBefore (before ++ between)).length =
        between.length + (lineBefore before).length := by
      rw [lineBefore_append_of_not_mem hnewline, List.length_append, List.length_reverse]
    constructor
    · simp only [past, List.count_append, List.count_eq_zero_of_not_mem hnewline, Nat.add_zero]
    · show (lineBefore before).length + 1 < (lineBefore (before ++ between)).length + 1
      omega

theorem Before.asymm {l l' : Location} (h : l.Before l') : ¬ l'.Before l := by
  unfold Before at *
  omega

theorem not_before_of_same {l l' : Location} (line : l.line = l'.line)
    (column : l.column = l'.column) : ¬ l.Before l' := by
  unfold Before
  omega

variable (file : String) (source : Bytes) {offset later : Int}

theorem ofOffset_before (h : clamp offset source.length < clamp later source.length) :
    (ofOffset file source offset).Before (ofOffset file source later) := by
  have hsplit : source.take (clamp later source.length) =
      source.take (clamp offset source.length) ++
        (source.take (clamp later source.length)).drop (clamp offset source.length) := by
    have htake := List.take_append_drop (clamp offset source.length)
      (source.take (clamp later source.length))
    rw [List.take_take, Nat.min_eq_left (Nat.le_of_lt h)] at htake
    exact htake.symm
  have hbetween : (source.take (clamp later source.length)).drop (clamp offset source.length) ≠
      [] := by
    rw [← List.length_pos_iff, List.length_drop, length_take_clamp]
    omega
  rw [ofOffset, ofOffset, hsplit]
  exact past_before file _ hbetween

/-- **Locations are in the order of the offsets.** -/
theorem ofOffset_before_iff :
    (ofOffset file source offset).Before (ofOffset file source later) ↔
      clamp offset source.length < clamp later source.length := by
  refine ⟨fun h => ?_, ofOffset_before file source⟩
  rcases Nat.lt_trichotomy (clamp offset source.length) (clamp later source.length) with
    hlt | heq | hlt
  · exact hlt
  · have hsame : ofOffset file source offset = ofOffset file source later := by
      rw [ofOffset, ofOffset, heq]
    rw [hsame] at h
    exact absurd h h.asymm
  · exact absurd (ofOffset_before file source hlt) h.asymm

/-- **Locations are exact and in order.** The table of line starts is in increasing order, and the
    location is the same with the table or without it. It tells the offset, moved into the source.
    Of two offsets, the smaller one has the location that comes first, and only equal ones share
    one. -/
theorem ofOffset_exact (offset : Int) :
    (lineStarts source).Pairwise (· < ·) ∧
    ofOffsetStarts file source (lineStarts source) offset = ofOffset file source offset ∧
    (ofOffset file source offset).Tells file source offset ∧
    ∀ later : Int,
      ((ofOffset file source offset).Before (ofOffset file source later) ↔
        max 0 (min offset source.length) < max 0 (min later source.length)) ∧
      ((ofOffset file source offset).line = (ofOffset file source later).line ∧
          (ofOffset file source offset).column = (ofOffset file source later).column ↔
        max 0 (min offset source.length) = max 0 (min later (source.length : Int))) := by
  refine ⟨lineStarts_increasing source, ofOffsetStarts_eq_ofOffset file source offset,
    ofOffset_tells file source offset, fun later => ?_⟩
  rw [← clamp_eq, ← clamp_eq, Int.ofNat_lt, Int.ofNat_inj]
  refine ⟨ofOffset_before_iff file source, ?_⟩
  constructor
  · rintro ⟨hline, hcolumn⟩
    have hnot := not_before_of_same hline hcolumn
    have hnot' := not_before_of_same hline.symm hcolumn.symm
    rw [ofOffset_before_iff] at hnot hnot'
    exact Nat.le_antisymm (Nat.not_lt.1 hnot') (Nat.not_lt.1 hnot)
  · intro h
    rw [ofOffset, ofOffset, h]
    exact ⟨rfl, rfl⟩

end Location

end HoonReader
