import Mathlib.Data.List.Induction
import Mathlib.Data.List.TakeWhile
import HoonReader.Source

/-!
# The two ways to find a location agree

A location is found from the bytes in front of the place, or from the offsets at which the lines of
the source start. `ofOffsetStarts_eq_ofOffset` says that both give the same, so every location in a
source is a matter of the bytes in front of it; what stands behind does not count.

The line starts of a source up to a place are those of the bytes in front of it
(`lineStarts_append`): there is one more of them than there are newlines, and the last of them
lies as far in front of the place as the line has bytes there (`getLast?_lineStarts`).
-/

namespace HoonReader

/-! ## 1. Line starts -/

theorem lineStartsFrom_append (base : Nat) (before behind : Bytes) :
    lineStartsFrom base (before ++ behind) =
      lineStartsFrom base before ++ lineStartsFrom (base + before.length) behind := by
  induction before generalizing base with
  | nil => rfl
  | cons b before ih =>
    have hbase : base + 1 + before.length = base + (b :: before).length := by
      rw [List.length_cons]
      omega
    by_cases hb : b = Byte.newline
    · simp only [List.cons_append, lineStartsFrom, if_pos hb, ih, hbase]
    · simp only [List.cons_append, lineStartsFrom, if_neg hb, ih, hbase]

theorem mem_lineStartsFrom {base start : Nat} {source : Bytes}
    (h : start ∈ lineStartsFrom base source) : base < start ∧ start ≤ base + source.length := by
  induction source generalizing base with
  | nil => cases h
  | cons b rest ih =>
    rw [lineStartsFrom] at h
    rw [List.length_cons]
    split at h
    · rcases List.mem_cons.1 h with rfl | h
      · omega
      · have := ih h
        omega
    · have := ih h
      omega

theorem length_lineStartsFrom (base : Nat) (source : Bytes) :
    (lineStartsFrom base source).length = source.count Byte.newline := by
  induction source generalizing base with
  | nil => rfl
  | cons b rest ih =>
    rw [lineStartsFrom]
    by_cases hb : b = Byte.newline
    · rw [if_pos hb, hb, List.length_cons, ih, List.count_cons_self]
    · rw [if_neg hb, ih, List.count_cons_of_ne hb]

/-- The line starts of a source up to a place are those of the bytes in front of it. -/
theorem lineStarts_append (before behind : Bytes) :
    lineStarts (before ++ behind) = lineStarts before ++ lineStartsFrom before.length behind := by
  rw [lineStarts, lineStarts, lineStartsFrom_append, Nat.zero_add]
  rfl

/-- There is one line start more than there are newlines. -/
theorem length_lineStarts (source : Bytes) :
    (lineStarts source).length = source.count Byte.newline + 1 := by
  rw [lineStarts, List.length_cons, length_lineStartsFrom]

/-- The bytes in front of a place that stand in its line, the last one first. -/
def lineBefore (before : Bytes) : Bytes :=
  before.reverse.takeWhile (· != Byte.newline)

theorem length_lineBefore_le (before : Bytes) : (lineBefore before).length ≤ before.length := by
  have h := (List.takeWhile_sublist (p := (· != Byte.newline)) (l := before.reverse)).length_le
  rwa [List.length_reverse] at h

/-- The line of a place goes back to the last newline. -/
theorem lineBefore_append_of_mem {after : Bytes} (h : Byte.newline ∈ after) (before : Bytes) :
    lineBefore (before ++ after) = lineBefore after := by
  have hstops : ¬ (after.reverse.takeWhile (· != Byte.newline)).length = after.reverse.length := by
    intro hlength
    have hself := (List.takeWhile_sublist _).eq_of_length hlength
    simpa using List.takeWhile_eq_self_iff.1 hself Byte.newline (List.mem_reverse.2 h)
  rw [lineBefore, List.reverse_append, List.takeWhile_append, if_neg hstops]
  rfl

/-- The line of a place goes on in front of what has no newline. -/
theorem lineBefore_append_of_not_mem {after : Bytes} (h : Byte.newline ∉ after) (before : Bytes) :
    lineBefore (before ++ after) = after.reverse ++ lineBefore before := by
  have hpasses : ∀ b ∈ after.reverse, (b != Byte.newline) = true := by
    intro b hb
    have hne : b ≠ Byte.newline := fun e => h (e ▸ List.mem_reverse.1 hb)
    simpa using hne
  rw [lineBefore, List.reverse_append, List.takeWhile_append_of_pos hpasses]
  rfl

/-- **The line of a place starts as far in front of it as the line has bytes there.** -/
theorem getLast?_lineStarts (before : Bytes) :
    (lineStarts before).getLast? = some (before.length - (lineBefore before).length) := by
  induction before using List.reverseRecOn with
  | nil => rfl
  | append_singleton before b ih =>
    have hsplit := lineStarts_append before [b]
    have hle := length_lineBefore_le before
    by_cases hb : b = Byte.newline
    · have hline : lineBefore (before ++ [b]) = [] := by
        rw [lineBefore_append_of_mem (by simp [hb]), hb]
        rfl
      rw [hsplit, hline]
      simp [lineStartsFrom, hb]
    · have hline : lineBefore (before ++ [b]) = b :: lineBefore before :=
        lineBefore_append_of_not_mem (by simpa using Ne.symm hb) before
      rw [hsplit, hline]
      simp only [lineStartsFrom, if_neg hb, List.append_nil, ih, List.length_append,
        List.length_cons, List.length_nil, Option.some.injEq]
      omega

/-- The start of the line of a place is found in the table by the number of the line. -/
theorem getElem?_lineStarts (before behind : Bytes) :
    (lineStarts (before ++ behind))[before.count Byte.newline]? =
      some (before.length - (lineBefore before).length) := by
  have hlength := length_lineStarts before
  have hlast := getLast?_lineStarts before
  rw [List.getLast?_eq_getElem?, hlength, Nat.add_sub_cancel] at hlast
  rw [lineStarts_append, List.getElem?_append_left (by omega), hlast]

/-! ## 2. Locations -/

/-- An offset within the source is its own nearest one. -/
theorem clamp_of_le {offset length : Nat} (h : offset ≤ length) : clamp offset length = offset := by
  unfold clamp
  omega

theorem length_take_clamp (source : Bytes) (offset : Int) :
    (source.take (clamp offset source.length)).length = clamp offset source.length := by
  rw [List.length_take]
  unfold clamp
  omega

namespace Location

theorem ofStarts_append (file : String) (before behind : Bytes) :
    ofStarts file (lineStarts (before ++ behind)) before.length = past file before := by
  have hfront : (lineStarts before).countP (· ≤ before.length) = (lineStarts before).length := by
    rw [List.countP_eq_length]
    intro start hstart
    rcases List.mem_cons.1 hstart with rfl | h
    · simp
    · simpa using (mem_lineStartsFrom h).2
  have hbehind : (lineStartsFrom before.length behind).countP (· ≤ before.length) = 0 := by
    rw [List.countP_eq_zero]
    intro start hstart
    simpa using (mem_lineStartsFrom hstart).1
  have hline : (lineStarts (before ++ behind)).countP (· ≤ before.length) =
      before.count Byte.newline + 1 := by
    rw [lineStarts_append, List.countP_append, hfront, hbehind, length_lineStarts, Nat.add_zero]
  have hle := length_lineBefore_le before
  simp only [ofStarts, past, hline, Nat.add_sub_cancel, getElem?_lineStarts, Option.getD_some,
    mk.injEq, true_and, and_true]
  show before.length - (before.length - (lineBefore before).length) + 1 =
    (lineBefore before).length + 1
  omega

/-- **The location from the line starts is the one from the bytes in front.** -/
theorem ofOffsetStarts_eq_ofOffset (file : String) (source : Bytes) (offset : Int) :
    ofOffsetStarts file source (lineStarts source) offset = ofOffset file source offset := by
  have h := ofStarts_append file (source.take (clamp offset source.length))
    (source.drop (clamp offset source.length))
  rw [List.take_append_drop, length_take_clamp] at h
  exact h

/-- What stands behind a place does not change its location. -/
theorem ofOffset_append (file : String) (source behind : Bytes) {offset : Nat}
    (h : offset ≤ source.length) :
    ofOffset file (source ++ behind) offset = ofOffset file source offset := by
  have hmore : offset ≤ (source ++ behind).length := by
    rw [List.length_append]
    exact Nat.le_add_right_of_le h
  rw [ofOffset, ofOffset, clamp_of_le h, clamp_of_le hmore, List.take_append_of_le_length h]

/-- The location behind the bytes in front of a place is the one of their number. -/
theorem ofOffset_length (file : String) (before behind : Bytes) :
    ofOffset file (before ++ behind) before.length = past file before := by
  rw [ofOffset_append file before behind (Nat.le_refl _), ofOffset, clamp_of_le (Nat.le_refl _),
    List.take_length]

end Location

/-- The location that a source gives does not depend on how it is found. -/
theorem Source.locationFrom_eq (s : Source) (offset : Int) :
    s.locationFrom (lineStarts s.bytes) offset = s.location offset :=
  Location.ofOffsetStarts_eq_ofOffset s.file s.bytes offset

end HoonReader
