import HoonReader.Proofs.Document
import HoonReader.Proofs.Gap

/-!
# A gap is the longest text of pieces

The reader of a gap takes one piece after the other, each as long as it can. A text can be cut into
pieces in many ways, and one that is cut badly gets stuck early; this file shows that the reader
never does. It ends where the longest text of pieces ends, and the bytes behind that text alone
decide what happens there.

* `Farthest`: the place behind the longest text of pieces;
* `gapPiece_farther`: no text of pieces ends inside of what the reader takes for one piece and goes
  on from there;
* `gapPieces_farthest`: so reading pieces ends at the farthest place, with what `PiecesEnd` lists;
* `Source.gapAt_longest`: the same for a gap at an offset of a source.
-/

namespace HoonReader

variable {input rest mid other behind : Bytes} {f : Failure}

/-! ## 1. How far pieces lead -/

/-- A text of pieces leads from one place to the other. -/
def PiecesTo (input rest : Bytes) : Prop :=
  ∃ text, ArePieces text ∧ input = text ++ rest

/-- The place behind the longest text of pieces that stands at the input. -/
structure Farthest (input rest : Bytes) : Prop where
  reached : PiecesTo input rest
  least : ∀ other, PiecesTo input other → rest.length ≤ other.length

theorem PiecesTo.refl (input : Bytes) : PiecesTo input input :=
  ⟨[], .nil, rfl⟩

theorem PiecesTo.cons {piece : Bytes} (first : IsPiece piece) (h : PiecesTo mid rest) :
    PiecesTo (piece ++ mid) rest := by
  obtain ⟨text, htext, rfl⟩ := h
  exact ⟨piece ++ text, .cons first htext, (List.append_assoc ..).symm⟩

/-- **Pieces at a run of blanks end in the run, or have all of it in front.** If they end in it,
    they are a part of it that is long. -/
theorem PiecesTo.of_blanks {run : Bytes} (blank : ∀ b ∈ run, isBlank b = true)
    (ends : BlanksEnd rest) (h : PiecesTo (run ++ rest) other) :
    (∃ part left, run = part ++ left ∧ other = left ++ rest ∧
      (part = [] ∨ longWeight ≤ weight part)) ∨
    ((run = [] ∨ longWeight ≤ weight run) ∧ standsAt Tag.comment rest = true ∧
      PiecesTo rest other) := by
  obtain ⟨text, htext, hsplit⟩ := h
  obtain ⟨part, more, rfl, hblank, hlong, hmore, hnext⟩ := htext.split
  rcases hnext with rfl | ⟨body, tail, -, -, hcomment⟩
  · rw [List.append_nil] at hsplit
    have hrun : (part ++ other).takeWhile isBlank = run := by
      rw [← hsplit, takeWhile_blanks blank ends]
    rw [List.takeWhile_append_of_pos hblank] at hrun
    refine .inl ⟨part, other.takeWhile isBlank, hrun.symm, ?_, hlong⟩
    rw [← hrun, List.append_assoc, List.append_cancel_left_eq] at hsplit
    exact hsplit.symm
  · -- the blanks in front of a comment are all that there are
    have hstands : more ++ other = Tag.comment ++ (body ++ Tag.newline ++ tail ++ other) := by
      rw [hcomment]
      simp
    have hends : BlanksEnd (more ++ other) := hstands ▸ (comment_ends_blanks _).1
    have hrun : part = run := by
      rw [← takeWhile_blanks hblank hends, ← takeWhile_blanks blank ends, hsplit,
        List.append_assoc]
    rw [hrun, List.append_assoc, List.append_cancel_left_eq] at hsplit
    exact .inr ⟨hrun ▸ hlong, standsAt_iff.2 ⟨_, hsplit.trans hstands⟩, more, hmore, hsplit⟩

/-- Pieces where a comment begins are none, or have the comment in front. -/
theorem PiecesTo.of_comment {body : Bytes} (h : PiecesTo (Tag.comment ++ body) other) :
    other = Tag.comment ++ body ∨ ∃ inside after, Byte.newline ∉ inside ∧ PiecesTo after other ∧
      body = inside ++ Tag.newline ++ after := by
  obtain ⟨text, htext, hsplit⟩ := h
  obtain ⟨run, more, rfl, hblank, -, -, hnext⟩ := htext.split
  have hrun : run = [] := by
    cases run with
    | nil => rfl
    | cons b run =>
      have hb : b = Byte.colon := (List.cons.inj hsplit).1.symm
      have hcolon := hblank b List.mem_cons_self
      rw [hb] at hcolon
      exact absurd hcolon (by decide)
  subst hrun
  rcases hnext with rfl | ⟨inside, tail, hinside, htail, rfl⟩
  · exact .inl hsplit.symm
  · refine .inr ⟨inside, tail ++ other, hinside, ⟨tail, htail, rfl⟩, ?_⟩
    simpa using hsplit

/-! ## 2. One piece of the reader -/

/-- **No text of pieces is cut so that it goes on inside of a piece of the reader.** -/
theorem gapPiece_farther (h : gapPiece input = .ok mid) (hother : PiecesTo input other) :
    mid.length ≤ other.length ∨ PiecesTo mid other := by
  cases gapPiece_eq_iff.1 h with
  | @comment body mid inside text =>
    have hbody : input = Tag.comment ++ (body ++ Tag.newline ++ mid) := by
      rw [text]
      simp
    rw [hbody] at hother
    rcases hother.of_comment with rfl | ⟨inside', after, hinside', hafter, hsame⟩
    · refine .inl ?_
      simp only [List.length_append]
      omega
    · have hread := comment_closed inside mid
      have hread' := comment_closed hinside' after
      rw [← text, hbody, hsame] at hread
      have hsplit : Tag.comment ++ inside' ++ Tag.newline ++ after =
          Tag.comment ++ (inside' ++ Tag.newline ++ after) := by simp
      rw [hsplit, hread] at hread'
      cases hread'
      exact .inr hafter
  | @blanks run mid blank ends tab long text =>
    rw [text] at hother
    rcases hother.of_blanks blank ends with ⟨part, left, -, rfl, -⟩ | ⟨-, -, hmid⟩
    · refine .inl ?_
      rw [List.length_append]
      omega
    · exact .inr hmid

/-! ## 3. Reading pieces -/

/-- What reading pieces gives, by what stands at the farthest place. -/
inductive PiecesEnd (rest : Bytes) : Except Failure Bytes → Prop where
  /-- A tab, blanks in front of it or not. -/
  | tab {run behind : Bytes} (blank : ∀ b ∈ run, isBlank b = true)
      (text : rest = run ++ Byte.tab :: behind) :
      PiecesEnd rest (.error (.of .tab (Byte.tab :: behind)))
  /-- A comment; it is not closed, or it would not be the farthest place. -/
  | openComment (stands : standsAt Tag.comment rest = true) :
      PiecesEnd rest (.error (Failure.of .openComment rest).commit)
  /-- Anything else. -/
  | ends (noTab : ∀ run behind, (∀ b ∈ run, isBlank b = true) → rest ≠ run ++ Byte.tab :: behind)
      (noComment : standsAt Tag.comment rest = false) : PiecesEnd rest (.ok rest)

/-- Behind blanks that end without a tab there is none to be found. -/
theorem no_tab_behind {run : Bytes} (blank : ∀ b ∈ run, isBlank b = true) (ends : BlanksEnd rest)
    (tab : rest.head? ≠ some Byte.tab) {run' : Bytes} (blank' : ∀ b ∈ run', isBlank b = true)
    (behind : Bytes) : run ++ rest ≠ run' ++ Byte.tab :: behind := by
  intro hsplit
  have hrest : rest = Byte.tab :: behind := by
    rw [← dropWhile_blanks blank ends, hsplit, dropWhile_blanks blank' (blanksEnd_tab behind)]
  rw [hrest] at tab
  exact tab rfl

theorem PiecesEnd.of_tab {out : Except Failure Bytes} (h : PiecesEnd rest out) {run : Bytes}
    (blank : ∀ b ∈ run, isBlank b = true) (text : rest = run ++ Byte.tab :: behind) :
    out = .error (.of .tab (Byte.tab :: behind)) := by
  cases h with
  | @tab run' behind' blank' text' =>
    have hsame : Byte.tab :: behind' = Byte.tab :: behind := by
      rw [← dropWhile_blanks blank (blanksEnd_tab behind), ← text, text',
        dropWhile_blanks blank' (blanksEnd_tab behind')]
    rw [hsame]
  | openComment stands =>
    rw [text, not_comment_of_tab blank] at stands
    cases stands
  | ends noTab noComment => exact absurd text (noTab run behind blank)

theorem PiecesEnd.of_comment {out : Except Failure Bytes} (h : PiecesEnd rest out)
    (stands : standsAt Tag.comment rest = true) :
    out = .error (Failure.of .openComment rest).commit := by
  cases h with
  | tab blank text =>
    rw [text, not_comment_of_tab blank] at stands
    cases stands
  | openComment _ => rfl
  | ends noTab noComment =>
    rw [noComment] at stands
    cases stands

theorem Farthest.of_stuck (h : ∀ other, PiecesTo input other → other = input) :
    Farthest input input :=
  ⟨.refl input, fun other hother => by rw [h other hother]⟩

/-- No pieces stand where there are too few blanks and no comment. -/
theorem PiecesTo.of_light {run : Bytes} (blank : ∀ b ∈ run, isBlank b = true)
    (ends : BlanksEnd rest) (light : weight run < longWeight)
    (noComment : standsAt Tag.comment (run ++ rest) = false) (h : PiecesTo (run ++ rest) other) :
    other = run ++ rest := by
  rcases h.of_blanks blank ends with ⟨part, left, rfl, rfl, rfl | long⟩ | ⟨rfl | long, hcomment, -⟩
  · rfl
  · rw [weight_append] at light
    exact absurd long (by omega)
  · rw [List.nil_append, hcomment] at noComment
    cases noComment
  · exact absurd long (by omega)

/-- **Where no piece is read, none stands**, but for enough blanks in front of a tab. -/
theorem gapPiece_error_farthest (h : gapPiece input = .error f) :
    ∃ rest, Farthest input rest ∧
      PiecesEnd rest (if f.committed then .error f else .ok input) := by
  cases gapPiece_eq_iff.1 h with
  | @openComment body inside text =>
    refine ⟨input, .of_stuck fun other hother => ?_, .openComment (standsAt_iff.2 ⟨body, text⟩)⟩
    rw [text] at hother ⊢
    rcases hother.of_comment with hstays | ⟨inside', after, -, -, hsame⟩
    · exact hstays
    · rw [hsame] at inside
      exact absurd (by simp [Tag.newline]) inside
  | @tab run behind blank text =>
    by_cases long : longWeight ≤ weight run
    · have hrun : ∀ b ∈ ([] : Bytes), isBlank b = true := by simp
      have hreached : PiecesTo input (Byte.tab :: behind) :=
        ⟨run, (IsPiece.blanks blank long).arePieces, text⟩
      refine ⟨Byte.tab :: behind, ⟨hreached, fun other hother => ?_⟩, .tab hrun rfl⟩
      rw [text] at hother
      rcases hother.of_blanks blank (blanksEnd_tab behind) with
        ⟨part, left, -, rfl, -⟩ | ⟨-, hcomment, -⟩
      · rw [List.length_append]
        omega
      · rw [not_comment_of_ne (by decide)] at hcomment
        cases hcomment
    · refine ⟨input, .of_stuck fun other hother => ?_, .tab blank text⟩
      rw [text] at hother ⊢
      exact hother.of_light blank (blanksEnd_tab behind) (by omega) (not_comment_of_tab blank behind)
  | @light run behind blank ends tab light noComment text =>
    refine ⟨input, .of_stuck fun other hother => ?_, .ends ?_ noComment⟩
    · rw [text] at hother noComment ⊢
      exact hother.of_light blank ends light noComment
    · rw [text]
      exact fun run' behind' blank' => no_tab_behind blank ends tab blank' behind'

theorem Farthest.of_piece (h : gapPiece input = .ok mid) (hfar : Farthest mid rest) :
    Farthest input rest := by
  obtain ⟨piece, hpiece, hsplit⟩ := (gapPiece_eq_iff.1 h).isPiece
  refine ⟨hsplit ▸ hfar.reached.cons hpiece, fun other hother => ?_⟩
  rcases gapPiece_farther h hother with hle | hmid
  · exact Nat.le_trans (hfar.least mid (.refl mid)) hle
  · exact hfar.least other hmid

/-- **Reading pieces ends at the farthest place**, and what stands there decides what it gives. -/
theorem gapPieces_farthest (input : Bytes) :
    ∃ rest, Farthest input rest ∧ PiecesEnd rest (gapPieces input) := by
  fun_induction gapPieces input with
  | case1 input mid hpiece ih =>
    obtain ⟨rest, hfar, hend⟩ := ih
    exact ⟨rest, hfar.of_piece hpiece, hend⟩
  | case2 input f hpiece hc =>
    have hstuck := gapPiece_error_farthest hpiece
    rwa [if_pos hc] at hstuck
  | case3 input f hpiece hc =>
    have hstuck := gapPiece_error_farthest hpiece
    rwa [if_neg hc] at hstuck

/-- A gap is its pieces, except that there must be one. -/
theorem gap_eq (input : Bytes) :
    gap input =
      match gapPieces input with
      | .ok rest => if rest = input then .error (.of .whitespace input) else .ok rest
      | .error f => .error f := by
  cases hpiece : gapPiece input with
  | ok mid =>
    rw [gap_eq_gapPieces hpiece]
    cases hpieces : gapPieces input with
    | error f => rfl
    | ok rest =>
      have hne : rest ≠ input := by
        rintro rfl
        rw [gapPieces_ok hpiece] at hpieces
        obtain ⟨text, -, hmid⟩ := gapPieces_sound hpieces
        have hlt := gapPiece_length hpiece
        rw [hmid, List.length_append] at hlt
        omega
      exact (if_neg hne).symm
  | error f =>
    rw [gap_error hpiece, gapPieces_error hpiece]
    by_cases hc : f.committed = true
    · rw [if_pos hc]
    · rw [if_neg hc, (gapPiece_eq_iff.1 hpiece).of_uncommitted (by simpa using hc)]
      exact (if_pos rfl).symm

/-! ## 4. Gaps of a source -/

namespace Source

variable {s : Source} {start stop tab : Nat}

/-- The bytes between the offsets are made of pieces of a gap, and those up to no farther offset
    are. -/
structure PiecesReach (s : Source) (start stop : Nat) : Prop where
  forward : start ≤ stop
  inside : stop ≤ s.bytes.length
  pieces : ArePieces ((s.remaining start).take (stop - start))
  farthest : ∀ other, start ≤ other → other ≤ s.bytes.length →
    ArePieces ((s.remaining start).take (other - start)) → other ≤ stop

/-- A tab stands at the second offset, and nothing but blanks between the first one and it. -/
structure TabBehind (s : Source) (stop tab : Nat) : Prop where
  forward : stop ≤ tab
  blank : ∀ b ∈ (s.remaining stop).take (tab - stop), isBlank b = true
  stands : s.byteAt? tab = some Byte.tab

theorem piecesTo_iff (h : start ≤ stop) (inside : stop ≤ s.bytes.length) :
    PiecesTo (s.remaining start) (s.remaining stop) ↔
      ArePieces ((s.remaining start).take (stop - start)) := by
  constructor
  · intro hpieces
    obtain ⟨text, htext, hsplit⟩ := hpieces
    have hlength := congrArg List.length hsplit
    rw [List.length_append, length_remaining, length_remaining] at hlength
    have htake : stop - start = text.length := by omega
    rwa [hsplit, htake, List.take_left]
  · exact fun hpieces => ⟨_, hpieces, s.remaining_split h⟩

/-- The farthest place is left at the one offset that pieces reach. -/
theorem piecesReach_iff (h : start ≤ stop) (inside : stop ≤ s.bytes.length)
    (hfar : Farthest (s.remaining start) (s.remaining stop)) (other : Nat) :
    s.PiecesReach start other ↔ other = stop := by
  have hle : ∀ other, start ≤ other → other ≤ s.bytes.length →
      ArePieces ((s.remaining start).take (other - start)) → other ≤ stop := by
    intro other hforward hinside hpieces
    have hleast := hfar.least _ ((piecesTo_iff hforward hinside).2 hpieces)
    rw [length_remaining, length_remaining] at hleast
    omega
  have hpieces := (piecesTo_iff h inside).1 hfar.reached
  constructor
  · intro hreach
    exact Nat.le_antisymm (hle other hreach.forward hreach.inside hreach.pieces)
      (hreach.farthest stop h inside hpieces)
  · rintro rfl
    exact ⟨h, inside, hpieces, hle⟩

theorem tabBehind_iff :
    s.TabBehind stop tab ↔ ∃ run behind, (∀ b ∈ run, isBlank b = true) ∧
      s.remaining stop = run ++ Byte.tab :: behind ∧ tab = stop + run.length := by
  constructor
  · intro h
    obtain ⟨hforward, hblank, hstands⟩ := h
    obtain ⟨behind, hbehind⟩ := byteAt?_eq_some_iff.1 hstands
    have hlength := congrArg List.length hbehind
    rw [length_remaining, List.length_cons] at hlength
    refine ⟨_, behind, hblank, ?_, ?_⟩
    · rw [← hbehind]
      exact s.remaining_split hforward
    · rw [List.length_take, length_remaining]
      omega
  · intro h
    obtain ⟨run, behind, hblank, hsplit, rfl⟩ := h
    refine ⟨Nat.le_add_right _ _, ?_, byteAt?_eq_some_iff.2 ⟨behind, remaining_append hsplit⟩⟩
    rwa [hsplit, Nat.add_sub_cancel_left, List.take_left]

theorem reportOf_remaining (cause : Cause) (committed : Bool) (h : start ≤ stop)
    (inside : stop ≤ s.bytes.length) :
    s.reportOf start ⟨cause, committed, s.remaining stop⟩ = s.report cause committed stop := by
  rw [reportOf, offsetOf_remaining h inside]

theorem gapAt_of_error {f : Failure} (h : gapPieces (s.remaining start) = .error f) :
    s.gapAt start = .error (s.reportOf start f) := by
  rw [gapAt_eq, skip, gap_eq, h]

theorem gapAt_of_ok (hforward : start ≤ stop) (inside : stop ≤ s.bytes.length)
    (h : gapPieces (s.remaining start) = .ok (s.remaining stop)) :
    s.gapAt start =
      if start < stop then .ok stop else .error (s.report .whitespace false start) := by
  have hsame : s.remaining stop = s.remaining start ↔ ¬ start < stop := by
    constructor
    · intro heq
      have hlength := congrArg List.length heq
      rw [length_remaining, length_remaining] at hlength
      omega
    · intro hle
      rw [Nat.le_antisymm hforward (Nat.not_lt.1 hle)]
  rw [gapAt_eq, skip, gap_eq, h]
  by_cases hlt : start < stop
  · simp only [if_pos hlt, if_neg (mt hsame.1 (not_not.2 hlt)), offsetOf_remaining hforward inside]
  · simp only [if_neg hlt, if_pos (hsame.2 hlt)]
    exact congrArg Except.error (reportOf_remaining .whitespace false (Nat.le_refl _)
      (Nat.le_trans hforward inside))

/-- **A gap is the longest text of pieces.** One offset is the farthest that pieces of a gap reach.
    A tab there, or with nothing but blanks in front of it, is a committed failure at the tab; a
    comment there, which then is not closed, is one at the comment; otherwise the gap ends there,
    or, if that is where it begins, blanks are missing and the failure is not committed. -/
theorem gapAt_longest (s : Source) {start : Nat} (h : start ≤ s.bytes.length) :
    ∃ stop, (∀ other, s.PiecesReach start other ↔ other = stop) ∧
      (∀ tab, s.TabBehind stop tab → s.gapAt start = .error (s.report .tab true tab)) ∧
      (s.hasTagAt Tag.comment stop = true →
        s.gapAt start = .error (s.report .openComment true stop)) ∧
      ((∀ tab, ¬ s.TabBehind stop tab) → s.hasTagAt Tag.comment stop = false →
        s.gapAt start =
          if start < stop then .ok stop else .error (s.report .whitespace false start)) := by
  obtain ⟨rest, hfar, hend⟩ := gapPieces_farthest (s.remaining start)
  obtain ⟨stop, hforward, hinside, rfl⟩ : ∃ stop, start ≤ stop ∧ stop ≤ s.bytes.length ∧
      s.remaining stop = rest := by
    obtain ⟨text, -, hsplit⟩ := hfar.reached
    have hlength := congrArg List.length hsplit
    rw [length_remaining, List.length_append] at hlength
    exact ⟨start + text.length, Nat.le_add_right _ _, by omega, remaining_append hsplit⟩
  have hcomment : s.hasTagAt Tag.comment stop = standsAt Tag.comment (s.remaining stop) :=
    hasTagAt_eq (by decide)
  refine ⟨stop, piecesReach_iff hforward hinside hfar, fun tab htab => ?_, fun hstands => ?_,
    fun hnoTab hnone => ?_⟩
  · obtain ⟨run, behind, hblank, hsplit, rfl⟩ := tabBehind_iff.1 htab
    have hlength := congrArg List.length hsplit
    rw [length_remaining, List.length_append, List.length_cons] at hlength
    rw [gapAt_of_error (hend.of_tab hblank hsplit), ← remaining_append hsplit]
    exact congrArg Except.error (reportOf_remaining .tab true (by omega) (by omega))
  · rw [gapAt_of_error (hend.of_comment (hcomment ▸ hstands))]
    exact congrArg Except.error (reportOf_remaining .openComment true hforward hinside)
  · refine gapAt_of_ok hforward hinside ?_
    generalize gapPieces (s.remaining start) = out at hend
    cases hend with
    | tab blank text => exact absurd (tabBehind_iff.2 ⟨_, _, blank, text, rfl⟩) (hnoTab _)
    | openComment stands =>
      rw [hcomment, stands] at hnone
      cases hnone
    | ends => rfl

/-- Two blanks, a comment with a tab in it, and a single blank in front of a tab. -/
def spoiledGap : Source :=
  ⟨ascii ['7', ' ', ' ', ':', ':', '\t', '\n', ' ', '\t'], unknownFile⟩

theorem gapAt_longest_spoiledGap :
    1 ≤ spoiledGap.bytes.length ∧ spoiledGap.PiecesReach 1 7 ∧ spoiledGap.TabBehind 7 8 ∧
      spoiledGap.gapAt 1 = .error (spoiledGap.report .tab true 8) := by
  have hstart : 1 ≤ spoiledGap.bytes.length := by decide
  have htab : spoiledGap.TabBehind 7 8 :=
    ⟨by decide, List.all_eq_true.1 (by decide), by decide⟩
  obtain ⟨stop, honly, hspoiled, -⟩ := gapAt_longest spoiledGap hstart
  have hreach : spoiledGap.PiecesReach 1 stop := (honly stop).2 rfl
  have hblanks : IsPiece (ascii [' ', ' ']) :=
    .blanks (List.all_eq_true.1 (by decide)) (by decide)
  have hcomment : IsPiece (Tag.comment ++ ascii ['\t'] ++ Tag.newline) := .comment (by decide)
  have hpieces : ArePieces ((spoiledGap.remaining 1).take (7 - 1)) :=
    .cons hblanks (.cons hcomment .nil)
  have hsolid : Solid (ascii ['7']) := ⟨0x37, [], rfl, by decide⟩
  have hstop : stop = 7 := by
    have hfar := hreach.farthest 7 (by decide) (by decide) hpieces
    have hinside : stop ≤ 9 := hreach.inside
    obtain rfl | rfl | rfl : stop = 7 ∨ stop = 8 ∨ stop = 9 := by omega
    · rfl
    · exact absurd (gapPieces_complete hreach.pieces hsolid) (by decide +kernel)
    · exact absurd (gapPieces_complete hreach.pieces hsolid) (by decide +kernel)
  subst hstop
  exact ⟨hstart, hreach, htab, hspoiled 8 htab⟩

end Source

end HoonReader
