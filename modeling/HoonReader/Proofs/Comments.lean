import HoonReader.Proofs.Appending
import HoonReader.Proofs.Lockstep

/-!
# The text of a comment does not matter

Take two colons, a text without a newline, and a newline, wherever they stand in a document. What
the reader does there does not depend on the text: it never looks into it. The colons need not even
open a comment; they may stand in another one, behind what was read or failed, or the first of them
may be the second half of a glyph. In that last case the reader looks at the byte behind the colons,
and this is why the text must not begin with a colon.

* `commented`, `Beside`: a place goes with another one in front of the text, between the colons, or
  behind the newline, and nowhere else;
* `exists_pieceInFront`: how a piece of a gap is read in front of the text, for all texts at once;
* `Document.parse_commented`: two documents that differ only in the text of a comment have the same
  outcome, on the same lines and columns.
-/

namespace HoonReader

open Twig

/-! ## 1. Places beside the text of a comment -/

/-- The bytes with a comment between them. -/
def commented (before text behind : Bytes) : Bytes :=
  before ++ Tag.comment ++ text ++ Tag.newline ++ behind

/-- What can stand behind the colons as the text of a comment. -/
structure IsCommentText (text : Bytes) : Prop where
  line : Byte.newline ∉ text
  /-- The colons are the first two of their kind. -/
  apart : text.head? ≠ some Byte.colon

/-- What is left beside the text of a comment, for one text and for another. -/
inductive Beside (before text text' behind : Bytes) : Bytes → Bytes → Prop where
  /-- In front of the colons. -/
  | front {rest : Bytes} (suffix : rest <:+ before) :
      Beside before text text' behind (commented rest text behind) (commented rest text' behind)
  /-- Between the colons. -/
  | between : Beside before text text' behind (Byte.colon :: text ++ Tag.newline ++ behind)
      (Byte.colon :: text' ++ Tag.newline ++ behind)
  /-- Behind the newline. -/
  | behind {rest : Bytes} (suffix : rest <:+ behind) : Beside before text text' behind rest rest

theorem commented_append (a b text behind : Bytes) :
    commented (a ++ b) text behind = a ++ commented b text behind := by
  simp [commented]

theorem commented_eq (before text behind : Bytes) :
    commented before text behind = before ++ Tag.comment ++ (text ++ Tag.newline ++ behind) := by
  simp [commented]

theorem length_commented (before text behind : Bytes) :
    (commented before text behind).length =
      before.length + 2 + text.length + 1 + behind.length := by
  rw [commented, List.length_append, List.length_append, List.length_append, List.length_append]
  rfl

/-- Whether a short tag stands in front of the text is settled by the colons. -/
theorem standsAt_commented {tag : Bytes} (short : tag.length ≤ 2) (rest text behind : Bytes) :
    standsAt tag (commented rest text behind) = standsAt tag (rest ++ Tag.comment) := by
  have hlength : tag.length ≤ (rest ++ Tag.comment).length := by
    rw [List.length_append]
    exact Nat.le_add_left_of_le short
  rw [commented_eq, standsAt_append hlength]

theorem head?_commented (rest text text' behind : Bytes) :
    (commented rest text' behind).head? = (commented rest text behind).head? := by
  cases rest <;> rfl

theorem digitStands_commented {rest : Bytes} (h : digitStands rest = false) (text behind : Bytes) :
    digitStands (commented rest text behind) = false := by
  cases rest with
  | nil => rfl
  | cons b rest => exact h

/-- What ends a run of blanks in front of the text is no blank, and is a tab only if it was one. -/
theorem BlanksEnd.commented {rest : Bytes} (h : BlanksEnd rest) (text behind : Bytes) :
    BlanksEnd (commented rest text behind) ∧
      (rest.head? ≠ some Byte.tab → (commented rest text behind).head? ≠ some Byte.tab) := by
  cases rest with
  | nil =>
    refine ⟨?_, fun _ => ?_⟩
    · intro b hb
      cases hb
      rfl
    · show some Byte.colon ≠ some Byte.tab
      decide
  | cons b rest => exact ⟨h, id⟩

/-! ## 2. Tags and digits beside the text -/

theorem Tag.short : ∀ tag ∈ Tag.ofExpressions,
    tag.length ≤ 2 ∧ tag ≠ [] ∧ tag.head? ≠ some Byte.colon := by
  decide

/-- No tag of an expression begins with a colon. -/
theorem not_standsAt_colon {tag : Bytes} (htag : tag ∈ Tag.ofExpressions) (rest : Bytes) :
    standsAt tag (Byte.colon :: rest) = false := by
  obtain ⟨-, hne, hcolon⟩ := Tag.short tag htag
  cases tag with
  | nil => exact absurd rfl hne
  | cons t tag =>
    have ht : t ≠ Byte.colon := fun e => hcolon (congrArg some e)
    simp [standsAt, after?, ht]

/-- A tag of an expression that begins in front of the colons ends in front of them or between
    them. -/
theorem Tag.ends_between {tag rest c : Bytes} (htag : tag ∈ Tag.ofExpressions)
    (hsplit : tag = rest ++ c) {a : Bytes} (hcolons : Tag.comment = c ++ a) :
    c = [] ∨ c = [Byte.colon] := by
  obtain ⟨hshort, -, hcolon⟩ := Tag.short tag htag
  match c, hcolons with
  | [], _ => exact .inl rfl
  | [x], hcolons =>
    obtain ⟨rfl, -⟩ := List.cons.inj hcolons
    exact .inr rfl
  | x :: y :: c, hcolons =>
    -- both colons would fill the tag, which would begin with one
    obtain ⟨rfl, -⟩ := List.cons.inj hcolons
    rw [hsplit, List.length_append, List.length_cons, List.length_cons] at hshort
    have hrest : rest = [] := List.eq_nil_of_length_eq_zero (by omega)
    rw [hsplit, hrest] at hcolon
    exact absurd rfl hcolon

section Beside

variable {before text text' behind : Bytes}

theorem Beside.tag {tag input input' : Bytes} (htag : tag ∈ Tag.ofExpressions)
    (h : Beside before text text' behind input input') :
    Tag.Alike (Beside before text text' behind) tag input input' := by
  obtain ⟨hshort, -, -⟩ := Tag.short tag htag
  cases h with
  | @front rest suffix =>
    rcases standsAt_cases tag (rest ++ Tag.comment) with ⟨a, ha⟩ | hnone
    · have hinside : ∀ more, rest = tag ++ more →
          Tag.Alike (Beside before text text' behind) tag (commented rest text behind)
            (commented rest text' behind) := by
        rintro more rfl
        refine .inl ⟨_, _, commented_append .., commented_append .., ?_⟩
        exact .front ((List.suffix_append tag more).trans suffix)
      rcases List.append_eq_append_iff.1 ha with ⟨c, htext, hcolons⟩ | ⟨more, hrest, -⟩
      · rcases Tag.ends_between htag htext hcolons with rfl | rfl
        · exact hinside [] (by rw [htext, List.append_nil, List.append_nil])
        · refine .inl ⟨_, _, ?_, ?_, .between⟩
          · rw [htext]
            simp [commented, Tag.comment, ascii]
          · rw [htext]
            simp [commented, Tag.comment, ascii]
      · exact hinside more hrest
    · exact .inr ⟨(standsAt_commented hshort ..).trans hnone,
        (standsAt_commented hshort ..).trans hnone⟩
  | between => exact .inr ⟨not_standsAt_colon htag _, not_standsAt_colon htag _⟩
  | behind suffix =>
    refine .self fun rest hrest => .behind ?_
    exact List.IsSuffix.trans ⟨tag, hrest.symm⟩ suffix

theorem Beside.digits {input input' : Bytes} (h : Beside before text text' behind input input') :
    input'.takeWhile isDigit = input.takeWhile isDigit ∧
      Beside before text text' behind (input.dropWhile isDigit) (input'.dropWhile isDigit) := by
  cases h with
  | @front rest suffix =>
    obtain ⟨hsplit, hdigits, hend⟩ := splits_digits rest
    have hrun : ∀ body, (commented rest body behind).takeWhile isDigit = rest.takeWhile isDigit ∧
        (commented rest body behind).dropWhile isDigit =
          commented (rest.dropWhile isDigit) body behind := by
      intro body
      have htake := takeWhile_digits hdigits (digitStands_commented hend body behind)
      rwa [← commented_append, ← hsplit] at htake
    rw [(hrun text).1, (hrun text).2, (hrun text').1, (hrun text').2]
    exact ⟨rfl, .front ((List.dropWhile_suffix isDigit).trans suffix)⟩
  | between => exact ⟨rfl, .between⟩
  | behind suffix => exact ⟨rfl, .behind ((List.dropWhile_suffix isDigit).trans suffix)⟩

end Beside

/-! ## 3. Gaps beside the text -/

/-- What reading a piece of a gap gives in front of a comment, for any text of the comment. -/
inductive PieceInFront (rest behind : Bytes) : (Bytes → Except Failure Bytes) → Prop where
  /-- The piece ends in front of the comment. -/
  | stays {more : Bytes} (suffix : more <:+ rest) :
      PieceInFront rest behind fun text => .ok (commented more text behind)
  /-- The piece is a comment that takes the text with it. -/
  | passes : PieceInFront rest behind fun _ => .ok behind
  /-- Reading the piece fails in front of the comment. -/
  | fails (cause : Cause) {more : Bytes} (suffix : more <:+ rest) :
      PieceInFront rest behind fun text => .error (.of cause (commented more text behind))

/-- A comment that begins in front of the text ends in front of the colons, or where the text
    ends. -/
theorem exists_pieceInFront_of_comment {rest z : Bytes}
    (hz : rest ++ Tag.comment = Tag.comment ++ z) (behind : Bytes) :
    ∃ out, PieceInFront rest behind out ∧ ∀ text, IsCommentText text →
      gapPiece (commented rest text behind) = out text := by
  by_cases hn : Byte.newline ∈ rest
  · obtain ⟨line, more, rfl, hline⟩ := List.eq_append_cons_of_mem hn
    -- the line has both colons in it, for neither of them is a newline
    have hbody : ∃ body, line = Tag.comment ++ body := by
      rw [List.append_assoc] at hz
      rcases List.append_eq_append_iff.1 hz with ⟨c, hc, hmore⟩ | ⟨c, hc, -⟩
      · cases c with
        | nil => exact ⟨[], by rw [hc, List.append_nil, List.append_nil]⟩
        | cons b c =>
          have hb := (List.cons.inj hmore).1
          have hmem : b ∈ Tag.comment := by rw [hc]; simp
          rw [← hb] at hmem
          exact absurd hmem (by decide)
      · exact ⟨c, hc⟩
    obtain ⟨body, rfl⟩ := hbody
    have hinside : Byte.newline ∉ body := fun hmem => hline (List.mem_append_right _ hmem)
    have hsuffix : more <:+ Tag.comment ++ body ++ Byte.newline :: more :=
      (List.suffix_cons Byte.newline more).trans (List.suffix_append _ _)
    refine ⟨_, .stays hsuffix, fun text _ => ?_⟩
    exact ReadsPiece.eq (.comment hinside (by simp [commented, Tag.newline]))
  · have hcolons : Byte.newline ∉ rest ++ Tag.comment := by
      rw [List.mem_append, not_or]
      exact ⟨hn, by decide⟩
    have hz' : Byte.newline ∉ z := fun hmem => hcolons (hz ▸ List.mem_append_right _ hmem)
    refine ⟨_, .passes, fun text htext => ?_⟩
    have hinside : Byte.newline ∉ z ++ text := by
      rw [List.mem_append, not_or]
      exact ⟨hz', htext.line⟩
    refine ReadsPiece.eq (.comment hinside ?_)
    rw [commented_eq, hz]
    simp

/-- **A piece of a gap is read alike in front of any text.** -/
theorem exists_pieceInFront (rest behind : Bytes) :
    ∃ out, PieceInFront rest behind out ∧ ∀ text, IsCommentText text →
      gapPiece (commented rest text behind) = out text := by
  rcases standsAt_cases Tag.comment (rest ++ Tag.comment) with ⟨z, hz⟩ | hcolons
  · exact exists_pieceInFront_of_comment hz behind
  · have hnone : ∀ text, standsAt Tag.comment (commented rest text behind) = false := by
      intro text
      rw [standsAt_commented (by decide), hcolons]
    obtain ⟨run, more, rfl, blank, ends⟩ := exists_blanks rest
    by_cases ht : more.head? = some Byte.tab
    · refine ⟨_, .fails .tab (List.suffix_append run more), fun text _ => ?_⟩
      obtain ⟨more, rfl⟩ : ∃ tail, more = Byte.tab :: tail := by
        cases more with
        | nil => cases ht
        | cons b more =>
          cases ht
          exact ⟨more, rfl⟩
      exact ReadsPiece.eq (.tab blank (commented_append ..))
    · have hends := fun text => ends.commented text behind
      by_cases hw : weight run < longWeight
      · refine ⟨_, .fails .whitespace List.suffix_rfl, fun text _ => ?_⟩
        exact ReadsPiece.eq (.light blank (hends text).1 ((hends text).2 ht) hw (hnone text)
          (commented_append ..))
      · refine ⟨_, .stays (List.suffix_append run more), fun text _ => ?_⟩
        exact ReadsPiece.eq (.blanks blank (hends text).1 ((hends text).2 ht) (by omega)
          (commented_append ..))

/-- Between the colons no piece of a gap begins. -/
theorem gapPiece_between {text : Bytes} (h : IsCommentText text) (behind : Bytes) :
    gapPiece (Byte.colon :: text ++ Tag.newline ++ behind) =
      .error (.of .whitespace (Byte.colon :: text ++ Tag.newline ++ behind)) := by
  have hnone : standsAt Tag.comment (Byte.colon :: text ++ Tag.newline ++ behind) = false := by
    have hhead : (text ++ Tag.newline ++ behind).head? ≠ some Byte.colon := by
      cases text with
      | nil => show some Byte.newline ≠ some Byte.colon; decide
      | cons b text => exact h.apart
    cases hrest : text ++ Tag.newline ++ behind with
    | nil => simp [Tag.newline] at hrest
    | cons b rest =>
      rw [hrest] at hhead
      have hb : Byte.colon ≠ b := fun e => hhead (congrArg some e.symm)
      rw [List.cons_append, List.cons_append, hrest]
      simp [standsAt, Tag.comment, ascii, after?, hb]
  have hrun : ∀ b ∈ ([] : Bytes), isBlank b = true := by simp
  refine ReadsPiece.eq (.light hrun ?_ ?_ (by decide) hnone rfl)
  · intro b hb
    cases hb
    rfl
  · show some Byte.colon ≠ some Byte.tab
    decide

/-- What is said where no expression begins depends on the first byte only. -/
theorem noExpression_congr (table : Table) {input input' : Bytes} (h : input'.head? = input.head?) :
    (noExpression table input').cause = (noExpression table input).cause := by
  cases input with
  | nil => rw [List.head?_eq_none_iff.1 h]
  | cons b input =>
    cases input' with
    | nil => cases h
    | cons b' input' =>
      cases h
      rfl

theorem Beside.head? {before text text' behind input input' : Bytes}
    (h : Beside before text text' behind input input') : input'.head? = input.head? := by
  cases h with
  | front => exact head?_commented ..
  | between => rfl
  | behind => rfl

section Beside

variable {before text text' : Bytes} (h : IsCommentText text) (h' : IsCommentText text')

include h h'

theorem beside_piece (before behind : Bytes) :
    Skipper.InStep Eq (Beside before text text' behind) gapPiece gapPiece := by
  intro input input' hplaces
  cases hplaces with
  | @front rest suffix =>
    obtain ⟨out, hout, hread⟩ := exists_pieceInFront rest behind
    rw [hread text h, hread text' h']
    cases hout with
    | stays hmore => exact .ok (.front (hmore.trans suffix))
    | passes => exact .ok (.behind List.suffix_rfl)
    | fails cause hmore => exact .error ⟨rfl, rfl, .front (hmore.trans suffix)⟩
  | between =>
    rw [gapPiece_between h, gapPiece_between h']
    exact .error ⟨rfl, rfl, .between⟩
  | behind suffix =>
    have hforward := (gapPiece_forward input).trans suffix
    cases hpiece : gapPiece input with
    | ok rest =>
      rw [hpiece] at hforward
      exact .ok (.behind hforward)
    | error f =>
      rw [hpiece] at hforward
      exact .error ⟨rfl, rfl, .behind hforward⟩

theorem beside_readAlike (table : Table) (before behind : Bytes) :
    ReadAlike table table Eq (Beside before text text' behind) where
  forms _ := Iff.rfl
  cause _ := rfl
  nesting := by
    rintro cause _ rfl limit
    exact Iff.rfl
  tag _ htag _ _ hplaces := hplaces.tag htag
  digits _ _ hplaces := hplaces.digits
  piece := beside_piece h h' before behind
  noExpression _ _ hplaces := (noExpression_congr table hplaces.head?).symm

end Beside

/-! ## 4. Offsets, lines and columns -/

/-- The offset lies in front of the text, or behind the newline and moves with it. -/
def OffsetsBeside (before text text' : Bytes) (offset offset' : Nat) : Prop :=
  (offset < before.length + 2 ∧ offset' = offset) ∨
    (before.length + 2 + text.length < offset ∧ offset' + text.length = offset + text'.length)

/-- The locations differ in the offset at most. -/
structure LocationsBeside (before text text' : Bytes) (l l' : Location) : Prop where
  file : l'.file = l.file
  line : l'.line = l.line
  column : l'.column = l.column
  offset : OffsetsBeside before text text' l.offset l'.offset

/-- The spans differ in the offsets at most. -/
structure SpansBeside (before text text' : Bytes) (a a' : Span) : Prop where
  start : LocationsBeside before text text' a.start a'.start
  stop : LocationsBeside before text text' a.stop a'.stop

/-- The readings have the same twig, apart from offsets. -/
structure ReadingsBeside (before text text' : Bytes) (r r' : Reading) : Prop where
  bare : r'.twig.bare = r.twig.bare
  spans : r.twig.Related (SpansBeside before text text') r'.twig
  stop : OffsetsBeside before text text' r.stop r'.stop

/-- The reports say the same of the same place. -/
structure ReportsBeside (before text text' behind : Bytes) (e e' : Report) : Prop where
  cause : e'.cause = e.cause
  committed : e'.committed = e.committed
  offset : OffsetsBeside before text text' e.offset e'.offset
  location : LocationsBeside before text text' e.location e'.location
  remaining : Beside before text text' behind e.remaining e'.remaining

/-- What is passed in front of places that go together. -/
theorem Beside.passed {before text text' behind rest rest' : Bytes}
    (h : Beside before text text' behind rest rest') :
    (∃ passed, passed.length < before.length + 2 ∧
      commented before text behind = passed ++ rest ∧
      commented before text' behind = passed ++ rest') ∨
    (∃ passed, commented before text behind = commented before text passed ++ rest ∧
      commented before text' behind = commented before text' passed ++ rest') := by
  cases h with
  | @front rest suffix =>
    obtain ⟨passed, rfl⟩ := suffix
    refine .inl ⟨passed, ?_, commented_append .., commented_append ..⟩
    rw [List.length_append]
    omega
  | between =>
    refine .inl ⟨before ++ [Byte.colon], ?_, ?_, ?_⟩
    · rw [List.length_append, List.length_singleton]
      omega
    · simp [commented, Tag.comment, ascii]
    · simp [commented, Tag.comment, ascii]
  | behind suffix =>
    obtain ⟨passed, rfl⟩ := suffix
    exact .inr ⟨passed, by simp [commented], by simp [commented]⟩

/-- The line of a place behind a newline starts there. -/
theorem lineBefore_newline (a b : Bytes) : lineBefore (a ++ Tag.newline ++ b) = lineBefore b := by
  by_cases hb : Byte.newline ∈ b
  · exact lineBefore_append_of_mem hb _
  · have hline := lineBefore_append_of_not_mem hb
    have hstart : lineBefore (a ++ Tag.newline) = [] :=
      lineBefore_append_of_mem (List.mem_singleton_self _) a
    rw [hline, hstart]
    exact (hline []).symm

/-- **Neither line nor column of a place behind a comment depends on its text.** -/
theorem Location.past_commented {text : Bytes} (line : Byte.newline ∉ text) (file : String)
    (before passed : Bytes) :
    (past file (commented before text passed)).line =
        before.count Byte.newline + 1 + passed.count Byte.newline + 1 ∧
      (past file (commented before text passed)).column = (lineBefore passed).length + 1 := by
  constructor
  · have hcolons : Tag.comment.count Byte.newline = 0 := by decide
    have hclose : Tag.newline.count Byte.newline = 1 := by decide
    have htext : text.count Byte.newline = 0 := List.count_eq_zero_of_not_mem line
    rw [past, commented, List.count_append, List.count_append, List.count_append,
      List.count_append, hcolons, hclose, htext]
  · rw [← lineBefore_newline (before ++ Tag.comment ++ text) passed]
    rfl

theorem offsetsBeside_commented (before text text' passed : Bytes) :
    OffsetsBeside before text text' (commented before text passed).length
      (commented before text' passed).length := by
  rw [length_commented, length_commented]
  exact .inr ⟨by omega, by omega⟩

/-- The source of a file with a comment in it. -/
def Source.commented (file : String) (before text behind : Bytes) : Source :=
  ⟨HoonReader.commented before text behind, file⟩

section Source

variable {file : String} {before text text' behind rest rest' : Bytes}

theorem Beside.offsets (h : Beside before text text' behind rest rest') :
    OffsetsBeside before text text' ((Source.commented file before text behind).offsetOf 0 rest)
      ((Source.commented file before text' behind).offsetOf 0 rest') := by
  rcases h.passed with ⟨passed, hlt, hsplit, hsplit'⟩ | ⟨passed, hsplit, hsplit'⟩
  · rw [Source.offsetOf_passed hsplit, Source.offsetOf_passed hsplit']
    exact .inl ⟨hlt, rfl⟩
  · rw [Source.offsetOf_passed hsplit, Source.offsetOf_passed hsplit']
    exact offsetsBeside_commented ..

theorem Beside.remaining (h : Beside before text text' behind rest rest') :
    Beside before text text' behind
      ((Source.commented file before text behind).remaining
        ((Source.commented file before text behind).offsetOf 0 rest))
      ((Source.commented file before text' behind).remaining
        ((Source.commented file before text' behind).offsetOf 0 rest')) := by
  have hsuffix : rest <:+ commented before text behind ∧
      rest' <:+ commented before text' behind := by
    rcases h.passed with ⟨passed, -, hsplit, hsplit'⟩ | ⟨passed, hsplit, hsplit'⟩
    · exact ⟨⟨_, hsplit.symm⟩, ⟨_, hsplit'.symm⟩⟩
    · exact ⟨⟨_, hsplit.symm⟩, ⟨_, hsplit'.symm⟩⟩
  rw [Source.remaining_offsetOf hsuffix.1, Source.remaining_offsetOf hsuffix.2]
  exact h

variable (line : Byte.newline ∉ text) (line' : Byte.newline ∉ text')

include line line'

theorem Beside.locations (h : Beside before text text' behind rest rest') :
    LocationsBeside before text text'
      ((Source.commented file before text behind).location
        ((Source.commented file before text behind).offsetOf 0 rest))
      ((Source.commented file before text' behind).location
        ((Source.commented file before text' behind).offsetOf 0 rest')) := by
  rcases h.passed with ⟨passed, hlt, hsplit, hsplit'⟩ | ⟨passed, hsplit, hsplit'⟩
  · rw [Source.location_passed hsplit, Source.location_passed hsplit']
    exact ⟨rfl, rfl, rfl, .inl ⟨hlt, rfl⟩⟩
  · rw [Source.location_passed hsplit, Source.location_passed hsplit']
    obtain ⟨hline, hcolumn⟩ := Location.past_commented line file before passed
    obtain ⟨hline', hcolumn'⟩ := Location.past_commented line' file before passed
    exact ⟨rfl, hline'.trans hline.symm, hcolumn'.trans hcolumn.symm, offsetsBeside_commented ..⟩

/-! ## 5. Documents -/

theorem readingsBeside {r r' : Reading}
    (h : LocatedAlike (.commented file before text behind) (.commented file before text' behind)
      (Beside before text text' behind) r r') : ReadingsBeside before text text' r r' := by
  cases h with
  | @mk t t' rest rest' htwig hstop =>
    have hspans : Twig.Related (SpansBeside before text text')
        ((Source.commented file before text behind).located 0 t)
        ((Source.commented file before text' behind).located 0 t') := by
      rw [Source.located_zero, Source.located_zero]
      refine htwig.map (Source.spanOf _) (Source.spanOf _) fun a b hab => ?_
      exact ⟨hab.1.locations line line', hab.2.locations line line'⟩
    exact ⟨hspans.bare_eq.symm, hspans, hstop.offsets⟩

theorem reportsBeside {e e' : Report}
    (h : ReportedAlike (.commented file before text behind) (.commented file before text' behind)
      Eq (Beside before text text' behind) e e') : ReportsBeside before text text' behind e e' := by
  cases h with
  | mk halike =>
    exact ⟨halike.cause.symm, halike.committed, halike.place.offsets,
      halike.place.locations line line', halike.place.remaining⟩

end Source

namespace Document

/-- **The text of a comment does not matter.** Two documents that differ only in a text without a
    newline between two colons and a newline have the same outcome, wherever the colons stand: the
    same twig or the same report, with the same lines and columns. Offsets in front of the text
    are the same, those behind the newline move with it, and there are no others. -/
theorem parse_commented (d : Document) (before behind : Bytes) {text text' : Bytes}
    (h : IsCommentText text) (h' : IsCommentText text') :
    Paired (ReportsBeside before text text' behind) (ReadingsBeside before text text')
      (d.withBytes (commented before text behind)).parse
      (d.withBytes (commented before text' behind)).parse := by
  have hstart : Beside before text text' behind (commented before text behind)
      (commented before text' behind) := .front List.suffix_rfl
  have hpaired := (beside_readAlike h h' d.table before behind).parse_paired
    (d.withBytes (commented before text behind)) (d.withBytes (commented before text' behind))
    rfl hstart
  exact hpaired.imp (fun _ _ => reportsBeside h.line h'.line)
    fun _ _ => readingsBeside h.line h'.line

/-- A loop point with a comment in front of its argument. -/
def loopWithComment (text : Bytes) : Document :=
  seven.withBytes (commented (ascii ['|', '-', '\n']) text (ascii ['7', '\n', '=', '=']))

/-- What is read of it if the comment is empty. -/
def loopReading : Reading where
  twig := .apply .brhp
    (.ofValue .ud (.number 7)
      (some ⟨⟨Source.unknownFile, 3, 1, 6⟩, ⟨Source.unknownFile, 3, 2, 7⟩⟩))
    (some ⟨⟨Source.unknownFile, 1, 1, 0⟩, ⟨Source.unknownFile, 4, 3, 10⟩⟩)
  stop := 10

theorem parse_commented_loop :
    IsCommentText [] ∧ IsCommentText (ascii ['\t', '(', ':', ':']) ∧
      (loopWithComment []).parse = .ok loopReading ∧
      ∃ r, (loopWithComment (ascii ['\t', '(', ':', ':'])).parse = .ok r ∧
        ReadingsBeside (ascii ['|', '-', '\n']) [] (ascii ['\t', '(', ':', ':']) loopReading r := by
  have hempty : IsCommentText [] := ⟨by decide, by decide⟩
  have htext : IsCommentText (ascii ['\t', '(', ':', ':']) := ⟨by decide, by decide⟩
  have hread : (loopWithComment []).parse = .ok loopReading := by decide +kernel
  have hpaired := parse_commented seven (ascii ['|', '-', '\n']) (ascii ['7', '\n', '=', '='])
    hempty htext
  exact ⟨hempty, htext, hread, Paired.of_ok (hread ▸ hpaired)⟩

end Document

end HoonReader
