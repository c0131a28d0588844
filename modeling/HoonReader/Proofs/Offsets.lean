import HoonReader.Proofs.Gap
import HoonReader.Proofs.Arguments
import HoonReader.Proofs.Paired
import HoonReader.Source.Lexical

/-!
# Offsets and what is left

Lexical elements are read at offsets of a source. What stands behind an offset is what is left
there, and reading at an offset is reading what is left: the two take the same steps, one counting
offsets, the other cutting off what was passed.

* `hasTagAt_eq`, `runEnd_eq`, `find?_append`, `slice_append`: what a look at an offset says about
  what is left there;
* `Leaves`, `RunsAs`: the relation between the two that every step keeps, failures included;
* `expect_runsAs`, `blanks_runsAs`, `comment_runsAs`, `gap_runsAs`, `identifier_runsAs`,
  `digits_runsAs`, `wing_runsAs`: every lexical element keeps it;
* `gapAt_eq`, `wingAt_eq`: so reading at an offset gives what running the reader there gives.
-/

namespace HoonReader

namespace Source

/-! ## 1. Offsets -/

section Offsets

variable {s : Source} {start : Nat} {text rest : Bytes}

theorem length_remaining (s : Source) (start : Nat) :
    (s.remaining start).length = s.bytes.length - start :=
  List.length_drop

theorem offsetOf_append (h : s.remaining start = text ++ rest) :
    s.offsetOf start rest = start + text.length := by
  rw [offsetOf, h, List.length_append]
  omega

theorem remaining_append (h : s.remaining start = text ++ rest) :
    s.remaining (start + text.length) = rest := by
  have hdrop : s.remaining (start + text.length) = (s.remaining start).drop text.length := by
    rw [remaining, remaining, List.drop_drop]
  rw [hdrop, h, List.drop_left]

theorem remaining_cons {b : UInt8} (h : s.remaining start = b :: rest) :
    s.remaining (start + 1) = rest := by
  have hsplit : s.remaining start = [b] ++ rest := h
  exact remaining_append hsplit

theorem offsetOf_remaining {offset : Nat} (h : start ≤ offset) (inside : offset ≤ s.bytes.length) :
    s.offsetOf start (s.remaining offset) = offset := by
  rw [offsetOf, length_remaining, length_remaining]
  omega

theorem byteAt?_eq_some_iff {offset : Nat} {b : UInt8} :
    s.byteAt? offset = some b ↔ ∃ behind, s.remaining offset = b :: behind := by
  rw [byteAt?, ← List.head?_drop, List.head?_eq_some_iff]
  rfl

/-- What is left at an offset is what stands up to a later one and what is left there. -/
theorem remaining_split {stop : Nat} (h : start ≤ stop) :
    s.remaining start = (s.remaining start).take (stop - start) ++ s.remaining stop := by
  have hdrop : s.remaining stop = (s.remaining start).drop (stop - start) := by
    rw [remaining, remaining, List.drop_drop, Nat.add_sub_cancel' h]
  rw [hdrop, List.take_append_drop]

end Offsets

/-! ## 2. What stands at an offset -/

section Looks

variable {s : Source} {tag : Bytes} {offset : Nat}

theorem remaining_inside (h : offset < s.bytes.length) :
    s.remaining offset = s.bytes[offset] :: s.remaining (offset + 1) :=
  List.drop_eq_getElem_cons h

theorem remaining_outside (h : ¬ offset < s.bytes.length) : s.remaining offset = [] :=
  List.drop_eq_nil_of_le (Nat.le_of_not_lt h)

/-- **A tag stands at an offset if what is left there begins with it.** Only of the empty tag this
    is not so, which stands nowhere behind the end. -/
theorem hasTagAt_eq (hne : tag ≠ []) :
    s.hasTagAt tag offset = standsAt tag (s.remaining offset) := by
  unfold hasTagAt
  by_cases inside : offset ≤ s.bytes.length
  · rw [decide_eq_true inside, Bool.true_and]
  · rw [decide_eq_false inside, Bool.false_and, remaining_outside (by omega)]
    cases tag with
    | nil => exact absurd rfl hne
    | cons t tag => rfl

theorem head?_remaining : (s.remaining offset).head? = s.byteAt? offset :=
  List.head?_drop

theorem hasLetterAt_eq : s.hasLetterAt offset = letterStands (s.remaining offset) := by
  rw [hasLetterAt, ← head?_remaining]
  cases s.remaining offset <;> rfl

theorem hasDigitAt_eq : s.hasDigitAt offset = digitStands (s.remaining offset) := by
  rw [hasDigitAt, ← head?_remaining]
  cases s.remaining offset <;> rfl

/-- **A run ends behind all bytes that are taken of what is left.** -/
theorem runEnd_eq (p : UInt8 → Bool) :
    s.runEnd p offset = offset + ((s.remaining offset).takeWhile p).length := by
  fun_induction runEnd s p offset with
  | case1 offset inside hp ih =>
    rw [ih, remaining_inside inside, List.takeWhile_cons_of_pos hp, List.length_cons]
    omega
  | case2 offset inside hp =>
    rw [remaining_inside inside, List.takeWhile_cons_of_neg hp]
    rfl
  | case3 offset outside =>
    rw [remaining_outside outside]
    rfl

/-- Where something is left, the offset is inside of the source, and the byte there comes first. -/
theorem inside_of_remaining {b : UInt8} {rest : Bytes} (h : s.remaining offset = b :: rest) :
    ∃ inside : offset < s.bytes.length, s.bytes[offset] = b := by
  by_cases inside : offset < s.bytes.length
  · rw [remaining_inside inside] at h
    exact ⟨inside, (List.cons.inj h).1⟩
  · rw [remaining_outside inside] at h
    cases h

theorem runEnd_cons {p : UInt8 → Bool} {b : UInt8} {rest : Bytes}
    (h : s.remaining offset = b :: rest) (hp : p b = true) :
    s.runEnd p offset = s.runEnd p (offset + 1) := by
  obtain ⟨inside, rfl⟩ := inside_of_remaining h
  rw [runEnd, dif_pos inside, if_pos hp]

/-- A run of digits ends where it begins if no digit stands there. -/
theorem runEnd_digits : s.runEnd isDigit offset = offset ↔ s.hasDigitAt offset = false := by
  rw [hasDigitAt_eq]
  cases hrest : s.remaining offset with
  | nil => simp [runEnd_eq, hrest, digitStands]
  | cons b rest =>
    cases hb : isDigit b with
    | false => simp [runEnd_eq, hrest, digitStands, hb]
    | true => simp [runEnd_eq, hrest, digitStands, hb]

/-- **A byte is found behind all bytes that are not it.** -/
theorem find?_append {sought : UInt8} {text rest : Bytes} (hfirst : sought ∉ text)
    (h : s.remaining offset = text ++ sought :: rest) :
    s.find? sought offset = some (offset + text.length) := by
  induction text generalizing offset with
  | nil =>
    obtain ⟨inside, hb⟩ := inside_of_remaining h
    rw [find?, dif_pos inside, if_pos hb]
    rfl
  | cons b text ih =>
    obtain ⟨inside, hb⟩ := inside_of_remaining h
    obtain ⟨hne, hfirst⟩ := not_or.1 (mt List.mem_cons.2 hfirst)
    rw [find?, dif_pos inside, if_neg (hb ▸ Ne.symm hne), ih hfirst (remaining_cons h),
      List.length_cons, Nat.add_right_comm, Nat.add_assoc]

theorem find?_eq_none {sought : UInt8} (h : sought ∉ s.remaining offset) :
    s.find? sought offset = none := by
  fun_induction find? s sought offset with
  | case1 offset inside hb =>
    rw [remaining_inside inside, hb] at h
    exact absurd List.mem_cons_self h
  | case2 offset inside hb ih =>
    rw [remaining_inside inside] at h
    exact ih (List.not_mem_of_not_mem_cons h)
  | case3 offset outside => rfl

/-- What stands up to behind a text is the text. -/
theorem slice_append {text rest : Bytes} (h : s.remaining offset = text ++ rest) :
    s.slice offset (offset + text.length) = text := by
  rw [slice, h, Nat.add_sub_cancel_left, List.take_left]

end Looks

/-! ## 3. What every step keeps -/

/-- At an offset this is left. The offset is one that reading from `origin` can come to: it is not
    in front of where reading began, and lies in the source if reading began there. -/
structure Leaves (s : Source) (origin : Nat) (rest : Bytes) (offset : Nat) : Prop where
  forward : origin ≤ offset
  inside : offset ≤ max origin s.bytes.length
  rest : rest = s.remaining offset

/-- The report says of an offset what the failure says of what is left there. -/
structure Reports (s : Source) (origin : Nat) (f : Failure) (e : Report) : Prop where
  place : s.Leaves origin f.place e.offset
  report : e = s.report f.cause f.committed e.offset

end Source

/-- The skipper runs as one that goes from offset to offset: where this is left it moves over the
    same bytes, or fails as the other does. -/
def Skipper.RunsAs (s : Source) (origin : Nat) (skipper : Skipper)
    (skipAt : Nat → Except Report Nat) : Prop :=
  ∀ ⦃input offset⦄, s.Leaves origin input offset →
    Paired (s.Reports origin) (s.Leaves origin) (skipper input) (skipAt offset)

/-- The reader runs as one that goes from offset to offset, and the values they read are related. -/
def Reader.RunsAs {α β : Type} (s : Source) (origin : Nat) (values : α → β → Prop)
    (reader : Reader α) (scan : Scan β) : Prop :=
  ∀ ⦃input offset⦄, s.Leaves origin input offset →
    Paired (s.Reports origin) (fun p q => values p.1 q.1 ∧ s.Leaves origin p.2 q.2)
      (reader input) (scan offset)

namespace Source

variable {s : Source} {origin : Nat}

section Steps

variable {input text rest : Bytes} {offset : Nat}

theorem Leaves.self (s : Source) (offset : Nat) : s.Leaves offset (s.remaining offset) offset :=
  ⟨Nat.le_refl _, Nat.le_max_left _ _, rfl⟩

theorem Leaves.offsetOf_eq (h : s.Leaves origin rest offset) : s.offsetOf origin rest = offset := by
  obtain ⟨forward, inside, rfl⟩ := h
  rw [offsetOf, length_remaining, length_remaining]
  omega

theorem Reports.eq {f : Failure} {e : Report} (h : s.Reports origin f e) :
    e = s.reportOf origin f := by
  rw [reportOf, h.place.offsetOf_eq]
  exact h.report

/-- **Behind a text that was passed its rest is left.** -/
theorem Leaves.behind (h : s.Leaves origin (text ++ rest) offset) :
    s.Leaves origin rest (offset + text.length) := by
  obtain ⟨forward, inside, hrest⟩ := h
  have hlength := congrArg List.length hrest
  rw [List.length_append, length_remaining] at hlength
  exact ⟨Nat.le_add_right_of_le forward, by omega, (remaining_append hrest.symm).symm⟩

theorem Leaves.slice (h : s.Leaves origin (text ++ rest) offset) :
    s.slice offset (offset + text.length) = text :=
  slice_append h.rest.symm

/-- Where a run ends, what it did not take is left. -/
theorem Leaves.runEnd (h : s.Leaves origin input offset) (p : UInt8 → Bool) :
    s.Leaves origin (input.dropWhile p) (s.runEnd p offset) ∧
      s.slice offset (s.runEnd p offset) = input.takeWhile p := by
  have hsplit : input = input.takeWhile p ++ input.dropWhile p :=
    List.takeWhile_append_dropWhile.symm
  rw [runEnd_eq, ← h.rest]
  rw [hsplit] at h
  exact ⟨h.behind, h.slice⟩

theorem Leaves.failedAt (h : s.Leaves origin input offset) (cause : Cause) :
    s.Reports origin (.of cause input) (s.failedAt cause offset) :=
  ⟨h, rfl⟩

theorem Reports.committed_eq {f : Failure} {e : Report} (h : s.Reports origin f e) :
    e.committed = f.committed :=
  congrArg Report.committed h.report

theorem Reports.commit {f : Failure} {e : Report} (h : s.Reports origin f e) :
    s.Reports origin f.commit e.commit :=
  ⟨h.place, congrArg Report.commit h.report⟩

/-- Where what is left begins with a tag, the tag stands, and its rest is left behind it. -/
theorem Leaves.tag (h : s.Leaves origin input offset) {tag : Bytes} (hne : tag ≠ [])
    (hsplit : input = tag ++ rest) :
    s.hasTagAt tag offset = true ∧ s.Leaves origin rest (offset + tag.length) := by
  rw [hasTagAt_eq hne, ← h.rest]
  exact ⟨standsAt_iff.2 ⟨rest, hsplit⟩, (hsplit ▸ h).behind⟩

/-- A tag stands at an offset, and what is behind it is left behind it, or it does not stand
    there. -/
theorem Leaves.tag_cases (h : s.Leaves origin input offset) {tag : Bytes} (hne : tag ≠ []) :
    (∃ rest, input = tag ++ rest ∧ s.hasTagAt tag offset = true ∧
      s.Leaves origin rest (offset + tag.length)) ∨
    (standsAt tag input = false ∧ s.hasTagAt tag offset = false) := by
  rcases standsAt_cases tag input with ⟨rest, hsplit⟩ | hnone
  · exact .inl ⟨rest, hsplit, h.tag hne hsplit⟩
  · refine .inr ⟨hnone, ?_⟩
    rw [hasTagAt_eq hne, ← h.rest]
    exact hnone

end Steps

/-! ## 4. Gaps -/

theorem expect_runsAs {tag : Bytes} (hne : tag ≠ []) :
    Skipper.RunsAs s origin (expect tag) (s.expectAt tag) := by
  intro input offset h
  rcases h.tag_cases hne with ⟨rest, rfl, hstands, hrest⟩ | ⟨hnone, hstands⟩
  · rw [expect_eq_ok_iff.2 rfl, expectAt, if_pos hstands]
    exact .ok hrest
  · rw [expect_eq_error_iff.2 ⟨hnone, rfl⟩, expectAt, if_neg (by simp [hstands])]
    exact .error (h.failedAt _)

/-- Where a run of blanks ends, a tab is the failure, and otherwise its weight has been added. -/
theorem blanksFrom_eq (offset passed : Nat) :
    s.blanksFrom offset passed =
      if ((s.remaining offset).dropWhile isBlank).head? = some Byte.tab then
        .error (s.failedAt .tab (offset + ((s.remaining offset).takeWhile isBlank).length))
      else
        .ok (offset + ((s.remaining offset).takeWhile isBlank).length,
          passed + weight ((s.remaining offset).takeWhile isBlank)) := by
  fun_induction blanksFrom s offset passed with
  | case1 offset passed inside b htab =>
    have hstop : ¬ isBlank b = true := by rw [htab]; decide
    rw [remaining_inside inside, List.dropWhile_cons_of_neg hstop,
      List.takeWhile_cons_of_neg hstop, List.head?_cons, if_pos (congrArg some htab)]
    rfl
  | case2 offset passed inside b htab hblank ih =>
    rw [ih, remaining_inside inside, List.dropWhile_cons_of_pos hblank,
      List.takeWhile_cons_of_pos hblank, List.length_cons, weight_cons, Nat.add_right_comm,
      Nat.add_assoc, Nat.add_assoc]
  | case3 offset passed inside b htab hblank =>
    rw [remaining_inside inside, List.dropWhile_cons_of_neg hblank,
      List.takeWhile_cons_of_neg hblank, List.head?_cons,
      if_neg (fun h => htab (Option.some.inj h))]
    rfl
  | case4 offset passed outside =>
    rw [remaining_outside outside]
    rfl

theorem blanks_runsAs : Skipper.RunsAs s origin blanks s.blanksAt := by
  intro input offset h
  have hsplit : input = input.takeWhile isBlank ++ input.dropWhile isBlank :=
    List.takeWhile_append_dropWhile.symm
  have hbehind : s.Leaves origin (input.dropWhile isBlank)
      (offset + (input.takeWhile isBlank).length) := (hsplit ▸ h).behind
  simp only [blanks, blanksAt, blanksFrom_eq, ← h.rest]
  by_cases htab : (input.dropWhile isBlank).head? = some Byte.tab
  · rw [if_pos htab, if_pos htab]
    exact .error (hbehind.failedAt .tab)
  · rw [if_neg htab, if_neg htab]
    simp only [bind, Except.bind, Nat.zero_add]
    by_cases hlight : weight (input.takeWhile isBlank) < longWeight
    · rw [if_pos hlight, if_pos hlight]
      exact .error (h.failedAt .whitespace)
    · rw [if_neg hlight, if_neg hlight]
      exact .ok hbehind

theorem comment_runsAs : Reader.RunsAs s origin Eq comment s.commentAt := by
  intro input offset h
  have hne : Tag.comment ≠ [] := by decide
  rcases h.tag_cases hne with ⟨body, rfl, hstands, hbody⟩ | ⟨hnone, hstands⟩
  · by_cases hnewline : Byte.newline ∈ body
    · obtain ⟨text, rest, rfl, hfirst⟩ := List.eq_append_cons_of_mem hnewline
      have hclosed : comment (Tag.comment ++ (text ++ Byte.newline :: rest)) =
          .ok (text, rest) := by
        rw [← comment_closed hfirst rest, List.append_assoc, List.append_assoc]
        rfl
      rw [hclosed, commentAt, if_pos hstands]
      simp only [find?_append hfirst hbody.rest.symm, hbody.slice]
      have hend : s.Leaves origin ([Byte.newline] ++ rest) _ := hbody.behind
      exact .ok ⟨rfl, hend.behind⟩
    · rw [comment_open hnewline, commentAt, if_pos hstands]
      simp only [find?_eq_none (hbody.rest ▸ hnewline)]
      exact .error (h.failedAt .openComment).commit
  · have hafter : after? Tag.comment input = none := by simpa [standsAt] using hnone
    rw [comment, hafter, commentAt, if_neg (by simp [hstands])]
    exact .error (h.failedAt _)

theorem gapPiece_runsAs : Skipper.RunsAs s origin gapPiece s.gapPieceAt := by
  intro input offset h
  have hne : Tag.comment ≠ [] := by decide
  have hcomment := comment_runsAs h
  unfold gapPiece gapPieceAt
  rcases h.tag_cases hne with ⟨rest, hrest, hstands, -⟩ | ⟨hnone, hstands⟩
  · rw [if_pos (standsAt_iff.2 ⟨rest, hrest⟩), if_pos hstands]
    exact hcomment.map Prod.snd Prod.snd fun p q hpq => hpq.2
  · rw [if_neg (by simp [hnone]), if_neg (by simp [hstands])]
    exact blanks_runsAs h

theorem gapPiecesAt_ok {start stop : Nat} (h : s.gapPieceAt start = .ok stop) :
    s.gapPiecesAt start = s.gapPiecesAt stop := by
  rw [gapPiecesAt]
  split
  · rename_i stop' hstop
    rw [h] at hstop
    cases hstop
    rfl
  · rename_i e he
    rw [h] at he
    cases he

theorem gapPiecesAt_error {start : Nat} {e : Report} (h : s.gapPieceAt start = .error e) :
    s.gapPiecesAt start = if e.committed then .error e else .ok start := by
  rw [gapPiecesAt]
  split
  · rename_i stop hstop
    rw [h] at hstop
    cases hstop
  · rename_i e' he
    rw [h] at he
    cases he
    rfl

/-- Further pieces are moved over alike, one after the other. -/
theorem gapPieces_runsAs : Skipper.RunsAs s origin gapPieces s.gapPiecesAt := by
  intro input offset h
  have hpaired := gapPiece_runsAs h
  fun_induction gapPieces input generalizing offset with
  | case1 input rest hpiece ih =>
    rw [hpiece] at hpaired
    obtain ⟨stop, hpieceAt, hrest⟩ := hpaired.of_ok
    rw [gapPiecesAt_ok hpieceAt]
    exact ih hrest (gapPiece_runsAs hrest)
  | case2 input f hpiece hc =>
    rw [hpiece] at hpaired
    obtain ⟨e, hpieceAt, hreports⟩ := hpaired.of_error
    rw [gapPiecesAt_error hpieceAt, if_pos (hreports.committed_eq.trans hc)]
    exact .error hreports
  | case3 input f hpiece hc =>
    rw [hpiece] at hpaired
    obtain ⟨e, hpieceAt, hreports⟩ := hpaired.of_error
    rw [gapPiecesAt_error hpieceAt, if_neg (hreports.committed_eq.symm ▸ hc)]
    exact .ok h

theorem gap_runsAs : Skipper.RunsAs s origin gap s.gapAt := by
  intro input offset h
  have hpaired := gapPiece_runsAs h
  unfold gap gapAt
  generalize gapPiece input = x, s.gapPieceAt offset = y at hpaired
  cases hpaired with
  | ok hrest => exact gapPieces_runsAs hrest
  | error hreports => exact .error hreports

/-! ## 5. Names, digits and wings -/

theorem identifier_runsAs : Reader.RunsAs s origin Eq identifier s.identifierAt := by
  intro input offset h
  have hletter : s.hasLetterAt offset = letterStands input := by rw [hasLetterAt_eq, ← h.rest]
  unfold identifier identifierAt
  cases input with
  | nil =>
    rw [if_neg (by simp [letterStands]), if_neg (by simp [hletter, letterStands])]
    exact .error (h.failedAt .letter)
  | cons b rest =>
    cases hb : isAlpha b with
    | false =>
      rw [if_neg (by simp [letterStands, hb]), if_neg (by simp [hletter, letterStands, hb])]
      exact .error (h.failedAt .letter)
    | true =>
      -- the run of the name begins with its letter
      obtain ⟨hrest, htext⟩ := h.runEnd isNameByte
      rw [if_pos (by simp [letterStands, hb]), if_pos (by simp [hletter, letterStands, hb]),
        ← runEnd_cons h.rest.symm (isNameByte_of_isAlpha hb)]
      exact .ok ⟨htext.symm, hrest⟩

theorem digits_runsAs : Reader.RunsAs s origin Eq digits s.digitsAt := by
  intro input offset h
  have hdigit : s.hasDigitAt offset = digitStands input := by rw [hasDigitAt_eq, ← h.rest]
  unfold digits digitsAt
  cases hstands : digitStands input with
  | false =>
    rw [if_neg (by decide), if_pos (runEnd_digits.2 (hdigit.trans hstands))]
    exact .error (h.failedAt .digit)
  | true =>
    have hend : s.runEnd isDigit offset ≠ offset := by
      rw [Ne, runEnd_digits, hdigit, hstands]
      decide
    obtain ⟨hrest, htext⟩ := h.runEnd isDigit
    rw [if_pos rfl, if_neg hend]
    exact .ok ⟨htext.symm, hrest⟩

theorem namesBehindDotsAt_ends {start : Nat}
    (h : s.hasTagAt Tag.wingDot start = false ∨ s.hasLetterAt (start + 1) = false) :
    s.namesBehindDotsAt start = .ok ([], start) := by
  rw [namesBehindDotsAt, if_neg]
  rcases h with h | h <;> simp [h, show Tag.wingDot.length = 1 from rfl]

theorem namesBehindDotsAt_ok {start stop : Nat} {name : Bytes}
    (dot : s.hasTagAt Tag.wingDot start = true) (letter : s.hasLetterAt (start + 1) = true)
    (h : s.identifierAt (start + 1) = .ok (name, stop)) :
    s.namesBehindDotsAt start = do
      let (names, stop) ← s.namesBehindDotsAt stop
      return (name :: names, stop) := by
  have hlength : Tag.wingDot.length = 1 := rfl
  rw [namesBehindDotsAt, if_pos (by rw [hlength, dot, letter]; rfl)]
  split
  · rename_i e he
    rw [hlength, h] at he
    cases he
  · rename_i name' stop' hname
    rw [hlength, h] at hname
    cases hname
    rfl

/-- Further names are read alike, one after the other. -/
theorem namesBehindDots_runsAs :
    Reader.RunsAs s origin Eq namesBehindDots s.namesBehindDotsAt := by
  intro input offset h
  have hne : Tag.wingDot ≠ [] := by decide
  fun_induction namesBehindDots input generalizing offset with
  | case1 input hdot =>
    rcases h.tag_cases hne with ⟨rest, rfl, -, -⟩ | ⟨-, hnone⟩
    · rw [after?_append] at hdot
      cases hdot
    · rw [namesBehindDotsAt_ends (.inl hnone)]
      exact .ok ⟨rfl, h⟩
  | case2 input behind hdot hletter f hname =>
    rw [identifier, if_pos hletter] at hname
    cases hname
  | case3 input behind hdot hletter name rest hname ih =>
    obtain ⟨hstands, hbehind⟩ := h.tag hne (after?_eq_some_iff.1 hdot)
    have hletterAt := hasLetterAt_eq.trans (hbehind.rest ▸ hletter)
    have hpaired := identifier_runsAs hbehind
    rw [hname] at hpaired
    obtain ⟨⟨name', stop⟩, hnameAt, rfl, hrest⟩ := hpaired.of_ok
    rw [namesBehindDotsAt_ok hstands hletterAt hnameAt]
    exact (ih hrest).bind fun p q hpq => .ok ⟨congrArg (name :: ·) hpq.1, hpq.2⟩
  | case4 input behind hdot hletter =>
    obtain ⟨-, hbehind⟩ := h.tag hne (after?_eq_some_iff.1 hdot)
    have hletterAt : s.hasLetterAt (offset + 1) = false := by
      rw [hasLetterAt_eq, ← show behind = s.remaining (offset + 1) from hbehind.rest]
      simpa using hletter
    rw [namesBehindDotsAt_ends (.inr hletterAt)]
    exact .ok ⟨rfl, h⟩

theorem wing_runsAs : Reader.RunsAs s origin Eq wing s.wingAt := by
  intro input offset h
  refine (identifier_runsAs h).bind fun p q hpq => ?_
  refine (namesBehindDots_runsAs hpq.2).bind fun t u htu => ?_
  exact .ok ⟨congrArg₂ List.cons hpq.1 htu.1, htu.2⟩

/-! ## 6. Running readers -/

theorem skip_eq {skipper : Skipper} {skipAt : Nat → Except Report Nat}
    (h : ∀ origin, Skipper.RunsAs s origin skipper skipAt) (start : Nat) :
    s.skip skipper start = skipAt start := by
  have hpaired := h start (Leaves.self s start)
  unfold skip
  generalize skipper (s.remaining start) = x, skipAt start = y at hpaired
  cases hpaired with
  | ok hleaves => exact congrArg Except.ok hleaves.offsetOf_eq
  | error hreports => exact congrArg Except.error hreports.eq.symm

theorem read_eq {α : Type} {reader : Reader α} {scan : Scan α}
    (h : ∀ origin, Reader.RunsAs s origin Eq reader scan) (start : Nat) :
    s.read reader start = scan start := by
  have hpaired := h start (Leaves.self s start)
  unfold read
  generalize reader (s.remaining start) = x, scan start = y at hpaired
  cases hpaired with
  | ok hread => exact congrArg Except.ok (Prod.ext hread.1 hread.2.offsetOf_eq)
  | error hreports => exact congrArg Except.error hreports.eq.symm

/-- **A gap at an offset is the gap of what is left there.** -/
theorem gapAt_eq (start : Nat) : s.gapAt start = s.skip gap start :=
  (skip_eq (fun _ => gap_runsAs) start).symm

/-- **A wing at an offset is the wing of what is left there.** -/
theorem wingAt_eq (start : Nat) : s.wingAt start = s.read wing start :=
  (read_eq (fun _ => wing_runsAs) start).symm

end Source

end HoonReader
