import HoonReader.Document
import HoonReader.Proofs.Arguments
import HoonReader.Proofs.Document
import HoonReader.Wing.Spelling

/-!
# A wing is the longest path of names

The reader of a wing takes a name, and then a dot and a name as long as there are both. This file
shows that it reads the paths of names joined by single dots, each to its end and no other text:

* `identifier_eq_ok_iff`: a name is a letter and all bytes of names behind it;
* `exists_namesBehindDots`: reading the names that follow cannot fail;
* `namesBehindDots_sound`, `namesBehindDots_complete`: what follows a name is further names, each
  behind a dot, until the wing ends (`WingEnds`);
* `wing_eq_ok_iff`, `dot_stays`: so a wing is the text of its names, and a dot with no letter behind
  it is left;
* `Document.wingAt_iff_stands`: the same at an offset of a document.

A byte of a name is no dot, so the text of a wing says where its names end.
-/

namespace HoonReader

variable {input rest : Bytes}

/-! ## 1. Names -/

theorem letterStands_append (h : letterStands input = true) (behind : Bytes) :
    letterStands (input ++ behind) = true := by
  cases input with
  | nil => cases h
  | cons b input => exact h

theorem IsName.ne_nil {name : Bytes} (h : IsName name) : name ≠ [] := by
  rintro rfl
  cases h.1

theorem letterStands_takeWhile (input : Bytes) :
    letterStands (input.takeWhile isNameByte) = letterStands input := by
  cases input with
  | nil => rfl
  | cons b input =>
    cases hb : isAlpha b with
    | true => simp [letterStands, isNameByte_of_isAlpha hb, hb]
    | false =>
      cases hname : isNameByte b with
      | true => simp [letterStands, hname]
      | false => simp [letterStands, hname, hb]

/-- The input does not go on with a byte of a name. -/
def NameEnds (input : Bytes) : Prop :=
  ∀ b ∈ input.head?, isNameByte b = false

/-- What is taken for a name where a letter stands is one, and what is left does not go on with
    it. -/
theorem isName_takeWhile (h : letterStands input = true) :
    IsName (input.takeWhile isNameByte) ∧ NameEnds (input.dropWhile isNameByte) := by
  obtain ⟨-, hname, hends⟩ := splits_run isNameByte input
  exact ⟨⟨(letterStands_takeWhile input).trans h, hname⟩, hends⟩

/-- **A name is a letter and all bytes of names behind it.** -/
theorem identifier_eq_ok_iff {name : Bytes} :
    identifier input = .ok (name, rest) ↔ IsName name ∧ input = name ++ rest ∧ NameEnds rest := by
  constructor
  · intro h
    unfold identifier at h
    split at h
    · rename_i hletter
      cases h
      obtain ⟨hname, hends⟩ := isName_takeWhile hletter
      exact ⟨hname, (splits_run isNameByte input).1, hends⟩
    · cases h
  · intro h
    obtain ⟨⟨hletter, hname⟩, rfl, hends⟩ := h
    rw [identifier, if_pos (letterStands_append hletter rest), takeWhile_run hname hends,
      dropWhile_run hname hends]

theorem identifier_eq_error_iff {f : Failure} :
    identifier input = .error f ↔ letterStands input = false ∧ f = .of .letter input := by
  unfold identifier
  cases letterStands input with
  | true => simp
  | false => simp [eq_comm]

/-! ## 2. Further names -/

/-- The input does not go on with a wing: neither with its last name nor with a further one. -/
structure WingEnds (input : Bytes) : Prop where
  name : NameEnds input
  dot : ∀ behind, input = Byte.dot :: behind → letterStands behind = false

/-- The text of further names of a wing, each behind a dot. -/
def wingTail (names : List Bytes) : Bytes :=
  names.flatMap (Tag.wingDot ++ ·)

@[simp] theorem wingTail_nil : wingTail [] = [] := rfl

@[simp] theorem wingTail_cons (name : Bytes) (names : List Bytes) :
    wingTail (name :: names) = Byte.dot :: (name ++ wingTail names) := rfl

theorem wingText_cons (first : Bytes) (more : List Bytes) :
    wingText (first :: more) = first ++ wingTail more :=
  intercalate_cons Tag.wingDot first more

theorem wingText_ne_nil {names : List Bytes} (h : ∀ name ∈ names, IsName name) (hne : names ≠ []) :
    wingText names ≠ [] := by
  cases names with
  | nil => exact absurd rfl hne
  | cons first more =>
    rw [wingText_cons]
    exact List.append_ne_nil_of_left_ne_nil (h first List.mem_cons_self).ne_nil _

/-- A dot or what ends a wing ends a name. -/
theorem nameEnds_wingTail (names : List Bytes) (h : WingEnds rest) :
    NameEnds (wingTail names ++ rest) := by
  cases names with
  | nil => exact h.name
  | cons name names =>
    intro b hb
    cases hb
    rfl

/-- **Where a letter stands a name is read.** -/
theorem identifier_of_letter (h : letterStands input = true) :
    identifier input = .ok (input.takeWhile isNameByte, input.dropWhile isNameByte) :=
  if_pos h

theorem namesBehindDots_of_letter (h : letterStands input = true) :
    namesBehindDots (Byte.dot :: input) = do
      let (names, rest) ← namesBehindDots (input.dropWhile isNameByte)
      return (input.takeWhile isNameByte :: names, rest) := by
  rw [namesBehindDots]
  split
  · rename_i hnone
    cases hnone
  · rename_i behind hsome
    cases hsome
    rw [if_pos h]
    split
    · rename_i f hname
      rw [identifier_of_letter h] at hname
      cases hname
    · rename_i name rest hname
      rw [identifier_of_letter h] at hname
      cases hname
      rfl

theorem namesBehindDots_of_ends (h : ∀ behind, input = Byte.dot :: behind →
    letterStands behind = false) : namesBehindDots input = .ok ([], input) := by
  rw [namesBehindDots]
  split
  · rfl
  · rename_i behind hsome
    rw [h behind (after?_eq_some_iff.1 hsome)]
    rfl

/-- **Reading further names cannot fail**: behind a dot with a letter a name is always read. -/
theorem exists_namesBehindDots (input : Bytes) :
    ∃ names rest, namesBehindDots input = .ok (names, rest) := by
  fun_induction namesBehindDots input with
  | case1 input hdot => exact ⟨[], input, rfl⟩
  | case2 input behind hdot hletter f hname =>
    rw [identifier_of_letter hletter] at hname
    cases hname
  | case3 input behind hdot hletter name rest hname ih =>
    obtain ⟨names, rest', hmore⟩ := ih
    rw [hmore]
    exact ⟨name :: names, rest', rfl⟩
  | case4 input behind hdot hletter => exact ⟨[], input, rfl⟩

/-- **What is taken for further names is their text**, and where it ends the wing ends. -/
theorem namesBehindDots_sound {names : List Bytes} (ends : NameEnds input)
    (h : namesBehindDots input = .ok (names, rest)) :
    (∀ name ∈ names, IsName name) ∧ input = wingTail names ++ rest ∧ WingEnds rest := by
  fun_induction namesBehindDots input generalizing names rest with
  | case1 input hdot =>
    cases h
    refine ⟨by simp, rfl, ends, ?_⟩
    rintro behind rfl
    cases hdot
  | case2 input behind hdot hletter f hname => cases h
  | case3 input behind hdot hletter name after hname ih =>
    obtain rfl : input = Byte.dot :: behind := after?_eq_some_iff.1 hdot
    obtain ⟨hisName, rfl, hends⟩ := identifier_eq_ok_iff.1 hname
    obtain ⟨⟨more, rest'⟩, hmore, hpure⟩ := bind_eq_ok_iff.1 h
    cases pure_eq_ok_iff.1 hpure
    obtain ⟨hnames, hsplit, hend⟩ := ih hends hmore
    refine ⟨List.forall_mem_cons.2 ⟨hisName, hnames⟩, ?_, hend⟩
    rw [wingTail_cons, List.cons_append, List.append_assoc, ← hsplit]
  | case4 input behind hdot hletter =>
    obtain rfl : input = Byte.dot :: behind := after?_eq_some_iff.1 hdot
    cases h
    refine ⟨by simp, rfl, ends, ?_⟩
    rintro other ⟨⟩
    simpa using hletter

/-- **Further names are taken to their end.** -/
theorem namesBehindDots_complete {names : List Bytes} (h : ∀ name ∈ names, IsName name)
    (ends : WingEnds rest) : namesBehindDots (wingTail names ++ rest) = .ok (names, rest) := by
  induction names with
  | nil => exact namesBehindDots_of_ends ends.dot
  | cons name names ih =>
    obtain ⟨⟨hletter, hname⟩, hnames⟩ := List.forall_mem_cons.1 h
    have hends := nameEnds_wingTail names ends
    rw [wingTail_cons, List.cons_append, List.append_assoc,
      namesBehindDots_of_letter (letterStands_append hletter _), takeWhile_run hname hends,
      dropWhile_run hname hends, ih hnames]
    rfl

/-! ## 3. Wings -/

/-- **A wing is the text of its names**, up to where no wing goes on. -/
theorem wing_eq_ok_iff {names : List Bytes} :
    wing input = .ok (names, rest) ↔ names ≠ [] ∧ (∀ name ∈ names, IsName name) ∧
      input = wingText names ++ rest ∧ WingEnds rest := by
  rw [wing, bind_eq_ok_iff]
  constructor
  · intro h
    obtain ⟨⟨first, behind⟩, hfirst, h⟩ := h
    obtain ⟨⟨more, rest'⟩, hmore, h⟩ := bind_eq_ok_iff.1 h
    cases pure_eq_ok_iff.1 h
    obtain ⟨hname, rfl, hends⟩ := identifier_eq_ok_iff.1 hfirst
    obtain ⟨hnames, hsplit, hend⟩ := namesBehindDots_sound hends hmore
    refine ⟨by simp, List.forall_mem_cons.2 ⟨hname, hnames⟩, ?_, hend⟩
    rw [wingText_cons, List.append_assoc, ← hsplit]
  · intro h
    obtain ⟨hne, hnames, rfl, hend⟩ := h
    cases names with
    | nil => exact absurd rfl hne
    | cons first more =>
      obtain ⟨hname, hmore⟩ := List.forall_mem_cons.1 hnames
      refine ⟨(first, wingTail more ++ rest), identifier_eq_ok_iff.2 ⟨hname, ?_, ?_⟩, ?_⟩
      · rw [wingText_cons, List.append_assoc]
      · exact nameEnds_wingTail more hend
      · exact bind_eq_ok_iff.2 ⟨_, namesBehindDots_complete hmore hend, rfl⟩

theorem wing_eq_error_iff {f : Failure} :
    wing input = .error f ↔ letterStands input = false ∧ f = .of .letter input := by
  rw [wing, bind_eq_error_iff, identifier_eq_error_iff]
  refine ⟨?_, .inl⟩
  intro h
  rcases h with h | ⟨⟨first, behind⟩, -, h⟩
  · exact h
  · obtain ⟨more, rest, hmore⟩ := exists_namesBehindDots behind
    rcases bind_eq_error_iff.1 h with hfails | ⟨q, -, hpure⟩
    · rw [hmore] at hfails
      cases hfails
    · exact absurd hpure pure_ne_error

/-! ## 4. Dots -/

/-- A dot behind the beginning of a name stands behind the name. -/
theorem dot_behind_name {name tail front behind : Bytes} (h : IsName name)
    (hsplit : name ++ tail = front ++ Byte.dot :: behind) :
    ∃ more, tail = more ++ Byte.dot :: behind := by
  rcases List.append_eq_append_iff.1 hsplit with ⟨more, -, htail⟩ | ⟨part, hname, hdot⟩
  · exact ⟨more, htail⟩
  · cases part with
    | nil => exact ⟨[], hdot.symm⟩
    | cons b part =>
      obtain ⟨rfl, -⟩ := List.cons.inj hdot
      have hbyte := h.2 Byte.dot (by simp [hname])
      cases hbyte

/-- Every dot among further names has a letter behind it. -/
theorem letterStands_behind_dot {names : List Bytes} (h : ∀ name ∈ names, IsName name)
    {front behind : Bytes} (hsplit : wingTail names = front ++ Byte.dot :: behind) :
    letterStands behind = true := by
  induction names generalizing front with
  | nil => simp at hsplit
  | cons name names ih =>
    obtain ⟨hname, hnames⟩ := List.forall_mem_cons.1 h
    rw [wingTail_cons] at hsplit
    cases front with
    | nil =>
      rw [← (List.cons.inj hsplit).2]
      exact letterStands_append hname.1 _
    | cons b front =>
      obtain ⟨more, hmore⟩ := dot_behind_name hname (List.cons.inj hsplit).2
      exact ih hnames hmore

/-- **A dot with no letter behind it is left by a wing in front of it.** -/
theorem dot_stays {names : List Bytes} (h : wing input = .ok (names, rest)) {front behind : Bytes}
    (hsplit : input = front ++ Byte.dot :: behind) (hletter : letterStands behind = false) :
    Byte.dot :: behind <:+ rest := by
  obtain ⟨hne, hnames, rfl, -⟩ := wing_eq_ok_iff.1 h
  rcases List.append_eq_append_iff.1 hsplit with ⟨more, -, hrest⟩ | ⟨part, htext, hdot⟩
  · exact ⟨more, hrest.symm⟩
  · cases part with
    | nil => exact ⟨[], hdot⟩
    | cons b part =>
      -- a dot in the text of the wing stands behind its first name, so a letter follows
      obtain rfl : Byte.dot = b := (List.cons.inj hdot).1
      have hbehind : behind = part ++ rest := (List.cons.inj hdot).2
      cases names with
      | nil => exact absurd rfl hne
      | cons first names =>
        obtain ⟨hfirst, hmore⟩ := List.forall_mem_cons.1 hnames
        rw [wingText_cons] at htext
        obtain ⟨more, htail⟩ := dot_behind_name hfirst htext
        have hstands := letterStands_append (letterStands_behind_dot hmore htail) rest
        rw [← hbehind, hletter] at hstands
        cases hstands

/-! ## 5. Wings of a document -/

/-- From the first offset up to the second one stands the text of a wing of these names, and there
    no wing goes on: neither does a byte of a name stand there nor a dot with a letter behind it. -/
structure Source.WingStands (s : Source) (start stop : Nat) (names : List Bytes) : Prop where
  nonempty : names ≠ []
  named : ∀ name ∈ names, IsName name
  forward : start ≤ stop
  inside : stop ≤ s.bytes.length
  text : (s.remaining start).take (stop - start) = wingText names
  noName : ∀ b ∈ s.byteAt? stop, isNameByte b = false
  noDot : s.byteAt? stop = some Byte.dot → letterStands (s.remaining (stop + 1)) = false

namespace Source

variable {s : Source} {start stop : Nat} {names : List Bytes}

/-- The offset behind a text that was passed is the one offset where what was left is left. -/
theorem offsetOf_eq_iff {text : Bytes} (h : s.remaining start = text ++ rest) (hne : text ≠ []) :
    s.offsetOf start rest = stop ↔
      start ≤ stop ∧ stop ≤ s.bytes.length ∧ rest = s.remaining stop := by
  constructor
  · rintro rfl
    have hlength := congrArg List.length h
    have hpos := List.length_pos_iff.2 hne
    rw [length_remaining, List.length_append] at hlength
    rw [offsetOf_append h, remaining_append h]
    exact ⟨Nat.le_add_right _ _, by omega, rfl⟩
  · rintro ⟨hforward, hinside, rfl⟩
    exact offsetOf_remaining hforward hinside

theorem wingEnds_iff : WingEnds (s.remaining stop) ↔
    (∀ b ∈ s.byteAt? stop, isNameByte b = false) ∧
      (s.byteAt? stop = some Byte.dot → letterStands (s.remaining (stop + 1)) = false) := by
  rw [← head?_remaining]
  constructor
  · intro h
    refine ⟨h.name, fun hdot => ?_⟩
    obtain ⟨behind, hbehind⟩ := List.head?_eq_some_iff.1 hdot
    exact remaining_cons hbehind ▸ h.dot behind hbehind
  · intro h
    refine ⟨h.1, fun behind hbehind => ?_⟩
    rw [← remaining_cons hbehind]
    exact h.2 (by rw [hbehind]; rfl)

theorem wingStands_iff : s.WingStands start stop names ↔
    start ≤ stop ∧ stop ≤ s.bytes.length ∧
      wing (s.remaining start) = .ok (names, s.remaining stop) := by
  constructor
  · intro h
    refine ⟨h.forward, h.inside, wing_eq_ok_iff.2 ⟨h.nonempty, h.named, ?_, ?_⟩⟩
    · rw [← h.text]
      exact s.remaining_split h.forward
    · exact wingEnds_iff.2 ⟨h.noName, h.noDot⟩
  · intro h
    obtain ⟨hforward, hinside, hread⟩ := h
    obtain ⟨hne, hnames, hsplit, hend⟩ := wing_eq_ok_iff.1 hread
    obtain ⟨hname, hdot⟩ := wingEnds_iff.1 hend
    rw [s.remaining_split hforward, List.append_cancel_right_eq] at hsplit
    exact ⟨hne, hnames, hforward, hinside, hsplit, hname, hdot⟩

end Source

namespace Document

variable {d : Document} {start stop : Nat} {names : List Bytes}

theorem wingAt_eq_ok_iff :
    d.wingAt start = .ok (names, stop) ↔ d.source.WingStands start stop names := by
  rw [Source.wingStands_iff, wingAt, Source.wingAt_eq, Source.read]
  cases hread : wing (d.source.remaining start) with
  | error f => simp
  | ok p =>
    obtain ⟨found, rest⟩ := p
    obtain ⟨hne, hnames, hsplit, -⟩ := wing_eq_ok_iff.1 hread
    have hstop : d.source.offsetOf start rest = stop ↔ _ :=
      Source.offsetOf_eq_iff hsplit (wingText_ne_nil hnames hne)
    simp only [Except.ok.injEq, Prod.mk.injEq, hstop]
    constructor
    · rintro ⟨rfl, hforward, hinside, rfl⟩
      exact ⟨hforward, hinside, rfl, rfl⟩
    · rintro ⟨hforward, hinside, rfl, rfl⟩
      exact ⟨rfl, hforward, hinside, rfl⟩

theorem wingAt_eq_error_iff {e : Report} :
    d.wingAt start = .error e ↔ letterStands (d.source.remaining start) = false ∧
      e = d.source.report .letter false start := by
  have hhere : d.source.reportOf start (.of .letter (d.source.remaining start)) =
      d.source.report .letter false start := by
    simp [Source.reportOf, Source.offsetOf, Failure.of, Cause.fatal]
  rw [wingAt, Source.wingAt_eq, Source.read]
  cases hread : wing (d.source.remaining start) with
  | error f =>
    obtain ⟨hnone, rfl⟩ := wing_eq_error_iff.1 hread
    simp only [Except.error.injEq, hhere, hnone, true_and]
    exact eq_comm
  | ok p =>
    simp only [reduceCtorEq, false_iff, not_and]
    intro hnone
    rw [wing_eq_error_iff.2 ⟨hnone, rfl⟩] at hread
    cases hread

/-- **A wing is read exactly where one stands**, from a letter up to where no wing goes on. Where no
    letter stands nothing is read, and the failure is not committed. A dot with no letter behind it
    is never passed. -/
theorem wingAt_iff_stands (d : Document) (start : Nat) :
    (∀ names stop, d.wingAt start = .ok (names, stop) ↔ d.source.WingStands start stop names) ∧
    (∀ e, d.wingAt start = .error e ↔ letterStands (d.source.remaining start) = false ∧
      e = d.source.report .letter false start) ∧
    ∀ names stop, d.wingAt start = .ok (names, stop) → ∀ dot, start ≤ dot →
      d.source.byteAt? dot = some Byte.dot → letterStands (d.source.remaining (dot + 1)) = false →
      stop ≤ dot := by
  refine ⟨fun names stop => wingAt_eq_ok_iff, fun e => wingAt_eq_error_iff, ?_⟩
  intro names stop hread dot hforward hdot hletter
  obtain ⟨-, hinside, hwing⟩ := Source.wingStands_iff.1 (wingAt_eq_ok_iff.1 hread)
  obtain ⟨behind, hbehind⟩ := Source.byteAt?_eq_some_iff.1 hdot
  rw [Source.remaining_cons hbehind] at hletter
  have hsplit := d.source.remaining_split hforward
  rw [hbehind] at hsplit
  have hlength := (dot_stays hwing hsplit hletter).length_le
  have hpos := congrArg List.length hbehind
  rw [← hbehind, Source.length_remaining, Source.length_remaining] at hlength
  rw [Source.length_remaining, List.length_cons] at hpos
  omega

/-- Two names, and a dot with a digit behind it. -/
def brokenWing : Document :=
  .ofBytes (ascii ['a', '-', '1', '.', 'b', '.', '9']) none {} .standard

theorem brokenWing_stands :
    brokenWing.source.WingStands 0 5 [ascii ['a', '-', '1'], ascii ['b']] where
  nonempty := List.cons_ne_nil _ _
  named := by
    refine List.forall_mem_cons.2 ⟨⟨rfl, List.all_eq_true.1 rfl⟩, ?_⟩
    exact List.forall_mem_singleton.2 ⟨rfl, List.all_eq_true.1 rfl⟩
  forward := Nat.zero_le 5
  inside := by decide
  text := rfl
  noName := by
    intro b hb
    cases hb
    rfl
  noDot := fun _ => rfl

theorem wingAt_iff_stands_brokenWing :
    brokenWing.wingAt 0 = .ok ([ascii ['a', '-', '1'], ascii ['b']], 5) ∧
      brokenWing.source.byteAt? 5 = some Byte.dot ∧
      letterStands (brokenWing.source.remaining 6) = false ∧
      ∀ names stop, brokenWing.wingAt 0 = .ok (names, stop) → stop ≤ 5 := by
  have hdot : brokenWing.source.byteAt? 5 = some Byte.dot := rfl
  have hdigit : letterStands (brokenWing.source.remaining 6) = false := rfl
  obtain ⟨hread, -, hstays⟩ := wingAt_iff_stands brokenWing 0
  exact ⟨(hread _ _).2 brokenWing_stands, hdot, hdigit,
    fun names stop h => hstays names stop h 5 (Nat.zero_le 5) hdot hdigit⟩

end Document

end HoonReader
