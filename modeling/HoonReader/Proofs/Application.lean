import HoonReader.Proofs.Grammar

/-!
# What stands around the arguments of an application

Behind a glyph the two forms differ only in what stands around the arguments: parentheses and single
spaces in the wide form, gaps and the end marker in the tall one. What stands there does not depend
on the arguments, so an argument can be looked at, or exchanged, without the others.

* `ReadInTurn`: arguments are read one behind the other, each behind its separator;
* `formBody_inTurn`: this is how everything behind a glyph is read;
* `Separators.spelledIn`: the same separators around any arguments that are spelled give a spelling;
* `expression_fill`: an argument of what was read was itself read where it stands, and any other
  spelling may be put there.
-/

namespace HoonReader

open Twig

/-! ## 1. Arguments in turn -/

/-- The texts, each behind its separator. -/
def woven (separators texts : List Bytes) : Bytes :=
  (List.zipWith (· ++ ·) separators texts).flatten

@[simp] theorem woven_nil (texts : List Bytes) : woven [] texts = [] := rfl

@[simp] theorem woven_cons (separator text : Bytes) (separators texts : List Bytes) :
    woven (separator :: separators) (text :: texts) =
      separator ++ text ++ woven separators texts := rfl

theorem woven_append {separators texts : List Bytes} (length : separators.length = texts.length)
    (separators' texts' : List Bytes) :
    woven (separators ++ separators') (texts ++ texts') =
      woven separators texts ++ woven separators' texts' := by
  rw [woven, List.zipWith_append length, List.flatten_append]
  rfl

/-- The values are read one behind the other, each behind its separator. -/
inductive ReadInTurn (reader : Reader (Twig Extent)) :
    List Bytes → Bytes → List (Twig Extent) → Bytes → Prop where
  | nil {input : Bytes} : ReadInTurn reader [] input [] input
  | cons {separator start stop rest : Bytes} {separators : List Bytes} {value : Twig Extent}
      {values : List (Twig Extent)} (first : reader start = .ok (value, stop))
      (more : ReadInTurn reader separators stop values rest) :
      ReadInTurn reader (separator :: separators) (separator ++ start) (value :: values) rest

section InTurn

variable {table : Table} {room : Nat} {reader : Reader (Twig Extent)}
  {readers : List (Reader (Twig Extent))} {separators : List Bytes} {input rest : Bytes}
  {values : List (Twig Extent)}

theorem ReadInTurn.length (h : ReadInTurn reader separators input values rest) :
    separators.length = values.length := by
  induction h with
  | nil => rfl
  | cons first more ih => simp [ih]

/-- Every value that is read in turn is read at its place. -/
theorem ReadInTurn.split {before behind : List (Twig Extent)} {t : Twig Extent}
    (h : ReadInTurn reader separators input (before ++ t :: behind) rest) :
    ∃ front separator back start stop, separators = front ++ separator :: back ∧
      ReadInTurn reader front input before (separator ++ start) ∧
      reader start = .ok (t, stop) ∧ ReadInTurn reader back stop behind rest := by
  induction before generalizing separators input with
  | nil =>
    cases h with
    | cons first more => exact ⟨[], _, _, _, _, rfl, .nil, first, more⟩
  | cons value before ih =>
    cases h with
    | cons first more =>
      obtain ⟨front, separator, back, start, stop, rfl, hfront, ht, hback⟩ := ih more
      exact ⟨_ :: front, separator, back, start, stop, rfl, .cons first hfront, ht, hback⟩

/-- What is read in turn is spelled, behind the same separators. -/
theorem ReadInTurn.spelled (sound : Sound table room reader)
    (h : ReadInTurn reader separators input values rest) : ∃ spellings : List Spelling,
      spellings.map (·.twig) = values.map Twig.bare ∧ spellings.length = separators.length ∧
      (∀ a ∈ spellings, SpelledIn table room a.text a.twig) ∧
      input = woven separators (spellings.map (·.text)) ++ rest := by
  induction h with
  | nil => exact ⟨[], rfl, rfl, by simp, rfl⟩
  | @cons separator start stop rest separators value values first more ih =>
    obtain ⟨text, hspelled, rfl, -⟩ := sound first
    obtain ⟨spellings, hmap, hlen, hall, rfl⟩ := ih
    refine ⟨⟨text, value.bare⟩ :: spellings, by simp [hmap], by simp [hlen], ?_, by simp⟩
    exact List.forall_mem_cons.2 ⟨hspelled, hall⟩

/-! ## 2. The separators of the two forms -/

/-- What stands in front of each argument of an application, and what stands behind the last. -/
inductive Separators : List Bytes → Bytes → Prop where
  | wide (more : Nat) :
      Separators (Tag.wideOpen :: List.replicate more Tag.wideSeparator) Tag.wideClose
  | tall {opening last : Bytes} {gaps : List Bytes} (opened : IsGap opening)
      (between : ∀ g ∈ gaps, IsGap g) (closed : IsGap last) :
      Separators (opening :: gaps) (last ++ Tag.tallEnd)

theorem Separators.ne_nil {closing : Bytes} (h : Separators separators closing) :
    (∀ s ∈ separators, s ≠ []) ∧ closing ≠ [] := by
  cases h with
  | wide more =>
    refine ⟨List.forall_mem_cons.2 ⟨List.cons_ne_nil _ _, ?_⟩, List.cons_ne_nil _ _⟩
    intro s hs
    rw [List.eq_of_mem_replicate hs]
    exact List.cons_ne_nil _ _
  | tall opened between closed =>
    refine ⟨List.forall_mem_cons.2 ⟨opened.1, fun g hg => (between g hg).1⟩, ?_⟩
    exact List.append_ne_nil_of_left_ne_nil closed.1 _

theorem wideMore_inTurn (same : ∀ r ∈ readers, r = reader)
    (h : wideMore readers input = .ok (values, rest)) :
    ReadInTurn reader (List.replicate readers.length Tag.wideSeparator) input values
      (Tag.wideClose ++ rest) := by
  induction readers generalizing input values with
  | nil =>
    obtain ⟨rfl, rfl⟩ := wideMore_nil_eq_ok_iff.1 h
    exact .nil
  | cons r readers ih =>
    obtain ⟨rfl, hreaders⟩ := List.forall_mem_cons.1 same
    obtain ⟨value, more, a, b, rfl, hv, hm, rfl⟩ := wideMore_cons_eq_ok_iff.1 h
    exact .cons hv (ih hreaders hm)

/-- The gap behind an argument of the tall form is what stands in front of the next one. -/
theorem tallMore_inTurn {r : Reader (Twig Extent)} (same : ∀ r' ∈ r :: readers, r' = reader)
    {opening : Bytes} (h : tallMore (r :: readers) input = .ok (values, rest)) :
    ∃ gaps last, gaps.length = readers.length ∧ (∀ g ∈ gaps, IsGap g) ∧ IsGap last ∧
      ReadInTurn reader (opening :: gaps) (opening ++ input) values
        (last ++ Tag.tallEnd ++ rest) := by
  induction readers generalizing r input values opening with
  | nil =>
    obtain ⟨rfl, -⟩ := List.forall_mem_cons.1 same
    obtain ⟨value, more, a, b, hv, hg, hm, rfl⟩ := tallMore_cons_eq_ok_iff.1 h
    obtain ⟨rfl, rfl⟩ := tallMore_nil_eq_ok_iff.1 hm
    obtain ⟨last, hlast, rfl⟩ := gap_sound hg
    refine ⟨[], last, rfl, by simp, hlast, .cons hv ?_⟩
    rw [List.append_assoc]
    exact .nil
  | cons r' readers ih =>
    obtain ⟨rfl, hsame⟩ := List.forall_mem_cons.1 same
    obtain ⟨value, more, a, b, hv, hg, hm, rfl⟩ := tallMore_cons_eq_ok_iff.1 h
    obtain ⟨between, hbetween, rfl⟩ := gap_sound hg
    obtain ⟨gaps, last, hlen, hgaps, hlast, hturn⟩ := ih hsame hm
    exact ⟨between :: gaps, last, congrArg Nat.succ hlen,
      List.forall_mem_cons.2 ⟨hbetween, hgaps⟩, hlast, .cons hv hturn⟩

/-- **Behind a glyph the arguments are read in turn**, as many as the rune takes. -/
theorem formBody_inTurn {form : Form} {first : Twig Extent} {more : List (Twig Extent)}
    (h : formBody (Grammar.reader reader) form input = .ok ((first, more), rest)) :
    ∃ separators closing, Separators separators closing ∧
      separators.length = form.rune.arity ∧
      ReadInTurn reader separators input (first :: more) (closing ++ rest) := by
  have hsame := form.forall_moreReaders (p := (· = reader)) rfl
  have harity := form.length_moreReaders reader
  rcases formBody_eq_ok_iff.1 h with ⟨a, rfl, hw⟩ | ⟨-, a, hg, ht⟩
  · obtain ⟨b, hfirst, hmore⟩ := wideForm_eq_ok_iff.1 hw
    refine ⟨_, _, .wide _, ?_, .cons hfirst (wideMore_inTurn hsame hmore)⟩
    rw [List.length_cons, List.length_replicate, harity]
  · obtain ⟨opening, hopening, rfl⟩ := gap_sound hg
    obtain ⟨gaps, last, hlen, hgaps, hlast, hturn⟩ :=
      tallMore_inTurn (List.forall_mem_cons.2 ⟨rfl, hsame⟩) ht
    refine ⟨_, _, .tall hopening hgaps hlast, ?_, hturn⟩
    rw [List.length_cons, hlen, harity]

/-! ## 3. Other arguments between the same separators -/

theorem woven_wide {count : Nat} {more : List Spelling} (length : count = more.length) :
    woven (List.replicate count Tag.wideSeparator) (more.map (·.text)) = wideTail more := by
  subst length
  induction more with
  | nil => rfl
  | cons a more ih =>
    rw [List.length_cons, List.replicate_succ, List.map_cons, woven_cons, ih, wideTail_cons]

/-- Each text of the tall form with the gap behind it: that in front of the next one, or the
    last. -/
theorem exists_tallSpellings {last : Bytes} {gaps : List Bytes} (first : Spelling)
    {more : List Spelling} (length : gaps.length = more.length)
    (between : ∀ g ∈ gaps, IsGap g) (closed : IsGap last) :
    ∃ (head : TallSpelling) (tail : List TallSpelling), head.toSpelling = first ∧
      tail.map (·.toSpelling) = more ∧ (∀ a ∈ head :: tail, IsGap a.gap) ∧
      tallText (head :: tail) = first.text ++ woven gaps (more.map (·.text)) ++ last := by
  induction more generalizing first gaps with
  | nil =>
    rw [List.length_eq_zero_iff.1 length]
    exact ⟨⟨first, last⟩, [], rfl, rfl, by simpa using closed, by simp⟩
  | cons second more ih =>
    cases gaps with
    | nil => cases length
    | cons g gaps =>
      obtain ⟨hg, hgaps⟩ := List.forall_mem_cons.1 between
      obtain ⟨head, tail, rfl, rfl, hall, htext⟩ := ih second (by simpa using length) hgaps
      refine ⟨⟨first, g⟩, head :: tail, rfl, rfl, List.forall_mem_cons.2 ⟨hg, hall⟩, ?_⟩
      rw [tallText_cons, htext]
      simp

/-- **The separators of an application go with any arguments**, if there are as many as the rune
    takes and all are spelled. -/
theorem Separators.spelledIn {closing : Bytes} (h : Separators separators closing) {form : Form}
    (registered : form ∈ table.forms) {first : Spelling} {more : List Spelling}
    (arity : more.length + 1 = form.rune.arity) (length : separators.length = more.length + 1)
    (arguments : ∀ a ∈ first :: more, SpelledIn table room a.text a.twig) :
    SpelledIn table (room + 1)
      (form.glyph.bytes ++ woven separators ((first :: more).map (·.text)) ++ closing)
      (apply form.rune (fold first.twig (more.map (·.twig))) none) := by
  cases h with
  | wide count =>
    have hcount : count = more.length := by simpa using length
    have hs := spelledIn_wide registered first arity arguments
    rw [List.map_cons, woven_cons, woven_wide hcount]
    simpa [wideText_cons] using hs
  | @tall opening last gaps opened between closed =>
    have hlength : gaps.length = more.length := by simpa using length
    obtain ⟨head, tail, rfl, rfl, hgaps, htext⟩ :=
      exists_tallSpellings first hlength between closed
    have hall : ∀ a ∈ head :: tail, SpelledIn table room a.text a.twig ∧ IsGap a.gap := by
      intro a ha
      refine ⟨arguments a.toSpelling ?_, hgaps a ha⟩
      rw [← List.map_cons]
      exact List.mem_map.2 ⟨a, ha, rfl⟩
    have hs := spelledIn_tall registered head (by simpa using arity) opened hall
    rw [htext] at hs
    rw [List.map_map]
    simpa [Function.comp_def] using hs

end InTurn

/-! ## 4. One argument of an expression that was read -/

section Fill

variable {σ : Type} {table : Table} {limit : Int} {n : Nat} {input rest : Bytes}

/-- The frame is the application of a rune with a glyph, with one place left out of as many as the
    rune takes arguments. -/
structure Twig.Frame.Applies (f : Frame σ) : Prop where
  fits : f.Fits
  glyph : f.rune.glyph?.isSome

theorem Twig.Frame.fill_eq (f : Frame σ) (t : Twig σ) : ∃ first more,
    f.before ++ t :: f.behind = first :: more ∧
      f.fill t = apply f.rune (fold first more) f.note := by
  obtain ⟨r, before, behind, note⟩ := f
  cases before with
  | nil => exact ⟨t, behind, rfl, rfl⟩
  | cons first before => exact ⟨first, _, rfl, rfl⟩

/-- Argument lists of one length are told apart when they are folded. -/
theorem Twig.fold_inj {first first' : Twig σ} {more more' : List (Twig σ)}
    (length : more.length = more'.length) (h : fold first more = fold first' more') :
    first :: more = first' :: more' := by
  have hunfold := unfoldMore_fold first more
  rw [h, length, unfoldMore_fold] at hunfold
  exact (Except.ok.inj hunfold).symm

/-- What is read carries the extent that was read. -/
theorem expression_note {room : Nat} {t : Twig Extent}
    (h : expression table limit room input = .ok (t, rest)) : t.note? = some ⟨input, rest⟩ := by
  cases room with
  | zero => cases h
  | succ n =>
    rcases expression_eq_ok_iff.1 h with ⟨form, hform, body, first, more, rfl, hb, rfl⟩ |
      ⟨hd, rfl, rfl⟩
    · rfl
    · rfl

/-- An application with one argument left out is spelled around any argument that is spelled. -/
theorem Separators.spelledIn_fill {front back : List Bytes} {separator closing : Bytes}
    (h : Separators (front ++ separator :: back) closing) {form : Form}
    (registered : form ∈ table.forms) {f : Frame Extent} (rune : f.rune = form.rune)
    (fits : f.Fits) {before behind : List Spelling}
    (hbefore : before.map (·.twig) = f.before.map Twig.bare ∧ before.length = front.length ∧
      ∀ a ∈ before, SpelledIn table n a.text a.twig)
    (hbehind : behind.map (·.twig) = f.behind.map Twig.bare ∧ behind.length = back.length ∧
      ∀ a ∈ behind, SpelledIn table n a.text a.twig)
    {text : Bytes} {u : BareTwig} (spelled : SpelledIn table n text u) :
    SpelledIn table (n + 1)
      (form.glyph.bytes ++ woven front (before.map (·.text)) ++ separator ++ text ++
        (woven back (behind.map (·.text)) ++ closing)) (f.bare.fill u) := by
  obtain ⟨hbeforeMap, hbeforeLength, hbeforeAll⟩ := hbefore
  obtain ⟨hbehindMap, hbehindLength, hbehindAll⟩ := hbehind
  obtain ⟨first, more, hlist, hfill⟩ := f.bare.fill_eq u
  obtain ⟨a, others, hargs⟩ : ∃ a others, before ++ ⟨text, u⟩ :: behind = a :: others :=
    List.exists_cons_of_ne_nil (List.append_ne_nil_of_right_ne_nil _ (List.cons_ne_nil _ _))
  have hmap : (a :: others).map (·.twig) = first :: more := by
    rw [← hargs, ← hlist, List.map_append, List.map_cons, hbeforeMap, hbehindMap]
    rfl
  obtain ⟨rfl, rfl⟩ := List.cons.inj hmap
  have hall : ∀ b ∈ a :: others, SpelledIn table n b.text b.twig := by
    rw [← hargs]
    exact List.forall_mem_append.2 ⟨hbeforeAll, List.forall_mem_cons.2 ⟨spelled, hbehindAll⟩⟩
  have hlength : (front ++ separator :: back).length = others.length + 1 := by
    rw [← List.length_cons, ← hargs]
    simp [hbeforeLength, hbehindLength]
  have harity : others.length + 1 = form.rune.arity := by
    have hfits : f.before.length + f.behind.length + 1 = f.rune.arity := fits
    have hbeforeBare := congrArg List.length hbeforeMap
    have hbehindBare := congrArg List.length hbehindMap
    simp only [List.length_map] at hbeforeBare hbehindBare
    rw [← rune, ← hfits, ← hlength]
    simp only [List.length_append, List.length_cons]
    omega
  have hs := h.spelledIn registered harity hlength hall
  rw [← hargs, List.map_append, woven_append (by simp [hbeforeLength])] at hs
  rw [hfill]
  show SpelledIn table (n + 1) _ (apply f.rune _ none)
  rw [rune]
  simpa using hs

/-- **An argument of what was read was read where it stands, and another one may be put there.** -/
theorem expression_fill {f : Frame Extent} (applies : f.Applies) {t : Twig Extent}
    (h : expression table limit (n + 1) input = .ok (f.fill t, rest)) :
    ∃ front back start stop, input = front ++ start ∧ stop = back ++ rest ∧
      expression table limit n start = .ok (t, stop) ∧
      ∀ text u, SpelledIn table n text u →
        SpelledIn table (n + 1) (front ++ text ++ back) (f.bare.fill u) := by
  obtain ⟨first, more, hlist, hfill⟩ := f.fill_eq t
  rw [hfill] at h
  have hlength := congrArg List.length hlist
  simp only [List.length_append, List.length_cons] at hlength
  have hfits := applies.fits
  rcases expression_eq_ok_iff.1 h with ⟨form, hform, body, first', more', rfl, hb, heq⟩ |
    ⟨-, heq, -⟩
  · obtain ⟨separators, closing, hseparators, harity, hturn⟩ := formBody_inTurn hb
    have hrune : f.rune = form.rune := by
      injection heq with hhead
      exact Twig.rune.inj hhead
    have hfold : fold first more = fold first' more' := by
      injection heq
    have hturnLength := hturn.length
    rw [Frame.Fits, hrune, ← harity, hturnLength, List.length_cons] at hfits
    have hall := fold_inj (by omega) hfold
    rw [← hall, ← hlist] at hturn
    obtain ⟨front, separator, back, start, stop, rfl, hbefore, ht, hbehind⟩ := hturn.split
    obtain ⟨earlier, hearlier, hearlierLength, hearlierAll, rfl⟩ :=
      hbefore.spelled (expression_sound table limit n)
    obtain ⟨later, hlater, hlaterLength, hlaterAll, rfl⟩ :=
      hbehind.spelled (expression_sound table limit n)
    refine ⟨form.glyph.bytes ++ woven front (earlier.map (·.text)) ++ separator,
      woven back (later.map (·.text)) ++ closing, start, _, by simp, by simp, ht, ?_⟩
    intro text u hs
    exact hseparators.spelledIn_fill hform hrune applies.fits
      ⟨hearlier, hearlierLength, hearlierAll⟩ ⟨hlater, hlaterLength, hlaterAll⟩ hs
  · -- a literal applies a rune without a glyph
    have hrune : f.rune = .dtzy := by
      injection heq with hhead
      exact Twig.rune.inj hhead
    have hglyph := applies.glyph
    rw [hrune] at hglyph
    cases hglyph

end Fill

end HoonReader
