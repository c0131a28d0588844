import HoonReader.Proofs.Diagnosis

/-!
# What nesting costs

An application puts bytes of its own around its arguments: at least three in front of the first
one, a glyph and a parenthesis or a gap, and at least one behind the last one. So every level of
nesting is paid for in bytes of the input, whether reading fails or succeeds.

* `Pays`, `expression_pays`: a reader that goes too deep has passed three bytes for every level
  that was allowed;
* `Spells.cost`: a spelling has four bytes for every level, and one more;
* `Document.nesting_paid`: so it is at every offset of a document, and a document that is shorter
  than its limit costs never goes too deep.

On the way to the place where an expression goes too deep, arguments may have been read in front of
it. They only add to what was passed, because readers go forward.
-/

namespace HoonReader

open Twig

/-! ## 1. Going too deep -/

/-- Where the reader goes too deep it has passed `cost` bytes, and it never goes back. -/
structure Pays {α : Type} (cost : Nat) (reader : Reader α) : Prop where
  forward : Forward reader
  passed : ∀ ⦃input : Bytes⦄ ⦃f : Failure⦄, reader input = .error f →
    f.cause.kind = .nestingTooDeep → f.place.length + cost ≤ input.length

/-- A gap takes at least one byte. -/
theorem gap_length_lt {input rest : Bytes} (h : gap input = .ok rest) :
    rest.length < input.length := by
  obtain ⟨text, hgap, rfl⟩ := gap_sound h
  have hpos := List.length_pos_iff.2 hgap.1
  rw [List.length_append]
  omega

/-- A piece of a gap is missing for reasons of its own. -/
theorem ReadsPiece.kind_ne {input : Bytes} {f : Failure} (h : ReadsPiece input (.error f)) :
    f.cause.kind ≠ .nestingTooDeep := by
  cases h with
  | openComment inside text => exact nofun
  | tab blank text => exact nofun
  | light blank ends tab light noComment text => exact nofun

theorem gap_kind_ne {input : Bytes} {f : Failure} (h : gap input = .error f) :
    f.cause.kind ≠ .nestingTooDeep := by
  obtain ⟨place, hpiece⟩ := gap_error_piece h
  exact hpiece.kind_ne

section Arguments

variable {α : Type} {cost : Nat} {reader : Reader α} {readers : List (Reader α)}

theorem wideMore_pays (h : ∀ r ∈ readers, Pays cost r) : Pays cost (wideMore readers) where
  forward := wideMore_forward fun r hr => (h r hr).forward
  passed := by
    intro input f hf hkind
    induction readers generalizing input with
    | nil =>
      obtain ⟨-, rfl⟩ := wideMore_nil_eq_error_iff.1 hf
      cases hkind
    | cons r readers ih =>
      obtain ⟨hr, hreaders⟩ := List.forall_mem_cons.1 h
      rcases wideMore_cons_eq_error_iff.1 hf with ⟨-, rfl⟩ | ⟨a, rfl, he | ⟨value, b, hv, hm⟩⟩
      · cases hkind
      · have hpassed := hr.passed he hkind
        rw [List.length_append]
        omega
      · -- the argument that was read in front of the place only adds to what was passed
        have hpassed := ih hreaders hm
        have hle := hr.forward.length_le hv
        rw [List.length_append]
        omega

theorem wideForm_pays (first : Pays cost reader) (h : ∀ r ∈ readers, Pays cost r) :
    Pays cost (wideForm reader readers) where
  forward := wideForm_forward first.forward fun r hr => (h r hr).forward
  passed := by
    intro input f hf hkind
    rcases wideForm_eq_error_iff.1 hf with he | ⟨value, a, hv, hm⟩
    · exact first.passed he hkind
    · have hpassed := (wideMore_pays h).passed hm hkind
      have hle := first.forward.length_le hv
      omega

theorem tallMore_pays (h : ∀ r ∈ readers, Pays cost r) : Pays cost (tallMore readers) where
  forward := tallMore_forward fun r hr => (h r hr).forward
  passed := by
    intro input f hf hkind
    induction readers generalizing input with
    | nil =>
      obtain ⟨-, rfl⟩ := tallMore_nil_eq_error_iff.1 hf
      cases hkind
    | cons r readers ih =>
      obtain ⟨hr, hreaders⟩ := List.forall_mem_cons.1 h
      rcases tallMore_cons_eq_error_iff.1 hf with he | ⟨value, a, hv, hg | ⟨b, hg, hm⟩⟩
      · exact hr.passed he hkind
      · exact absurd hkind (gap_kind_ne hg)
      · have hpassed := ih hreaders hm
        have hle := hr.forward.length_le hv
        have hlt := gap_length_lt hg
        omega

end Arguments

/-- A parenthesis or a gap stands in front of the arguments. -/
theorem formBody_pays {cost : Nat} {reader : Reader (Twig Extent)} (h : Pays cost reader)
    (form : Form) : Pays (cost + 1) (formBody (Grammar.reader reader) form) where
  forward := formBody_forward h.forward form
  passed := by
    intro input f hf hkind
    have hreaders := form.forall_moreReaders h
    rcases formBody_eq_error_iff.1 hf with ⟨a, rfl, hw⟩ | ⟨-, hg | ⟨a, hg, ht⟩⟩
    · have hpassed := (wideForm_pays h hreaders).passed hw hkind
      have hopen : Tag.wideOpen.length = 1 := rfl
      rw [List.length_append]
      omega
    · exact absurd hkind (gap_kind_ne hg)
    · have hpassed := (tallMore_pays (List.forall_mem_cons.2 ⟨h, hreaders⟩)).passed ht hkind
      have hlt := gap_length_lt hg
      omega

/-- **Going too deep takes three bytes for every level that is allowed.** -/
theorem expression_pays (table : Table) (limit : Int) (room : Nat) :
    Pays (3 * room) (expression table limit room) where
  forward := expression_forward table limit room
  passed := by
    induction room with
    | zero =>
      intro input f hf _
      cases hf
      exact Nat.le_refl _
    | succ n ih =>
      intro input f hf hkind
      have hbelow : Pays (3 * n) (expression table limit n) :=
        ⟨expression_forward table limit n, ih⟩
      rcases expression_eq_error_iff.1 hf with ⟨form, -, body, e, rfl, hb, rfl⟩ | ⟨-, -, rfl⟩
      · have hpassed := (formBody_pays hbelow form).passed hb hkind
        have hglyph : form.glyph.bytes.length = 2 := rfl
        rw [List.length_append, Failure.commit_place]
        omega
      · cases hkind

/-! ## 2. The length of a spelling -/

theorem length_le_flatMap {α : Type} {a : α} {arguments : List α} (h : a ∈ arguments)
    (text : α → Bytes) : (text a).length ≤ (arguments.flatMap text).length := by
  rw [List.flatMap_def]
  exact (List.infix_of_mem_flatten (List.mem_map_of_mem h)).length_le

theorem length_le_wideText {a first : Spelling} {more : List Spelling} (h : a ∈ first :: more) :
    a.text.length ≤ (wideText (first :: more)).length := by
  rw [wideText_cons, List.length_append]
  rcases List.mem_cons.1 h with rfl | h
  · exact Nat.le_add_right _ _
  · have htail : (Tag.wideSeparator ++ a.text).length ≤ (wideTail more).length :=
      length_le_flatMap h fun a => Tag.wideSeparator ++ a.text
    rw [List.length_append] at htail
    omega

theorem length_le_tallText {a : TallSpelling} {arguments : List TallSpelling}
    (h : a ∈ arguments) : a.text.length ≤ (tallText arguments).length := by
  have htext : (a.text ++ a.gap).length ≤ (tallText arguments).length :=
    length_le_flatMap h fun a => a.text ++ a.gap
  rw [List.length_append] at htext
  omega

/-- An application costs four bytes more than its arguments need together. -/
theorem nesting_apply_cost {α : Type} {r : Rune} (hr : r.glyph?.isSome) (twig : α → BareTwig)
    {first : α} {more : List α} (length : more.length + 1 = r.arity) {size : Nat}
    (arguments : ∀ a ∈ first :: more, 4 * (twig a).nesting + 1 ≤ size) :
    4 * (apply r (fold (twig first) (more.map twig)) none).nesting + 1 ≤ size + 4 := by
  have hfirst := arguments first List.mem_cons_self
  -- the deepest nesting that fits into so many bytes bounds every argument
  have hbelow : ∀ a ∈ first :: more, (twig a).nesting < (size - 1) / 4 + 1 := by
    intro a ha
    have hcost := arguments a ha
    omega
  have hnesting := (nesting_apply_lt_iff hr twig first more length).2 hbelow
  omega

/-- **A spelling has four bytes for every level of nesting, and one more.** -/
theorem Spells.cost {table : Table} {text : Bytes} {t : BareTwig} (h : Spells table text t) :
    4 * t.nesting + 1 ≤ text.length := by
  induction h with
  | literal nonempty digits => exact List.length_pos_iff.2 nonempty
  | @wide form first more registered length arguments ih =>
    have happly := nesting_apply_cost form.glyph_isSome (·.twig) length fun a ha =>
      (ih a ha).trans (length_le_wideText ha)
    have hglyph : form.glyph.bytes.length = 2 := rfl
    have hwide : Tag.wideOpen.length = 1 ∧ Tag.wideClose.length = 1 := ⟨rfl, rfl⟩
    simp only [List.length_append]
    omega
  | @tall form opening first more registered length opened gaps arguments ih =>
    have happly := nesting_apply_cost form.glyph_isSome (·.twig) length fun a ha =>
      (ih a ha).trans (length_le_tallText ha)
    have hglyph : form.glyph.bytes.length = 2 := rfl
    have hend : Tag.tallEnd.length = 2 := rfl
    simp only [List.length_append]
    omega

/-! ## 3. Documents -/

namespace Document

variable {d : Document} {start : Nat} {depth : Int}

theorem expressionAt_tooDeep_cost (inside : start ≤ d.source.bytes.length) {e : Report}
    (h : d.expressionAt start depth = .error e) (kind : e.cause.kind = .nestingTooDeep) :
    start + 3 * (d.limit + 1 - depth) ≤ e.offset ∧ e.offset ≤ d.source.bytes.length := by
  obtain ⟨f, hf, rfl⟩ := expressionAt_eq_error_iff.1 h
  have hpassed := (expression_pays d.table d.limit (room d.limit depth)).passed hf kind
  have hlength := d.source.length_remaining start
  have hroom : d.limit + 1 - depth ≤ room d.limit depth := Int.self_le_toNat _
  show _ ≤ (d.source.offsetOf start f.place : Int) ∧ d.source.offsetOf start f.place ≤ _
  unfold Source.offsetOf
  omega

/-- **Every level of nesting is paid for in bytes.** Where an expression that is read at an offset
    goes too deep, three bytes were passed for every level that was still allowed. What is read has
    four bytes for every level that it is nested, and one more. So a document with less than three
    bytes for every level that is allowed, and for one more, never goes too deep, whatever it
    contains; reading it may at most exhaust the stack. -/
theorem nesting_paid (d : Document) {start : Nat} (inside : start ≤ d.source.bytes.length)
    (depth : Int) :
    (∀ e, d.expressionAt start depth = .error e → e.cause.kind = .nestingTooDeep →
      start + 3 * (d.limit + 1 - depth) ≤ e.offset ∧ e.offset ≤ d.source.bytes.length) ∧
    (∀ r, d.expressionAt start depth = .ok r →
      start + 4 * r.twig.nesting + 1 ≤ r.stop ∧ r.stop ≤ d.source.bytes.length) ∧
    (d.source.bytes.length < 3 * (d.limit + 1) →
      (∀ e, d.expressionAt 0 0 = .error e → e.cause.kind ≠ .nestingTooDeep) ∧
      ∀ e, d.parse = .error e → e.cause.kind = .nestingTooDeep → e = d.exhausted) := by
  refine ⟨fun e => expressionAt_tooDeep_cost inside, ?_, ?_⟩
  · intro r h
    obtain ⟨hle, hlen, spells, -, -⟩ := expressionAt_sound h
    have hcost := spells.cost
    rw [Twig.nesting_bare, List.length_take] at hcost
    omega
  · intro hshort
    have hshallow : ∀ e, d.expressionAt 0 0 = .error e → e.cause.kind ≠ .nestingTooDeep := by
      intro e he hkind
      obtain ⟨hoffset, hinside⟩ := expressionAt_tooDeep_cost (Nat.zero_le _) he hkind
      omega
    refine ⟨hshallow, fun e he hkind => ?_⟩
    rcases d.parse_eq_expressionAt with hparse | hparse
    · exact absurd hkind (hshallow e (hparse.symm.trans he))
    · cases hparse.symm.trans he
      rfl

/-- An application inside of another one, under a limit that its nine bytes can not reach. -/
def outOfReach : Document :=
  { tooNested with limit := 3 }

/-- Both prices are paid exactly where the wide form is used throughout. -/
theorem nesting_paid_tooNested :
    tooNested.expressionAt 0 0 = .error tooNestedReport ∧
      3 * (tooNested.limit + 1) ≤ tooNestedReport.offset ∧ tooNestedReport.offset = 3 ∧
      (∃ r, outOfReach.expressionAt 0 0 = .ok r ∧ r.twig.nesting = 2 ∧
        4 * r.twig.nesting + 1 ≤ r.stop ∧ r.stop = 9) ∧
      outOfReach.source.bytes.length < 3 * (outOfReach.limit + 1) ∧
      ∀ e, outOfReach.expressionAt 0 0 = .error e → e.cause.kind ≠ .nestingTooDeep := by
  have hfails : tooNested.expressionAt 0 0 = .error tooNestedReport := rfl
  have hread : (outOfReach.expressionAt 0 0).toOption.map (fun r => (r.twig.nesting, r.stop)) =
      some (2, 9) := by decide +kernel
  have hshort : outOfReach.source.bytes.length < 3 * (outOfReach.limit + 1) := by decide
  obtain ⟨hdeep, -, -⟩ := nesting_paid tooNested (Nat.zero_le _) 0
  obtain ⟨-, hcost, hshallow⟩ := nesting_paid outOfReach (Nat.zero_le _) 0
  obtain ⟨hpassed, -⟩ := hdeep tooNestedReport hfails rfl
  refine ⟨hfails, hpassed, rfl, ?_, hshort, (hshallow hshort).1⟩
  cases hr : outOfReach.expressionAt 0 0 with
  | error e =>
    rw [hr] at hread
    cases hread
  | ok r =>
    rw [hr] at hread
    obtain ⟨hnesting, hstop⟩ := Prod.mk.inj (Option.some.inj hread)
    have hle := (hcost r hr).1
    exact ⟨r, rfl, hnesting, by omega, hstop⟩

end Document

end HoonReader
