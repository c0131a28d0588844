import HoonReader.Proofs.Choice
import HoonReader.Proofs.Gap

/-!
# What more room changes

With more room the reader of expressions takes the same steps as with less, up to the first
expression that lies too deep for the smaller room. There the one with less room fails, and the
other one goes on from that very place.

* `Forward`, `expression_forward`: what a reader leaves, be it behind a result or at a failure, is
  the end of its input;
* `Outruns`, `Outruns.bind`: two outcomes are the same, or the first one went too deep and the
  second one got at least as far; this is kept from step to step, because every step goes forward;
* `expression_outruns`: so it is for expressions.
-/

namespace HoonReader

/-! ## 1. Going forward -/

/-- What an outcome leaves of the input: what a result leaves, or what is left at the failure. -/
def left {α : Type} (rest : α → Bytes) : Except Failure α → Bytes
  | .ok a => rest a
  | .error f => f.place

/-- A skipper leaves the end of its input. -/
def Skipper.Forward (skip : Skipper) : Prop :=
  ∀ input, left id (skip input) <:+ input

/-- A reader leaves the end of its input. -/
def Forward {α : Type} (reader : Reader α) : Prop :=
  ∀ input, left Prod.snd (reader input) <:+ input

/-- What is left behind a result is no longer than the input. -/
theorem Forward.length_le {α : Type} {reader : Reader α} (h : Forward reader) {input rest : Bytes}
    {value : α} (hread : reader input = .ok (value, rest)) : rest.length ≤ input.length := by
  have hleft := h input
  rw [hread] at hleft
  exact hleft.length_le

theorem left_bind {α β : Type} {x : Except Failure α} {k : α → Except Failure β} {r : α → Bytes}
    {s : β → Bytes} (forward : ∀ a, left s (k a) <:+ r a) : left s (x >>= k) <:+ left r x := by
  cases x with
  | error f => exact List.suffix_rfl
  | ok a => exact forward a

theorem Skipper.Forward.bind {β : Type} {skip : Skipper} {k : Bytes → Except Failure β}
    {s : β → Bytes} (h : skip.Forward) (forward : ∀ a, left s (k a) <:+ a) (input : Bytes) :
    left s (skip input >>= k) <:+ input :=
  (left_bind (r := id) forward).trans (h input)

theorem Forward.bind {α β : Type} {reader : Reader α} {k : α × Bytes → Except Failure β}
    {s : β → Bytes} (h : Forward reader) (forward : ∀ p, left s (k p) <:+ p.2) (input : Bytes) :
    left s (reader input >>= k) <:+ input :=
  (left_bind forward).trans (h input)

theorem expect_forward (tag : Bytes) : (expect tag).Forward := by
  intro input
  cases h : expect tag input with
  | error f =>
    obtain ⟨-, rfl⟩ := expect_eq_error_iff.1 h
    exact List.suffix_rfl
  | ok rest =>
    rw [expect_eq_ok_iff.1 h]
    exact List.suffix_append tag rest

theorem gapPiece_forward : Skipper.Forward gapPiece := by
  intro input
  cases h : gapPiece input with
  | error f =>
    obtain ⟨run, -, rfl⟩ := (gapPiece_eq_iff.1 h).completable
    exact List.suffix_append run f.place
  | ok rest =>
    obtain ⟨piece, -, rfl⟩ := (gapPiece_eq_iff.1 h).isPiece
    exact List.suffix_append piece rest

theorem gap_forward : Skipper.Forward gap := by
  intro input
  cases h : gap input with
  | error f =>
    obtain ⟨passed, -, rfl⟩ := gap_completable h
    exact List.suffix_append passed f.place
  | ok rest =>
    obtain ⟨text, -, rfl⟩ := gap_sound h
    exact List.suffix_append text rest

section Forward

variable {α : Type} {reader : Reader α} {readers : List (Reader α)}

theorem wideMore_forward (h : ∀ r ∈ readers, Forward r) : Forward (wideMore readers) := by
  induction readers with
  | nil => exact (expect_forward _).bind fun a => List.suffix_rfl
  | cons r readers ih =>
    obtain ⟨hr, hreaders⟩ := List.forall_mem_cons.1 h
    refine (expect_forward _).bind fun a => hr.bind (fun p => ?_) a
    exact (ih hreaders).bind (fun q => List.suffix_rfl) p.2

theorem wideForm_forward (first : Forward reader) (h : ∀ r ∈ readers, Forward r) :
    Forward (wideForm reader readers) :=
  first.bind fun p => (wideMore_forward h).bind (fun _ => List.suffix_rfl) p.2

theorem tallMore_forward (h : ∀ r ∈ readers, Forward r) : Forward (tallMore readers) := by
  induction readers with
  | nil => exact (expect_forward _).bind fun a => List.suffix_rfl
  | cons r readers ih =>
    obtain ⟨hr, hreaders⟩ := List.forall_mem_cons.1 h
    refine hr.bind fun p => gap_forward.bind (fun a => ?_) p.2
    exact (ih hreaders).bind (fun q => List.suffix_rfl) a

theorem tallForm_forward (first : Forward reader) (h : ∀ r ∈ readers, Forward r) :
    Forward (tallForm reader readers) := by
  refine first.bind fun p => gap_forward.bind (fun a => ?_) p.2
  exact (tallMore_forward h).bind (fun q => List.suffix_rfl) a

end Forward

theorem formBody_forward {reader : Reader (Twig Extent)} (h : Forward reader) (form : Form) :
    Forward (formBody (Grammar.reader reader) form) := by
  have hmore := form.forall_moreReaders h
  intro input
  rcases standsAt_cases Tag.wideOpen input with ⟨a, rfl⟩ | hnone
  · rw [formBody_wide]
    exact (wideForm_forward h hmore a).trans (List.suffix_append _ a)
  · rw [formBody_tall hnone]
    exact gap_forward.bind (tallForm_forward h hmore) input

/-- **What the reader of expressions leaves is the end of its input**, be it that it succeeds or
    that it fails. -/
theorem expression_forward (table : Table) (limit : Int) (room : Nat) :
    Forward (expression table limit room) := by
  induction room with
  | zero => exact fun input => List.suffix_rfl
  | succ n ih =>
    intro input
    rcases table.begins_cases input with ⟨form, hform, body, rfl⟩ | hd | ⟨hg, hd⟩
    · have hbody := (formBody_forward ih form body).trans (List.suffix_append form.glyph.bytes body)
      cases hb : formBody (Grammar.reader (expression table limit n)) form body with
      | error f =>
        rw [hb] at hbody
        rw [expression_error_of_body hform hb]
        exact hbody
      | ok p =>
        obtain ⟨⟨first, more⟩, rest⟩ := p
        rw [hb] at hbody
        rw [expression_ok_of_body hform hb]
        exact hbody
    · rw [expression_digit hd]
      exact List.dropWhile_suffix isDigit
    · rw [expression_none hg hd]
      exact List.suffix_rfl

/-! ## 2. Getting further -/

/-- The second outcome is the first one, or the first one is a nesting too deep for the limit and
    the second one got at least as far. -/
def Outruns {α : Type} (rest : α → Bytes) (limit : Int) (x y : Except Failure α) : Prop :=
  y = x ∨ ∃ f, x = .error f ∧ f.cause = .tooDeep limit ∧ left rest y <:+ f.place

section Outruns

variable {α β : Type} {limit : Int} {r : α → Bytes} {s : β → Bytes} {x y : Except Failure α}
  {k k' : α → Except Failure β}

theorem Outruns.refl (x : Except Failure α) : Outruns r limit x x :=
  .inl rfl

theorem Outruns.bind (h : Outruns r limit x y) (hk : ∀ a, Outruns s limit (k a) (k' a))
    (forward : ∀ a, left s (k' a) <:+ r a) : Outruns s limit (x >>= k) (y >>= k') := by
  rcases h with rfl | ⟨f, rfl, hf, hle⟩
  · cases y with
    | error f => exact .refl _
    | ok a => exact hk a
  · exact .inr ⟨f, rfl, hf, (left_bind forward).trans hle⟩

/-- A step that both take alike. -/
theorem Outruns.step (x : Except Failure α) (hk : ∀ a, Outruns s limit (k a) (k' a)) :
    Outruns s limit (x >>= k) (x >>= k') := by
  cases x with
  | error f => exact .refl _
  | ok a => exact hk a

end Outruns

/-- A reader outruns another one on every input. -/
def Reader.Outruns {α : Type} (limit : Int) (reader reader' : Reader α) : Prop :=
  ∀ input, HoonReader.Outruns Prod.snd limit (reader input) (reader' input)

section Arguments

variable {α : Type} {limit : Int} {reader reader' : Reader α} {readers readers' : List (Reader α)}

theorem wideMore_outruns (h : List.Forall₂ (Reader.Outruns limit) readers readers')
    (forward : ∀ r ∈ readers', Forward r) :
    Reader.Outruns limit (wideMore readers) (wideMore readers') := by
  induction h with
  | nil => exact fun input => .refl _
  | cons hr _ ih =>
    intro input
    obtain ⟨-, hforward⟩ := List.forall_mem_cons.1 forward
    refine .step _ fun a => (hr a).bind (fun p => ?_) fun p => ?_
    · exact (ih hforward p.2).bind (fun q => .refl _) fun q => List.suffix_rfl
    · exact (wideMore_forward hforward).bind (fun q => List.suffix_rfl) p.2

theorem wideForm_outruns (first : Reader.Outruns limit reader reader')
    (h : List.Forall₂ (Reader.Outruns limit) readers readers')
    (forward : ∀ r ∈ readers', Forward r) :
    Reader.Outruns limit (wideForm reader readers) (wideForm reader' readers') := by
  refine fun input => (first input).bind (fun p => ?_) fun p => ?_
  · exact (wideMore_outruns h forward p.2).bind (fun q => .refl _) fun q => List.suffix_rfl
  · exact (wideMore_forward forward).bind (fun q => List.suffix_rfl) p.2

theorem tallMore_outruns (h : List.Forall₂ (Reader.Outruns limit) readers readers')
    (forward : ∀ r ∈ readers', Forward r) :
    Reader.Outruns limit (tallMore readers) (tallMore readers') := by
  induction h with
  | nil => exact fun input => .refl _
  | cons hr _ ih =>
    intro input
    obtain ⟨-, hforward⟩ := List.forall_mem_cons.1 forward
    refine (hr input).bind (fun p => .step _ fun a => ?_)
      fun p => gap_forward.bind (fun a => ?_) p.2
    · exact (ih hforward a).bind (fun q => .refl _) fun q => List.suffix_rfl
    · exact (tallMore_forward hforward).bind (fun q => List.suffix_rfl) a

theorem tallForm_outruns (first : Reader.Outruns limit reader reader')
    (h : List.Forall₂ (Reader.Outruns limit) readers readers')
    (forward : ∀ r ∈ readers', Forward r) :
    Reader.Outruns limit (tallForm reader readers) (tallForm reader' readers') := by
  intro input
  refine (first input).bind (fun p => .step _ fun a => ?_)
    fun p => gap_forward.bind (fun a => ?_) p.2
  · exact (tallMore_outruns h forward a).bind (fun q => .refl _) fun q => List.suffix_rfl
  · exact (tallMore_forward forward).bind (fun q => List.suffix_rfl) a

end Arguments

theorem formBody_outruns {limit : Int} {reader reader' : Reader (Twig Extent)}
    (h : Reader.Outruns limit reader reader') (forward : Forward reader') (form : Form) :
    Reader.Outruns limit (formBody (Grammar.reader reader) form)
      (formBody (Grammar.reader reader') form) := by
  have hmore := form.forall₂_moreReaders h
  have hforward := form.forall_moreReaders forward
  intro input
  rcases standsAt_cases Tag.wideOpen input with ⟨a, rfl⟩ | hnone
  · rw [formBody_wide, formBody_wide]
    exact wideForm_outruns h hmore hforward a
  · rw [formBody_tall hnone, formBody_tall hnone]
    exact .step _ (tallForm_outruns h hmore hforward)

/-! ## 3. Expressions -/

/-- **With more room the outcome is the same**, unless it was a nesting that went too deep: then the
    reader gets at least as far with more room. -/
theorem expression_outruns (table : Table) {limit limit' : Int} {room room' : Nat}
    (h : room ≤ room') :
    Reader.Outruns limit (expression table limit room) (expression table limit' room') := by
  induction room generalizing room' with
  | zero => exact fun input => .inr ⟨_, rfl, rfl, expression_forward table limit' room' input⟩
  | succ n ih =>
    cases room' with
    | zero => exact absurd h (Nat.not_succ_le_zero n)
    | succ m =>
      intro input
      rcases table.begins_cases input with ⟨form, hform, body, rfl⟩ | hd | ⟨hg, hd⟩
      · -- the arguments lie one level deeper, where the induction applies
        have hbody := formBody_outruns (ih (Nat.le_of_succ_le_succ h))
          (expression_forward table limit' m) form body
        cases hb : formBody (Grammar.reader (expression table limit' m)) form body with
        | error f =>
          rw [hb] at hbody
          rw [expression_error_of_body hform hb]
          rcases hbody with heq | ⟨e, he, hcause, hle⟩
          · exact .inl (expression_error_of_body hform heq.symm).symm
          · exact .inr ⟨e.commit, expression_error_of_body hform he, hcause, hle⟩
        | ok p =>
          obtain ⟨⟨first, more⟩, rest⟩ := p
          rw [hb] at hbody
          rw [expression_ok_of_body hform hb]
          rcases hbody with heq | ⟨e, he, hcause, hle⟩
          · exact .inl (expression_ok_of_body hform heq.symm).symm
          · exact .inr ⟨e.commit, expression_error_of_body hform he, hcause, hle⟩
      · rw [expression_digit hd, expression_digit hd]
        exact .refl _
      · rw [expression_none hg hd, expression_none hg hd]
        exact .refl _

end HoonReader
