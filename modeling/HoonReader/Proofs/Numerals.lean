import Mathlib.Data.List.Induction
import HoonReader.Literal
import HoonReader.Proofs.Decimal

/-!
# Numerals

A number has many runs of digits of its value, but only one of them has no zeros in front, and this
is the one that is written. So numbers of any size are written and read without loss, although
reading cuts a run into blocks from the left and writing cuts a number into blocks from the right.

* `withoutLeadingZeros`: the run that is left when the zeros in front are dropped;
* `write_positional`: the value of a run is written as the run without its leading zeros;
* `Odor.ud_exact`: what this says of unsigned decimals, with all that is refused in either direction.
-/

namespace HoonReader

namespace Decimal

/-! ## 1. Single digits -/

theorem toNat_of_isDigit {b : UInt8} (h : isDigit b = true) : 48 ≤ b.toNat ∧ b.toNat ≤ 57 := by
  simpa [isDigit, UInt8.le_iff_toNat_le] using h

theorem digitValue_eq (b : UInt8) : digitValue b = b.toNat - 48 := rfl

theorem digitValue_lt {b : UInt8} (h : isDigit b = true) : digitValue b < 10 := by
  have := toNat_of_isDigit h
  rw [digitValue_eq]
  omega

theorem digit_digitValue {b : UInt8} (h : isDigit b = true) : digit (digitValue b) = b := by
  have hvalue : 48 + digitValue b = b.toNat := by
    have := toNat_of_isDigit h
    rw [digitValue_eq]
    omega
  show UInt8.ofNat (48 + digitValue b) = b
  rw [hvalue, UInt8.ofNat_toNat]

/-- Only the digit zero has no value. -/
theorem digitValue_pos {b : UInt8} (h : isDigit b = true) (hb : b ≠ Byte.zero) :
    0 < digitValue b := by
  have hne : b.toNat ≠ 48 := fun e => hb (UInt8.toNat_inj.1 e)
  have := toNat_of_isDigit h
  rw [digitValue_eq]
  omega

/-! ## 2. Leading zeros -/

/-- The run without the zeros in front of it; of nothing but zeros, one is left. -/
def withoutLeadingZeros (run : Bytes) : Bytes :=
  if run.all (· == Byte.zero) then [Byte.zero] else run.dropWhile (· == Byte.zero)

@[simp] theorem withoutLeadingZeros_zero (run : Bytes) :
    withoutLeadingZeros (Byte.zero :: run) = withoutLeadingZeros run := by
  simp [withoutLeadingZeros]

theorem withoutLeadingZeros_cons {b : UInt8} (h : b ≠ Byte.zero) (run : Bytes) :
    withoutLeadingZeros (b :: run) = b :: run := by
  simp [withoutLeadingZeros, h]

/-- A zero in front of a run does not count. -/
theorem positional_zero (run : Bytes) : positional (Byte.zero :: run) = positional run := by
  have hzero : digitValue Byte.zero = 0 := rfl
  rw [positional_cons, hzero, Nat.zero_mul, Nat.zero_add]

/-- **A run of digits without a zero in front is what is written for its value.** -/
theorem writeOnto_positional {first : UInt8} {more : Bytes}
    (digits : ∀ b ∈ first :: more, isDigit b = true) (lead : first ≠ Byte.zero) (rest : Bytes) :
    writeOnto (positional (first :: more)) rest = first :: more ++ rest := by
  have hfirst := digits first List.mem_cons_self
  -- the writer takes the digits off from behind, and so does the induction
  induction more using List.reverseRecOn generalizing rest with
  | nil =>
    have hvalue : positional [first] = digitValue first := by
      rw [positional_cons]
      simp [positional]
    rw [hvalue, writeOnto, if_pos (digitValue_lt hfirst), digit_digitValue hfirst]
    rfl
  | append_singleton more b ih =>
    have hb : isDigit b = true := digits b (by simp)
    have hmore : ∀ c ∈ first :: more, isDigit c = true := by
      intro c hc
      refine digits c ?_
      rw [← List.cons_append]
      exact List.mem_append_left [b] hc
    have hvalue : positional (first :: (more ++ [b])) =
        positional (first :: more) * 10 + digitValue b := by
      rw [← List.cons_append, positional_append, positional_cons b []]
      simp [positional]
    have hpos : 0 < positional (first :: more) := by
      rw [positional_cons]
      exact Nat.add_pos_left (Nat.mul_pos (digitValue_pos hfirst lead) (Nat.pow_pos (by decide))) _
    have hlt := digitValue_lt hb
    have hten : ¬ positional (first :: more) * 10 + digitValue b < 10 := by omega
    have hdiv : (positional (first :: more) * 10 + digitValue b) / 10 =
        positional (first :: more) := by omega
    have hmod : (positional (first :: more) * 10 + digitValue b) % 10 = digitValue b := by omega
    rw [hvalue, writeOnto, if_neg hten, hdiv, hmod, digit_digitValue hb, ih hmore]
    simp

/-- **The value of a run of digits is written as the run without its leading zeros.** -/
theorem write_positional {run : Bytes} (digits : ∀ b ∈ run, isDigit b = true) :
    write (positional run) = withoutLeadingZeros run := by
  induction run with
  | nil =>
    rw [write_eq_writeOnto, writeOnto]
    rfl
  | cons b run ih =>
    by_cases hb : b = Byte.zero
    · rw [hb, positional_zero, withoutLeadingZeros_zero]
      exact ih fun c hc => digits c (List.mem_cons_of_mem b hc)
    · rw [withoutLeadingZeros_cons hb, write_eq_writeOnto, writeOnto_positional digits hb,
        List.append_nil]

end Decimal

/-! ## 3. Unsigned decimals -/

namespace Odor

theorem decode_ud {text : Bytes} (nonempty : text ≠ []) (digits : ∀ b ∈ text, isDigit b = true) :
    ud.decode text = .ok (Decimal.positional text) := by
  rw [decode, if_pos ⟨nonempty, List.all_eq_true.2 digits⟩, Decimal.ofDigits_eq_positional]

/-- A text is refused exactly if it is empty or has a byte that is no digit. -/
theorem decode_ud_eq_error_iff {text : Bytes} :
    (∃ e, ud.decode text = .error e) ↔ text = [] ∨ ∃ b ∈ text, isDigit b = false := by
  by_cases hnumeral : text ≠ [] ∧ ∀ b ∈ text, isDigit b = true
  · have hdecode := decode_ud hnumeral.1 hnumeral.2
    simp only [hdecode, reduceCtorEq, exists_false, false_iff, not_or, not_exists, not_and]
    exact ⟨hnumeral.1, fun b hb => by simp [hnumeral.2 b hb]⟩
  · have hdecode : ud.decode text = .error ⟨text⟩ := by
      rw [decode, if_neg (by simpa using hnumeral)]
    simp only [hdecode, Except.error.injEq, exists_eq', true_iff]
    by_cases hempty : text = []
    · exact .inl hempty
    · refine .inr ?_
      simpa [hempty] using hnumeral

/-- A value is refused exactly if it is a negative number, a truth value or no number at all. -/
theorem encode_ud_eq_error_iff {value : Value} :
    (∃ e, ud.encode value = .error e) ↔
      (∃ n : Int, n < 0 ∧ value = .number n) ∨ (∃ b, value = .truth b) ∨ value.number? = none := by
  cases value with
  | number n =>
    cases n with
    | ofNat n => simp [encode, Value.number?]
    | negSucc n => simp [encode, Int.negSucc_lt_zero]
  | truth b => simp [encode]
  | text s => simp [encode, Value.number?]
  | nothing => simp [encode, Value.number?]

/-- **Unsigned decimals are exact at every size.** A number that is not negative is written and read
    back as itself; a run of digits is read as its positional value and written back without its
    leading zeros; and nothing else is read or written: neither the empty text nor one with a byte
    that is no digit, neither a negative number nor a truth value nor what is no number. -/
theorem ud_exact :
    (∀ n : Nat, ∃ text, ud.encode (.number n) = .ok text ∧ ud.decode text = .ok n) ∧
    (∀ text : Bytes, text ≠ [] → (∀ b ∈ text, isDigit b = true) →
      ud.decode text = .ok (Decimal.positional text) ∧
      ud.encode (.number (Decimal.positional text)) = .ok (Decimal.withoutLeadingZeros text)) ∧
    (∀ text : Bytes, (∃ e, ud.decode text = .error e) ↔
      text = [] ∨ ∃ b ∈ text, isDigit b = false) ∧
    (∀ value : Value, (∃ e, ud.encode value = .error e) ↔
      (∃ n : Int, n < 0 ∧ value = .number n) ∨ (∃ b, value = .truth b) ∨
        value.number? = none) := by
  refine ⟨fun n => ?_, fun text nonempty digits => ?_, fun _ => decode_ud_eq_error_iff,
    fun _ => encode_ud_eq_error_iff⟩
  · refine ⟨Decimal.write n, rfl, ?_⟩
    rw [decode_ud (Decimal.write_ne_nil n) (Decimal.write_digits n), Decimal.positional_write]
  · refine ⟨decode_ud nonempty digits, ?_⟩
    show Except.ok (Decimal.write (Decimal.positional text)) = _
    rw [Decimal.write_positional digits]

/-- A seven behind a whole block of zeros. -/
def paddedSeven : Bytes :=
  List.replicate Decimal.blockSize Byte.zero ++ ascii ['7']

theorem ud_exact_paddedSeven :
    paddedSeven ≠ [] ∧ (∀ b ∈ paddedSeven, isDigit b = true) ∧
      ud.decode paddedSeven = .ok (Decimal.positional paddedSeven) ∧
      ud.encode (.number (Decimal.positional paddedSeven)) = .ok (ascii ['7']) := by
  have hnonempty : paddedSeven ≠ [] := by simp [paddedSeven, ascii]
  have hdigits : ∀ b ∈ paddedSeven, isDigit b = true := by
    intro b hb
    rcases List.mem_append.1 hb with hb | hb
    · rw [List.eq_of_mem_replicate hb]
      decide
    · rw [List.mem_singleton.1 hb]
      decide
  have hwithout : Decimal.withoutLeadingZeros paddedSeven = ascii ['7'] := by
    have hall : paddedSeven.all (· == Byte.zero) = false := by
      simp [paddedSeven, ascii, Byte.zero]
    rw [Decimal.withoutLeadingZeros, hall, paddedSeven, List.dropWhile_append_of_pos (by simp)]
    decide
  obtain ⟨-, hread, -⟩ := ud_exact
  obtain ⟨hdecode, hencode⟩ := hread paddedSeven hnonempty hdigits
  exact ⟨hnonempty, hdigits, hdecode, hwithout ▸ hencode⟩

end Odor

end HoonReader
