import Mathlib.Tactic.Ring
import HoonReader.Decimal

/-!
# The value of a run of digits

`Decimal.positional` gives every digit ten times the weight of the one behind it. This file shows
that cutting a run into blocks changes neither its value nor what is written, and that writing a
number gives digits of its value:

* `ofDigits_eq_positional`: reading block by block is reading digit by digit;
* `writeBlocksOnto_eq_writeOnto`: writing block by block is writing digit by digit;
* `positional_write`, `write_digits`, `write_ne_nil`: what is written is a run of digits, it is not
  empty, and its value is the number.

The writers put digits in front of what follows, so every statement about them is one about
`rest`, and the induction is the recursion of the writer.
-/

namespace HoonReader.Decimal

/-! ## 1. Digits -/

theorem digitValue_digit {value : Nat} (h : value < 10) : digitValue (digit value) = value := by
  have hz : Byte.zero.toNat = 48 := rfl
  have hd : (digit value).toNat = 48 + value := by
    unfold digit
    rw [hz]
    exact Nat.mod_eq_of_lt (by omega)
  rw [digitValue, hd, hz]
  omega

theorem isDigit_digit {value : Nat} (h : value < 10) : isDigit (digit value) = true := by
  have hcases : ∀ v : Fin 10, isDigit (digit v) = true := by decide
  exact hcases ⟨value, h⟩

/-! ## 2. Positional value -/

/-- Digits behind others: those in front count a power of ten more. -/
theorem foldl_positional (high : Nat) (run : Bytes) :
    run.foldl (fun value b => 10 * value + digitValue b) high =
      high * 10 ^ run.length + positional run := by
  induction run generalizing high with
  | nil => simp [positional]
  | cons b run ih =>
    have h0 : positional (b :: run) = digitValue b * 10 ^ run.length + positional run := by
      rw [positional, List.foldl_cons, ih]
      simp
    rw [List.foldl_cons, ih, h0, List.length_cons, pow_succ]
    ring

/-- **The first digit counts a power of ten for each digit behind it.** -/
theorem positional_cons (b : UInt8) (run : Bytes) :
    positional (b :: run) = digitValue b * 10 ^ run.length + positional run := by
  rw [positional, List.foldl_cons, foldl_positional]
  simp

theorem positional_append (high low : Bytes) :
    positional (high ++ low) = positional high * 10 ^ low.length + positional low := by
  rw [positional, List.foldl_append, foldl_positional]
  rfl

/-! ## 3. Reading in blocks -/

theorem ofDigitsBehind_eq (high : Nat) (run : Bytes) :
    ofDigitsBehind high run = high * 10 ^ run.length + positional run := by
  fun_induction ofDigitsBehind high run with
  | case1 high run h =>
    have hnil : run = [] := by simpa using h
    subst hnil
    simp [positional]
  | case2 high run h block ih =>
    have hsplit : run = block ++ run.drop blockSize := (List.take_append_drop blockSize run).symm
    rw [ih]
    conv_rhs => rw [hsplit, positional_append, List.length_append, pow_add]
    rw [Nat.pow_eq]
    ring

/-- **Reading block by block is reading digit by digit.** -/
theorem ofDigits_eq_positional (run : Bytes) : ofDigits run = positional run := by
  rw [ofDigits, ofDigitsBehind_eq]
  simp

/-! ## 4. Writing -/

theorem positional_writeOnto (value : Nat) (rest : Bytes) :
    positional (writeOnto value rest) = value * 10 ^ rest.length + positional rest := by
  fun_induction writeOnto value rest with
  | case1 value rest h => rw [positional_cons, digitValue_digit h]
  | case2 value rest h ih =>
    have hmod : digitValue (digit (value % 10)) = value % 10 :=
      digitValue_digit (Nat.mod_lt _ (by decide))
    have hdiv : value / 10 * 10 + value % 10 = value := Nat.div_add_mod' value 10
    rw [ih, positional_cons, hmod, List.length_cons, pow_succ]
    conv_rhs => rw [← hdiv]
    ring

/-- **The leading digits of a number are written in front of its last ones**, these padded with
    zeros to their places. -/
theorem writeOnto_padded (places : Nat) {value : Nat} (h : 10 ^ places ≤ value) (rest : Bytes) :
    writeOnto value rest =
      writeOnto (value / 10 ^ places) (writePadded places (value % 10 ^ places) rest) := by
  induction places generalizing value rest with
  | zero => rw [pow_zero, Nat.div_one, writePadded]
  | succ places ih =>
    rw [pow_succ] at h
    have hpos : 0 < 10 ^ places := Nat.pow_pos (by decide)
    have hten : ¬ value < 10 := by omega
    have hhigh : 10 ^ places ≤ value / 10 := (Nat.le_div_iff_mul_le (by decide)).2 h
    have hdiv : value / 10 / 10 ^ places = value / 10 ^ (places + 1) := by
      rw [Nat.div_div_eq_div_mul, ← pow_succ']
    have hlow : value % 10 ^ (places + 1) / 10 = value / 10 % 10 ^ places := by
      rw [pow_succ', Nat.mod_mul_right_div_self]
    have hlast : value % 10 ^ (places + 1) % 10 = value % 10 :=
      Nat.mod_mod_of_dvd value (Dvd.intro_left (10 ^ places) rfl)
    rw [writeOnto, if_neg hten, ih hhigh, hdiv, writePadded, hlow, hlast]

/-- **Writing block by block is writing digit by digit.** -/
theorem writeBlocksOnto_eq_writeOnto (value : Nat) (rest : Bytes) :
    writeBlocksOnto value rest = writeOnto value rest := by
  fun_induction writeBlocksOnto value rest with
  | case1 value rest h => rfl
  | case2 value rest h ih =>
    have hbase : blockBase = 10 ^ blockSize := by
      unfold blockBase
      rw [Nat.pow_eq]
    have hle : 10 ^ blockSize ≤ value := hbase ▸ Nat.not_lt.1 h
    rw [ih, hbase, ← writeOnto_padded blockSize hle]

theorem write_eq_writeOnto (value : Nat) : write value = writeOnto value [] :=
  writeBlocksOnto_eq_writeOnto value []

/-- **The digits of a number have its value.** -/
theorem positional_write (value : Nat) : positional (write value) = value := by
  rw [write_eq_writeOnto, positional_writeOnto]
  simp [positional]

theorem writeOnto_digits {value : Nat} {rest : Bytes} (h : ∀ b ∈ rest, isDigit b = true) :
    ∀ b ∈ writeOnto value rest, isDigit b = true := by
  fun_induction writeOnto value rest with
  | case1 value rest hv => exact List.forall_mem_cons.2 ⟨isDigit_digit hv, h⟩
  | case2 value rest hv ih =>
    exact ih (List.forall_mem_cons.2 ⟨isDigit_digit (Nat.mod_lt _ (by decide)), h⟩)

/-- **What is written for a number is a run of digits.** -/
theorem write_digits (value : Nat) : ∀ b ∈ write value, isDigit b = true := by
  rw [write_eq_writeOnto]
  exact writeOnto_digits (by simp)

theorem writeOnto_ne_nil (value : Nat) (rest : Bytes) : writeOnto value rest ≠ [] := by
  fun_induction writeOnto value rest with
  | case1 value rest hv => exact List.cons_ne_nil _ _
  | case2 value rest hv ih => exact ih

/-- **Every number is written with at least one digit.** -/
theorem write_ne_nil (value : Nat) : write value ≠ [] := by
  rw [write_eq_writeOnto]
  exact writeOnto_ne_nil value []

end HoonReader.Decimal
