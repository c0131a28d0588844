import HoonReader.Bytes

/-!
# Decimal numbers of any size

A run of digits is read, and a number is written, in blocks of `blockSize` digits, so that the
work on one block is bounded. This file fixes both directions beside the plain rules they follow:

* `positional`: the value of a run of digits, one digit after the other;
* `ofDigits`: the same value, read block by block;
* `writeOnto`: the digits of a number in front of what follows, without leading zeros;
* `write`: the same digits, written block by block, each block but the first padded with zeros.
-/

namespace HoonReader.Decimal

/-! ## 1. One block -/

/-- The value of a digit. -/
def digitValue (b : UInt8) : Nat :=
  b.toNat - Byte.zero.toNat

/-- The digit of a value below ten. -/
def digit (value : Nat) : UInt8 :=
  UInt8.ofNat (Byte.zero.toNat + value)

/-- The value of a run of digits: each digit counts ten times the one behind it. -/
def positional (run : Bytes) : Nat :=
  run.foldl (fun value b => 10 * value + digitValue b) 0

/-- The digits of a number without leading zeros, in front of `rest`. -/
def writeOnto (value : Nat) (rest : Bytes) : Bytes :=
  if value < 10 then digit value :: rest
  else writeOnto (value / 10) (digit (value % 10) :: rest)
termination_by value
decreasing_by omega

/-- The last `places` digits of a number, leading zeros included, in front of `rest`. -/
def writePadded : (places value : Nat) → (rest : Bytes) → Bytes
  | 0, _, rest => rest
  | places + 1, value, rest => writePadded places (value / 10) (digit (value % 10) :: rest)

/-! ## 2. Blocks -/

/-- The number of digits in a block. -/
def blockSize : Nat := 4000

/-- The value that one step to the next block is worth. -/
def blockBase : Nat := Nat.pow 10 blockSize

theorem one_lt_ten_pow {places : Nat} (h : places ≠ 0) : 1 < Nat.pow 10 places :=
  Nat.one_lt_pow h (by decide)

theorem one_lt_blockBase : 1 < blockBase := by
  unfold blockBase
  exact one_lt_ten_pow (by decide)

/-- The value of a run of digits whose leading digits have the value `high`, block by block. -/
def ofDigitsBehind (high : Nat) (run : Bytes) : Nat :=
  if run.isEmpty then high
  else
    let block := run.take blockSize
    ofDigitsBehind (high * Nat.pow 10 block.length + positional block) (run.drop blockSize)
termination_by run.length
decreasing_by
  have : 0 < blockSize := by decide
  have : run ≠ [] := by simp_all
  have := List.length_pos_iff.2 this
  simp only [List.length_drop]
  omega

/-- The value of a run of digits, read block by block. -/
def ofDigits (run : Bytes) : Nat :=
  ofDigitsBehind 0 run

/-- The digits of a number in front of `rest`, written block by block from the last. -/
def writeBlocksOnto (value : Nat) (rest : Bytes) : Bytes :=
  if value < blockBase then writeOnto value rest
  else
    writeBlocksOnto (value / blockBase) (writePadded blockSize (value % blockBase) rest)
termination_by value
decreasing_by
  have := one_lt_blockBase
  exact Nat.div_lt_self (by omega) this

/-- The digits of a number. -/
def write (value : Nat) : Bytes :=
  writeBlocksOnto value []

/-- A number with its sign, as text. -/
def signed (value : Int) : String :=
  if value < 0 then "-" ++ (write value.natAbs).text else (write value.natAbs).text

end HoonReader.Decimal
