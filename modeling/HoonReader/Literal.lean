import HoonReader.Decimal
import HoonReader.Text.Quoted

/-!
# Literals

A literal is a value under an odor, its literal type. This file fixes the values that a literal
can hold, when two of them are the same, and how an odor reads and writes them.

The only odor is `ud`, the unsigned decimal: it reads a non-empty run of digits, leading zeros
allowed (`Odor.decode`), and writes the digits of a number that is not negative, without leading
zeros (`Odor.encode`). Every other value can be held and compared, but not written.
-/

namespace HoonReader

/-! ## 1. Values -/

/-- What a literal can hold. Only a number has a spelling. -/
inductive Value where
  | number (n : Int)
  | truth (b : Bool)
  | text (s : String)
  | nothing
  deriving DecidableEq, Repr

namespace Value

/-- The number that a value counts as: a truth value counts as one or zero. -/
def number? : Value → Option Int
  | number n => some n
  | truth b => some (if b then 1 else 0)
  | text _ => none
  | nothing => none

/-- Two values are the same if they count as the same number, or count as none and are equal. -/
def same (a b : Value) : Bool :=
  match a.number?, b.number? with
  | some m, some n => m == n
  | none, none => a == b
  | _, _ => false

/-- The value as a message shows it. -/
def shown : Value → String
  | number n => Decimal.signed n
  | truth true => "True"
  | truth false => "False"
  | text s => Text.quoted s
  | nothing => "None"

end Value

/-! ## 2. Odors -/

/-- The literal types. -/
inductive Odor where
  /-- Unsigned decimal. -/
  | ud
  deriving DecidableEq, Repr

/-- The text is not one of the odor. -/
structure DecodeError where
  text : Bytes
  deriving DecidableEq, Repr

/-- The text of the error. -/
def DecodeError.message (e : DecodeError) : String :=
  "not an unsigned decimal: " ++ Text.quotedBytes e.text

/-- The value has no spelling under the odor. -/
structure EncodeError where
  value : Value
  deriving DecidableEq, Repr

namespace EncodeError

/-- The number of digits from which on a number is not shown in a message. -/
def shownDigits : Nat := 4300

/-- The number has too many digits to be shown. -/
def tooLong (e : EncodeError) : Bool :=
  match e.value with
  | .number n => shownDigits < (Decimal.write n.natAbs).length
  | _ => false

/-- The text of the error; a number that is too long to be shown is complained of instead. -/
def message (e : EncodeError) : String :=
  if e.tooLong then
    "Exceeds the limit (" ++ toString shownDigits ++ " digits) for integer string conversion; " ++
      "use sys.set_int_max_str_digits() to increase the limit"
  else "not an unsigned integer: " ++ e.value.shown

end EncodeError

namespace Odor

/-- The name of the odor. -/
def name : Odor → Bytes
  | ud => ascii ['u', 'd']

/-- The name of the odor behind its mark, as it is printed. -/
def tag (o : Odor) : Bytes :=
  ascii ['@'] ++ o.name

/-- The number that a text stands for. -/
def decode : Odor → Bytes → Except DecodeError Nat
  | ud, text =>
    if text ≠ [] ∧ text.all isDigit then .ok (Decimal.ofDigits text) else .error ⟨text⟩

/-- The text that stands for a value. -/
def encode : Odor → Value → Except EncodeError Bytes
  | ud, .number (.ofNat n) => .ok (Decimal.write n)
  | ud, value => .error ⟨value⟩

end Odor

end HoonReader
