/-!
# The bytes of a source

A source is a run of bytes, and what is left of it at a place is the run of bytes still to be read
there. This file fixes the vocabulary of single bytes and of fixed tags:

* the classes a byte can be in (`isAlpha`, `isDigit`, `isNameByte`, `isBlank`);
* the weight of a run of blanks (`weight`): a newline weighs two, a space one, a carriage return
  nothing, and a run separates two elements once it weighs `longWeight`;
* the fixed tags of the grammar, and `after?`, the input behind a tag if the tag stands here.
  `after?_eq_some_iff`: what is behind the tag, put behind the tag, is the input;
* runs of bytes of one class: how far one goes (`takeWhile_run`, `splits_run`);
* the conversions between bytes and text.
-/

namespace HoonReader

/-- A run of bytes. -/
abbrev Bytes := List UInt8

/-! ## 1. Single bytes -/

namespace Byte

/-- The space. -/
abbrev space : UInt8 := 0x20

/-- The newline. -/
abbrev newline : UInt8 := 0x0a

/-- The carriage return. -/
abbrev carriageReturn : UInt8 := 0x0d

/-- The tab, which no run of blanks may hold. -/
abbrev tab : UInt8 := 0x09

/-- The hyphen, which may stand inside a name. -/
abbrev hyphen : UInt8 := 0x2d

/-- The dot, which joins the names of a wing. -/
abbrev dot : UInt8 := 0x2e

/-- The digit zero. -/
abbrev zero : UInt8 := 0x30

end Byte

/-- An ASCII letter. -/
def isAlpha (b : UInt8) : Bool :=
  (0x41 ≤ b && b ≤ 0x5a) || (0x61 ≤ b && b ≤ 0x7a)

/-- An ASCII decimal digit. -/
def isDigit (b : UInt8) : Bool :=
  0x30 ≤ b && b ≤ 0x39

/-- A byte that continues a name: a letter, a digit or a hyphen. -/
def isNameByte (b : UInt8) : Bool :=
  isAlpha b || isDigit b || b == Byte.hyphen

theorem isNameByte_of_isAlpha {b : UInt8} (h : isAlpha b = true) : isNameByte b = true := by
  rw [isNameByte, h, Bool.true_or, Bool.true_or]

/-- A byte of a run of blanks: space, newline or carriage return. -/
def isBlank (b : UInt8) : Bool :=
  b == Byte.space || b == Byte.newline || b == Byte.carriageReturn

/-! ## 2. The weight of a run of blanks -/

/-- What one byte adds to the weight of a run of blanks. -/
def blankWeight (b : UInt8) : Nat :=
  if b = Byte.newline then 2 else if b = Byte.space then 1 else 0

/-- The weight of a run of blanks. -/
def weight (run : Bytes) : Nat :=
  run.foldr (fun b w => blankWeight b + w) 0

/-- The weight from which a run of blanks separates two elements. -/
def longWeight : Nat := 2

@[simp] theorem weight_nil : weight [] = 0 := rfl

@[simp] theorem weight_cons (b : UInt8) (run : Bytes) :
    weight (b :: run) = blankWeight b + weight run := rfl

@[simp] theorem weight_append (a b : Bytes) : weight (a ++ b) = weight a + weight b := by
  induction a with
  | nil => simp
  | cons c a ih => simp [ih, Nat.add_assoc]

/-! ## 3. Tags -/

/-- The bytes of characters, one byte for each; meant for ASCII, where this is the encoding. -/
def ascii (text : List Char) : Bytes :=
  text.map fun c => UInt8.ofNat c.toNat

namespace Tag

/-- Two colons open a comment. -/
def comment : Bytes := ascii [':', ':']

/-- A newline closes a comment. -/
def newline : Bytes := [Byte.newline]

/-- An opening parenthesis behind a glyph chooses the wide form. -/
def wideOpen : Bytes := ascii ['(']

/-- A closing parenthesis ends the wide form. -/
def wideClose : Bytes := ascii [')']

/-- One space separates the arguments of the wide form. -/
def wideSeparator : Bytes := [Byte.space]

/-- Two equals signs end the tall form. -/
def tallEnd : Bytes := ascii ['=', '=']

/-- One dot joins two names of a wing. -/
def wingDot : Bytes := [Byte.dot]

end Tag

/-- The input behind `tag`, if `tag` stands at the start of the input. -/
def after? : (tag input : Bytes) → Option Bytes
  | [], input => some input
  | _ :: _, [] => none
  | t :: tag, b :: input => if t = b then after? tag input else none

/-- **What is behind a tag, put behind the tag, is the input.** -/
theorem after?_eq_some_iff {tag input rest : Bytes} :
    after? tag input = some rest ↔ input = tag ++ rest := by
  fun_induction after? tag input with
  | case1 input => simp [eq_comm]
  | case2 t tag => simp
  | case3 tag b input ih => simp [ih]
  | case4 t tag b input h => simp [Ne.symm h]

@[simp] theorem after?_append (tag rest : Bytes) : after? tag (tag ++ rest) = some rest :=
  after?_eq_some_iff.2 rfl

theorem after?_length {tag input rest : Bytes} (h : after? tag input = some rest) :
    rest.length + tag.length = input.length := by
  rw [after?_eq_some_iff.1 h, List.length_append, Nat.add_comm]

/-- `tag` stands at the start of the input. -/
def standsAt (tag input : Bytes) : Bool :=
  (after? tag input).isSome

/-- **A tag stands where the input begins with it.** -/
theorem standsAt_iff {tag input : Bytes} :
    standsAt tag input = true ↔ ∃ rest, input = tag ++ rest := by
  simp [standsAt, Option.isSome_iff_exists, after?_eq_some_iff]

theorem standsAt_cases (tag input : Bytes) :
    (∃ rest, input = tag ++ rest) ∨ standsAt tag input = false := by
  cases h : standsAt tag input with
  | true => exact .inl (standsAt_iff.1 h)
  | false => exact .inr rfl

/-- The first byte of the input is a digit. -/
def digitStands : Bytes → Bool
  | [] => false
  | b :: _ => isDigit b

/-- The first byte of the input is a letter. -/
def letterStands : Bytes → Bool
  | [] => false
  | b :: _ => isAlpha b

/-! ## 4. Runs -/

section Run

variable {p : UInt8 → Bool} {run rest : Bytes}

/-- A run is taken whole and nothing more, if what stands behind it does not go on with it. -/
theorem takeWhile_run (inside : ∀ b ∈ run, p b = true) (ends : ∀ b ∈ rest.head?, p b = false) :
    (run ++ rest).takeWhile p = run := by
  rw [List.takeWhile_append_of_pos inside]
  cases rest with
  | nil => simp
  | cons b rest => simp [ends b rfl]

theorem dropWhile_run (inside : ∀ b ∈ run, p b = true) (ends : ∀ b ∈ rest.head?, p b = false) :
    (run ++ rest).dropWhile p = rest := by
  rw [List.dropWhile_append_of_pos inside]
  cases rest with
  | nil => rfl
  | cons b rest => simp [ends b rfl]

/-- Every input is a run and what ends it. -/
theorem splits_run (p : UInt8 → Bool) (input : Bytes) :
    input = input.takeWhile p ++ input.dropWhile p ∧ (∀ b ∈ input.takeWhile p, p b = true) ∧
      ∀ b ∈ (input.dropWhile p).head?, p b = false := by
  refine ⟨List.takeWhile_append_dropWhile.symm, List.all_eq_true.1 List.all_takeWhile, ?_⟩
  intro b hb
  have h := List.head?_dropWhile_not p input
  rw [Option.mem_def.1 hb] at h
  exact h

end Run

/-- Texts joined by a separator are the first one, and each other one behind a separator. -/
theorem intercalate_cons (separator first : Bytes) (more : List Bytes) :
    separator.intercalate (first :: more) = first ++ more.flatMap (separator ++ ·) := by
  induction more generalizing first with
  | nil => simp
  | cons second more ih =>
    rw [List.intercalate_cons_cons, ih, List.flatMap_cons]
    simp

/-! ## 5. Bytes and text -/

namespace Bytes

/-- The UTF-8 bytes of a text. -/
def ofText (text : String) : Bytes :=
  text.toUTF8.toList

/-- Bytes read as ASCII: a byte above 127 reads as the replacement character. -/
def text (bytes : Bytes) : String :=
  String.ofList (bytes.map fun b => if b < 0x80 then Char.ofNat b.toNat else '\uFFFD')

end Bytes

end HoonReader
