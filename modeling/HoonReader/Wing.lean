import HoonReader.Failure

/-!
# Names, digits and wings

A name is a letter and all the letters, digits and hyphens behind it. A run of digits is taken
whole. A wing is a path of names joined by single dots; a dot with no letter behind it does not
belong to the wing.
-/

namespace HoonReader

/-! ## 1. Runs -/

/-- Reads a name. -/
def identifier : Reader Bytes := fun input =>
  if letterStands input then .ok (input.takeWhile isNameByte, input.dropWhile isNameByte)
  else .error (.of .letter input)

/-- Reads a run of digits. -/
def digits : Reader Bytes := fun input =>
  if digitStands input then .ok (input.takeWhile isDigit, input.dropWhile isDigit)
  else .error (.of .digit input)

/-- **A name takes input.** -/
theorem identifier_length {input name rest : Bytes} (h : identifier input = .ok (name, rest)) :
    rest.length < input.length := by
  unfold identifier at h
  cases input with
  | nil => cases h
  | cons b input =>
    split at h
    · rename_i hletter
      cases h
      rw [List.dropWhile_cons_of_pos (isNameByte_of_isAlpha hletter)]
      exact Nat.lt_succ_of_le (List.dropWhile_sublist isNameByte).length_le
    · cases h

/-! ## 2. Wings -/

/-- Reads the names that follow, each behind a dot. -/
def namesBehindDots : Reader (List Bytes) := fun input =>
  match _hdot : after? Tag.wingDot input with
  | none => .ok ([], input)
  | some behind =>
    if letterStands behind then
      match _hname : identifier behind with
      | .error f => .error f
      | .ok (name, rest) => do
        let (names, rest) ← namesBehindDots rest
        return (name :: names, rest)
    else .ok ([], input)
termination_by input => input.length
decreasing_by
  have := after?_length _hdot
  have := identifier_length _hname
  omega

/-- Reads a wing and gives its names. -/
def wing : Reader (List Bytes) := fun input => do
  let (first, rest) ← identifier input
  let (more, rest) ← namesBehindDots rest
  return (first :: more, rest)

end HoonReader
