import HoonReader.Cause

/-!
# Readers and their failures

A reader takes the input that is left and gives a value and what is left behind it, or fails. A
failure says why, at which place (the input left there), and whether it is committed: after a
committed failure no other alternative may be tried.
-/

namespace HoonReader

/-- Why and where a reader fails. -/
structure Failure where
  cause : Cause
  /-- No other alternative may be tried. -/
  committed : Bool
  /-- The input left at the place of the failure. -/
  place : Bytes
  deriving DecidableEq, Repr

namespace Failure

/-- The failure of a cause at a place, committed if the cause is fatal. -/
def of (cause : Cause) (place : Bytes) : Failure :=
  ⟨cause, cause.fatal, place⟩

/-- The failure after which no other alternative may be tried. -/
def commit (f : Failure) : Failure :=
  { f with committed := true }

@[simp] theorem commit_cause (f : Failure) : f.commit.cause = f.cause := rfl

@[simp] theorem commit_place (f : Failure) : f.commit.place = f.place := rfl

@[simp] theorem commit_committed (f : Failure) : f.commit.committed = true := rfl

end Failure

/-- A reader that only moves on in the input. -/
abbrev Skipper := Bytes → Except Failure Bytes

/-- A reader of a value. -/
abbrev Reader (α : Type) := Bytes → Except Failure (α × Bytes)

/-- Moves behind a tag that must stand here. -/
def expect (tag : Bytes) : Skipper := fun input =>
  match after? tag input with
  | some rest => .ok rest
  | none => .error (.of (.literal tag) input)

theorem expect_eq_ok_iff {tag input rest : Bytes} :
    expect tag input = .ok rest ↔ input = tag ++ rest := by
  rw [← after?_eq_some_iff]
  unfold expect
  split <;> simp_all

end HoonReader
