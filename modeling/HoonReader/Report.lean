import HoonReader.Cause.Wording
import HoonReader.Diagnostic

/-!
# Reports

A report is a failure as it is shown to a user: with the offset at which reading failed, the input
that was left there, and the location.
-/

namespace HoonReader

/-- A failure with its place in a source. -/
structure Report where
  cause : Cause
  committed : Bool
  /-- The number of bytes in front of the place of the failure. -/
  offset : Nat
  /-- The input left at the place of the failure. -/
  remaining : Bytes
  location : Location
  deriving DecidableEq, Repr

namespace Report

/-- The report after which no other alternative may be tried. -/
def commit (r : Report) : Report :=
  { r with committed := true }

/-- The severity of every report. -/
def severity : String := "error"

/-- The message about the failure. -/
def diagnostic (r : Report) : Diagnostic where
  message := r.cause.message
  location := r.location
  severity := severity
  code? := some r.cause.code.text
  help? := r.cause.help?
  suggestions? := r.cause.suggestions?

/-- The report as text. -/
def text (r : Report) : String :=
  r.diagnostic.text

end Report

end HoonReader
