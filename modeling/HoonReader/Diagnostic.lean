import HoonReader.Location
import HoonReader.Text.UpperCase

/-!
# Diagnostics

A diagnostic is a message about a place in a source. It is rendered as the message under its
severity, the place, and then, if there are any, the help and the suggestions, one on a line.
-/

namespace HoonReader

/-- A message about a place in a source. -/
structure Diagnostic where
  message : String
  location : Location
  severity : String
  code? : Option String
  help? : Option String
  suggestions? : Option (List String)
  deriving DecidableEq, Repr

namespace Diagnostic

/-- The line of the help; an empty help has none. -/
def helpLine : Option String → String
  | none => ""
  | some help => if help.isEmpty then "" else "  help: " ++ help ++ "\n"

/-- The lines of the suggestions; an empty list has none. -/
def suggestionLines : Option (List String) → String
  | none | some [] => ""
  | some suggestions =>
    "  suggestions:\n" ++ String.join (suggestions.map fun s => "    - " ++ s ++ "\n")

/-- The diagnostic as text; the severity is put in upper case. -/
def text (d : Diagnostic) : String :=
  Text.upperCase d.severity ++ ": " ++ d.message ++ "\n" ++
    "  --> " ++ d.location.text ++ "\n" ++ helpLine d.help? ++ suggestionLines d.suggestions?

end Diagnostic

end HoonReader
