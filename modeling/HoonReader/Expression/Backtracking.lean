import HoonReader.Expression

/-!
# The choice by trial

The choice between the ways to read an expression, made by trying them: the application of each
form of the table is read in turn, and then a decimal literal, and the next one is tried exactly if
the one before fails without being committed. The reader of expressions looks ahead instead; this is
what it has to agree with.
-/

namespace HoonReader

/-- Reads with the first reader that succeeds or fails committed; `failure` is the failure if
    there is none. -/
def firstOf {α : Type} (failure : Bytes → Failure) : List (Reader α) → Reader α
  | [], input => .error (failure input)
  | reader :: readers, input =>
    match reader input with
    | .ok result => .ok result
    | .error e => if e.committed then .error e else firstOf failure readers input

/-- Reads an expression by trying the forms of the table in their order and then the literal, with
    `room` levels still allowed. -/
def expressionByTrial (table : Table) (limit : Int) : (room : Nat) → Reader (Twig Extent)
  | 0, input => .error (.of (.tooDeep limit) input)
  | room + 1, input =>
    let argument := Grammar.reader (expressionByTrial table limit room)
    firstOf (noExpression table) (table.forms.map (application argument) ++ [literal]) input

end HoonReader
