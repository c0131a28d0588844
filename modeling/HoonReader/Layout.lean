import HoonReader.Expression
import HoonReader.Source.Lexical

/-!
# Layouts

A layout is a source with all by which expressions are read from it: the limit of nesting, where
its lines start, and the alternatives of an expression laid out in the order in which they are
tried. Whoever reads expressions, a document or a session, reads them by a layout.

Reading goes from offset to offset of the source, and all that is read is located there at once:
every application and every literal has the span from where it begins to where it ends, and every
failure is reported at the offset where it arises. The readers of `HoonReader.Expression` do the
same on what is left; that the two agree is shown in `HoonReader.Proofs.Layout`.

Reading from the start needs a level of the stack for every level of nesting. The stack holds
`stackLevels` of them; a layout whose limit is larger fails when it nests deeper than that.
-/

namespace HoonReader

/-- An expression of a source and the offset behind it. -/
structure Reading where
  twig : Twig Span
  stop : Nat
  deriving DecidableEq

/-- A source laid out for reading expressions. -/
structure Layout where
  source : Source
  /-- The number of levels that applications may be nested. -/
  limit : Int
  /-- The alternatives of an expression, in the order in which they are tried. -/
  alternatives : List Alternative
  /-- The glyphs that may have been meant where no alternative can begin. -/
  glyphs : List Glyph
  /-- Where the lines of the source start. -/
  starts : List Nat := lineStarts source.bytes
  starts_eq : starts = lineStarts source.bytes := by rfl

/-- The number of levels of nesting that the stack holds. -/
def stackLevels : Nat := 1000

/-! ## 1. Arguments -/

namespace Source

variable (s : Source) {α : Type}

/-- Reads further arguments of the wide form, each behind a separator, and its end. -/
def wideMoreAt : List (Scan α) → Scan (List α)
  | [], offset => do
    let offset ← s.expectAt Tag.wideClose offset
    return ([], offset)
  | argument :: arguments, offset => do
    let offset ← s.expectAt Tag.wideSeparator offset
    let (value, offset) ← argument offset
    let (values, offset) ← wideMoreAt arguments offset
    return (value :: values, offset)

/-- Reads the arguments of the wide form and its end. -/
def wideFormAt (first : Scan α) (more : List (Scan α)) : Scan (α × List α) := fun offset => do
  let (value, offset) ← first offset
  let (values, offset) ← s.wideMoreAt more offset
  return ((value, values), offset)

/-- Reads further arguments of the tall form, each with a gap behind it, and its end. -/
def tallMoreAt : List (Scan α) → Scan (List α)
  | [], offset => do
    let offset ← s.expectAt Tag.tallEnd offset
    return ([], offset)
  | argument :: arguments, offset => do
    let (value, offset) ← argument offset
    let offset ← s.gapAt offset
    let (values, offset) ← tallMoreAt arguments offset
    return (value :: values, offset)

/-- Reads the arguments of the tall form, each with a gap behind it, and its end. -/
def tallFormAt (first : Scan α) (more : List (Scan α)) : Scan (α × List α) := fun offset => do
  let (value, offset) ← first offset
  let offset ← s.gapAt offset
  let (values, offset) ← s.tallMoreAt more offset
  return ((value, values), offset)

/-- Reads what stands behind the glyph of a form: the opening parenthesis chooses the wide form,
    anything else must be the gap of the tall form. -/
def formBodyAt (argument : Grammar → Scan α) (form : Form) : Scan (α × List α) := fun offset =>
  if s.hasTagAt Tag.wideOpen offset then
    s.wideFormAt (argument form.first) (form.more.map argument) (offset + Tag.wideOpen.length)
  else do
    let offset ← s.gapAt offset
    s.tallFormAt (argument form.first) (form.more.map argument) offset

end Source

/-! ## 2. Alternatives -/

/-- The alternative can begin at an offset. -/
def Alternative.beginsAt (s : Source) (offset : Nat) : Alternative → Bool
  | application form => s.hasTagAt form.glyph.bytes offset
  | literal => s.hasDigitAt offset

namespace Layout

variable (l : Layout)

/-- The span from one offset up to another. -/
def span (start stop : Nat) : Span where
  start := l.source.locationFrom l.starts start
  stop := l.source.locationFrom l.starts stop

/-- Reads a decimal literal. -/
def literal : Scan (Twig Span) := fun start => do
  let (text, stop) ← l.source.digitsAt start
  match Odor.ud.decode text with
  | .ok n => .ok (.ofValue .ud (.number n) (some (l.span start stop)), stop)
  | .error e => .error (l.source.failedAt (.invalidLiteral Odor.ud.name.text text e.message) start)

/-- Reads the application of the rune of a form; failures behind the glyph are committed. -/
def application (argument : Grammar → Scan (Twig Span)) (form : Form) : Scan (Twig Span) :=
  fun start =>
    if l.source.hasTagAt form.glyph.bytes start then
      match l.source.formBodyAt argument form (start + form.glyph.bytes.length) with
      | .error e => .error e.commit
      | .ok ((first, more), stop) =>
        .ok (.apply form.rune (.fold first more) (some (l.span start stop)), stop)
    else .error (l.source.failedAt (.glyph form.glyph.bytes) start)

/-- Reads an alternative, with the readers of the arguments. -/
def read (argument : Grammar → Scan (Twig Span)) : Alternative → Scan (Twig Span)
  | .application form => l.application argument form
  | .literal => l.literal

/-! ## 3. Expressions -/

/-- The number of bytes that are looked at where no expression begins. -/
def foundLength : Nat := 2

/-- Nothing that can begin an expression stands at an offset. -/
def noExpressionAt (start : Nat) : Report :=
  let found := l.source.slice start (start + foundLength)
  l.source.failedAt (.expression (glyphsSharing found (l.glyphs.map Glyph.text))) start

/-- Reads an expression, with `room` levels of applications still allowed under the limit. -/
def expression : (room : Nat) → Scan (Twig Span)
  | 0, start => .error (l.source.failedAt (.tooDeep l.limit) start)
  | room + 1, start =>
    match l.alternatives.find? (·.beginsAt l.source start) with
    | none => .error (l.noExpressionAt start)
    | some alternative =>
      (l.read (Grammar.reader (expression room)) alternative start).mapError Report.commit

/-! ## 4. Reading anywhere -/

/-- What is read at an offset. -/
def readAt (scan : Scan (Twig Span)) (start : Nat) : Except Report Reading := do
  let (twig, stop) ← scan start
  return ⟨twig, stop⟩

/-- Reads an expression at an offset, inside of `depth` applications. -/
def expressionAt (start : Nat) (depth : Int) : Except Report Reading :=
  readAt (l.expression (room l.limit depth)) start

/-- Reads the application of the rune of a form at an offset, inside of `depth` others. -/
def applicationAt (form : Form) (start : Nat) (depth : Int) : Except Report Reading :=
  readAt (l.application (Grammar.reader (l.expression (room l.limit (depth + 1)))) form) start

/-- Reads a decimal literal at an offset. -/
def literalAt (start : Nat) : Except Report Reading :=
  readAt l.literal start

/-! ## 5. Reading from the start -/

/-- Reads an expression at the start of the source. -/
def parse : Except Report Reading :=
  if l.limit ≤ stackLevels then l.expressionAt 0 0
  else
    match { l with limit := stackLevels }.expressionAt 0 0 with
    | .ok reading => .ok reading
    | .error report =>
      if report.cause = .tooDeep stackLevels then
        .error (l.source.report (.stackExhausted l.limit) true 0)
      else .error report

end Layout

end HoonReader
