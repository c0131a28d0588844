import HoonReader.Layout

/-!
# Documents

A document is a source together with what governs how it is read: the rune table and the limit of
nesting. It is read by the layout of its table, at any offset and depth (`expressionAt`,
`applicationAt`, `literalAt`, `wingAt`), and from its start (`parse`).

A reader of what is left is run at an offset of a document by `twigAt`. The reader of expressions is
`expressionReader`; that it reads what the document reads is shown in `HoonReader.Proofs.Layout`.
-/

namespace HoonReader

/-- How a document is read. -/
structure Settings where
  /-- The name of the file in locations. -/
  file : String := Source.unknownFile
  /-- The number of levels that applications may be nested. -/
  limit : Int := 200
  deriving DecidableEq, Repr

/-- A source with the rune table and the limit of nesting under which it is read. -/
structure Document where
  source : Source
  limit : Int
  table : Table

/-- The twig of a reader that was started at `start`, its extents located in the source. -/
def Source.located (s : Source) (start : Nat) (twig : Twig Extent) : Twig Span :=
  let starts := lineStarts s.bytes
  let left := (s.remaining start).length
  let place := fun (rest : Bytes) => s.locationFrom starts (start + (left - rest.length) : Nat)
  twig.map fun extent => ⟨place extent.start, place extent.stop⟩

namespace Document

/-- The document of these bytes; a file name that is given goes before the one of the settings. -/
def ofBytes (bytes : Bytes) (file? : Option String) (settings : Settings) (table : Table) :
    Document where
  source := ⟨bytes, file?.getD settings.file⟩
  limit := settings.limit
  table := table

/-- The alternatives of an expression, in the order in which they are tried. -/
def alternatives (d : Document) : List Alternative :=
  d.table.alternatives

/-- The source laid out by the alternatives of the table. -/
def layout (d : Document) : Layout where
  source := d.source
  limit := d.limit
  alternatives := d.alternatives
  glyphs := d.table.glyphs

/-! ## 1. Reading anywhere -/

/-- Reads an expression at an offset, inside of `depth` applications. -/
def expressionAt (d : Document) (start : Nat) (depth : Int) : Except Report Reading :=
  d.layout.expressionAt start depth

/-- Reads the application of the rune of a form at an offset, inside of `depth` others. -/
def applicationAt (d : Document) (form : Form) (start : Nat) (depth : Int) :
    Except Report Reading :=
  d.layout.applicationAt form start depth

/-- Reads a decimal literal at an offset. -/
def literalAt (d : Document) (start : Nat) : Except Report Reading :=
  d.layout.literalAt start

/-- Reads a wing at an offset: its names and the offset behind it. -/
def wingAt (d : Document) (start : Nat) : Except Report (List Bytes × Nat) :=
  d.source.wingAt start

/-! ## 2. Running readers of what is left -/

/-- Runs a reader of twigs at an offset. -/
def twigAt (d : Document) (reader : Reader (Twig Extent)) (start : Nat) :
    Except Report Reading :=
  match d.source.read reader start with
  | .ok (twig, stop) => .ok ⟨d.source.located start twig, stop⟩
  | .error report => .error report

/-- The reader of expressions at a depth. -/
def expressionReader (d : Document) (depth : Int) : Reader (Twig Extent) :=
  expression d.table d.limit (room d.limit depth)

/-! ## 3. Reading from the start -/

/-- Reads an expression at the start of the document. -/
def parse (d : Document) : Except Report Reading :=
  d.layout.parse

/-- Reads an expression at the start of bytes under the standard table. -/
def parseBytes (bytes : Bytes) (file? : Option String) (settings? : Option Settings) :
    Except Report Reading :=
  (ofBytes bytes file? (settings?.getD { file := Source.givenFile }) .standard).parse

/-- Reads an expression at the start of a file under the standard table. -/
def parseFile (path : String) (contents : Bytes) (settings? : Option Settings) :
    Except Report Reading :=
  (ofBytes contents (some path) (settings?.getD {}) .standard).parse

/-! ## 4. Further forms -/

/-- The document read with one more form, which is tried after the others. -/
def register (d : Document) (form : Form) : Except GlyphTaken Document :=
  match d.table.register form with
  | .ok table => .ok { d with table }
  | .error e => .error e

end Document

end HoonReader
