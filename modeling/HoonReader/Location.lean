import HoonReader.Bytes
import HoonReader.Text.Quoted

/-!
# Lines and columns

A location names a byte of a source by file, line and column, both counted from one; a column
counts bytes. It is found in two ways, which agree:

* `Location.past`: from the bytes in front of the place, by counting newlines;
* `Location.ofStarts`: from the offsets at which the lines of the source start, found once by
  `lineStarts`; so a source of which many places are asked for is searched once.

An offset outside the source stands for the nearest end of the source (`clamp`).
-/

namespace HoonReader

/-! ## 1. Locations and spans -/

/-- A place in a source file. -/
structure Location where
  /-- The name of the file. -/
  file : String
  /-- The line, counted from one. -/
  line : Nat
  /-- The byte in its line, counted from one. -/
  column : Nat
  /-- The number of bytes in front of the place. -/
  offset : Nat
  deriving DecidableEq, Repr

/-- The stretch of a source from `start` up to `stop`. -/
structure Span where
  start : Location
  stop : Location
  deriving DecidableEq, Repr

namespace Location

/-- Line and column as `line:column`. -/
def lineColumn (l : Location) : String :=
  toString l.line ++ ":" ++ toString l.column

/-- The location as `file:line:column`. -/
def text (l : Location) : String :=
  l.file ++ ":" ++ l.lineColumn

/-- The location with all its parts spelled out. -/
def details (l : Location) : String :=
  "SourceLocation(" ++ Text.quoted l.file ++ ", " ++ toString l.line ++ ", " ++
    toString l.column ++ ", " ++ toString l.offset ++ ")"

end Location

/-- The span as text; the file is named once if both ends lie in it. -/
def Span.text (s : Span) : String :=
  if s.start.file = s.stop.file then s.start.text ++ "-" ++ s.stop.lineColumn
  else s.start.text ++ "-" ++ s.stop.text

/-! ## 2. Finding a location -/

/-- The offset within a source of `length` bytes that is nearest to `offset`. -/
def clamp (offset : Int) (length : Nat) : Nat :=
  min offset.toNat length

/-- The offsets behind the newlines of a run of bytes that starts at `offset`. -/
def lineStartsFrom (offset : Nat) : Bytes → List Nat
  | [] => []
  | b :: rest =>
    if b = Byte.newline then (offset + 1) :: lineStartsFrom (offset + 1) rest
    else lineStartsFrom (offset + 1) rest

/-- The offsets at which the lines of a source start. -/
def lineStarts (source : Bytes) : List Nat :=
  0 :: lineStartsFrom 0 source

namespace Location

/-- The location at `offset`, given where the lines of the source start. -/
def ofStarts (file : String) (starts : List Nat) (offset : Nat) : Location :=
  let line := starts.countP (· ≤ offset)
  { file, line, column := offset - (starts[line - 1]?).getD 0 + 1, offset }

/-- The location right behind the bytes `before`. -/
def past (file : String) (before : Bytes) : Location where
  file
  line := before.count Byte.newline + 1
  column := (before.reverse.takeWhile (· != Byte.newline)).length + 1
  offset := before.length

/-- The location of an offset in a source; an offset outside the source is clamped. -/
def ofOffset (file : String) (source : Bytes) (offset : Int) : Location :=
  past file (source.take (clamp offset source.length))

/-- The location of an offset in a source whose line starts are known. -/
def ofOffsetStarts (file : String) (source : Bytes) (starts : List Nat) (offset : Int) :
    Location :=
  ofStarts file starts (clamp offset source.length)

end Location

end HoonReader
