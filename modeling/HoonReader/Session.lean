import HoonReader.Document

/-!
# Sessions

A session reads a source while further forms are registered. It has a table of its own, which is a
copy of the one that it was opened with, and it keeps the alternatives of an expression laid out:
they are taken from the table when the session is opened and again behind every registration, and
the layout by which the session reads has these.

Tables change, so they stand on a shelf, each at its own place; a change is seen by all who know the
place. Registering may be refused, and the session goes on in either case: what came of the call and
the session behind it are both given.

That the alternatives never lag behind the table is shown in `HoonReader.Proofs.Registration`.
-/

namespace HoonReader

/-! ## 1. Shelves -/

/-- Tables that can change, each at its own place. -/
structure Shelf where
  tables : List Table
  deriving DecidableEq

namespace Shelf

/-- A place on the shelf. -/
abbrev Place (shelf : Shelf) := Fin shelf.tables.length

/-- The table at a place. -/
def tableAt (shelf : Shelf) (place : shelf.Place) : Table :=
  shelf.tables.get place

/-- The shelf after the table at a place has changed. -/
def change (shelf : Shelf) (place : shelf.Place) (table : Table) : Shelf where
  tables := shelf.tables.set place table

/-- The shelf with one more table, at a place behind all others. -/
def add (shelf : Shelf) (table : Table) : Shelf where
  tables := shelf.tables ++ [table]

end Shelf

/-! ## 2. Sessions -/

/-- A source that is read while further forms are registered. -/
structure Session where
  source : Source
  limit : Int
  /-- All tables that are in use, the session's own one among them. -/
  shelf : Shelf
  /-- Where the session's own table stands. -/
  own : shelf.Place
  /-- The alternatives of an expression, in the order in which they are tried. -/
  alternatives : List Alternative
  deriving DecidableEq

namespace Session

/-- The session's own table. -/
def table (s : Session) : Table :=
  s.shelf.tableAt s.own

/-- The source with the table and the limit under which it is read. -/
def document (s : Session) : Document where
  source := s.source
  limit := s.limit
  table := s.table

/-- The session after its table has changed; the alternatives are the ones from before. -/
def withTable (s : Session) (table : Table) : Session :=
  { s with
    shelf := s.shelf.change s.own table
    own := ⟨s.own, by simp [Shelf.change]⟩ }

/-- The session with the alternatives of its table laid out. -/
def laidOut (s : Session) : Session :=
  { s with alternatives := s.table.alternatives }

/-- A session whose own table is put on the shelf; no alternatives are laid out yet. -/
def onShelf (source : Source) (limit : Int) (shelf : Shelf) (table : Table) : Session where
  source := source
  limit := limit
  shelf := shelf.add table
  own := ⟨shelf.tables.length, by simp [Shelf.add]⟩
  alternatives := []

/-- Opens a session for these bytes, with a copy of a table on the shelf, or with the standard table
    if none is given. -/
def ofBytes (bytes : Bytes) (file? : Option String) (settings : Settings) (shelf : Shelf)
    (given? : Option shelf.Place) : Except GlyphTaken Session := do
  let table ← match given? with
    | some place => (shelf.tableAt place).copy
    | none => .ok .standard
  return (onShelf ⟨bytes, file?.getD settings.file⟩ settings.limit shelf table).laidOut

/-! ## 3. Registering -/

/-- Something done in a session, which may be refused; what was changed before that stays. -/
abbrev Action := ExceptT GlyphTaken (StateM Session)

/-- Puts a form into the session's own table. -/
def enter (form : Form) : Action Unit := do
  let s ← get
  match s.table.register form with
  | .ok table => set (s.withTable table)
  | .error e => throw e

/-- Registers a further form, which is tried after the others. -/
def register (form : Form) : Action Unit := do
  enter form
  modify laidOut

/-- Registers forms one after the other, whether or not those before were refused; gives what came
    of each. -/
def registerAll : List Form → StateM Session (List (Except GlyphTaken Unit))
  | [] => return []
  | form :: forms => do
    let outcome ← (register form).run
    let outcomes ← registerAll forms
    return outcome :: outcomes

/-! ## 4. Reading -/

/-- The source laid out by the alternatives that the session keeps. -/
def layout (s : Session) : Layout where
  source := s.source
  limit := s.limit
  alternatives := s.alternatives
  glyphs := s.table.glyphs

/-- Reads an expression at an offset, inside of `depth` applications. -/
def expressionAt (s : Session) (start : Nat) (depth : Int) : Except Report Reading :=
  s.layout.expressionAt start depth

/-- Reads the application of the rune of a form at an offset, inside of `depth` others. -/
def applicationAt (s : Session) (form : Form) (start : Nat) (depth : Int) :
    Except Report Reading :=
  s.layout.applicationAt form start depth

/-- Reads an expression at the start of the source. -/
def parse (s : Session) : Except Report Reading :=
  s.layout.parse

end Session

end HoonReader
