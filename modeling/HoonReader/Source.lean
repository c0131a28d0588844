import HoonReader.Failure
import HoonReader.Report
import HoonReader.Twig

/-!
# Sources

A source is a run of bytes with the name of its file. It is looked at by offset: whether a tag
stands there, which byte, how far a run goes on, where a byte is next found, and what stands from
one offset up to another.

A reader of what is left knows nothing of offsets; it can be run at an offset of a source, and what
it gives is then located in the source.

An offset behind the end of the source is allowed: nothing is left there, and what fails there
fails at that offset.
-/

namespace HoonReader

/-- The bytes of a file and its name. -/
structure Source where
  bytes : Bytes
  file : String
  deriving DecidableEq, Repr

namespace Source

/-- The name of a source of which none is known. -/
def unknownFile : String := "<unknown>"

/-- The name of a source that was given as a text or as bytes. -/
def givenFile : String := "<string>"

/-! ## 1. Places -/

/-- The input left at an offset. -/
def remaining (s : Source) (offset : Nat) : Bytes :=
  s.bytes.drop offset

/-- The offset at which `rest` is left, for a reader that was started at `start`. -/
def offsetOf (s : Source) (start : Nat) (rest : Bytes) : Nat :=
  start + ((s.remaining start).length - rest.length)

/-- The location of an offset. -/
def location (s : Source) (offset : Int) : Location :=
  .ofOffset s.file s.bytes offset

/-- The location of an offset, given where the lines of the source start. -/
def locationFrom (s : Source) (starts : List Nat) (offset : Int) : Location :=
  .ofOffsetStarts s.file s.bytes starts offset

/-! ## 2. What stands at an offset -/

/-- A tag stands at an offset of the source or at its end. -/
def hasTagAt (s : Source) (tag : Bytes) (offset : Nat) : Bool :=
  decide (offset ≤ s.bytes.length) && standsAt tag (s.remaining offset)

/-- The byte at an offset. -/
def byteAt? (s : Source) (offset : Nat) : Option UInt8 :=
  s.bytes[offset]?

/-- A letter stands at an offset. -/
def hasLetterAt (s : Source) (offset : Nat) : Bool :=
  (s.byteAt? offset).any isAlpha

/-- A digit stands at an offset. -/
def hasDigitAt (s : Source) (offset : Nat) : Bool :=
  (s.byteAt? offset).any isDigit

/-- Where the run of bytes of a class that goes on at an offset ends. -/
def runEnd (s : Source) (p : UInt8 → Bool) (offset : Nat) : Nat :=
  if h : offset < s.bytes.length then
    if p s.bytes[offset] then s.runEnd p (offset + 1) else offset
  else offset
termination_by s.bytes.length - offset

/-- The first offset, from the given one on, at which a byte stands. -/
def find? (s : Source) (sought : UInt8) (offset : Nat) : Option Nat :=
  if h : offset < s.bytes.length then
    if s.bytes[offset] = sought then some offset else s.find? sought (offset + 1)
  else none
termination_by s.bytes.length - offset

/-- What stands from one offset up to another. -/
def slice (s : Source) (start stop : Nat) : Bytes :=
  (s.remaining start).take (stop - start)

/-! ## 3. Reports -/

/-- The report of a cause at an offset. -/
def report (s : Source) (cause : Cause) (committed : Bool) (offset : Nat) : Report where
  cause
  committed
  offset
  remaining := s.remaining offset
  location := s.location offset

/-- The report that a cause arises at an offset; it is committed if the cause is fatal. -/
def failedAt (s : Source) (cause : Cause) (offset : Nat) : Report :=
  s.report cause cause.fatal offset

/-- The report of a failure of a reader that was started at `start`. -/
def reportOf (s : Source) (start : Nat) (f : Failure) : Report :=
  s.report f.cause f.committed (s.offsetOf start f.place)

/-! ## 4. Running readers of what is left -/

/-- What a skipper started at an offset leaves behind it: the offset where it ends. -/
def skip (s : Source) (skipper : Skipper) (start : Nat) : Except Report Nat :=
  match skipper (s.remaining start) with
  | .ok rest => .ok (s.offsetOf start rest)
  | .error f => .error (s.reportOf start f)

/-- What a reader started at an offset reads, and the offset where it ends. -/
def read {α : Type} (s : Source) (reader : Reader α) (start : Nat) : Except Report (α × Nat) :=
  match reader (s.remaining start) with
  | .ok (value, rest) => .ok (value, s.offsetOf start rest)
  | .error f => .error (s.reportOf start f)

end Source

end HoonReader
