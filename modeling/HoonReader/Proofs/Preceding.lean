import HoonReader.Proofs.Lockstep

/-!
# What stands in front does not matter

Reading goes by offsets: tags, bytes and newlines are looked for at offsets of the whole source,
slices are cut between them, and every span and report names one. With other bytes in front of a
source all of them move on. What is left at an offset that has moved is what was left before, and
that is all that reading an expression depends on (`Document.expressionAt_eq`). So every offset of
an outcome moves on by the number of the bytes in front, every location is the one of the offset
that has moved, and all else stays.

* `LocationsBehind`, `Location.past_behind`: a place lies as many lines further down as there are
  newlines in front, and only in the first line its column changes;
* `Source.read_behind`, `Document.twigAt_behind`: running a reader of what is left, behind other
  bytes;
* `Document.expressionAt_behind`: reading an expression by offsets, behind other bytes.
-/

namespace HoonReader

/-! ## 1. Locations -/

/-- The second location is the one of the same place of `bytes`, with other bytes in front. -/
structure LocationsBehind (passed bytes : Bytes) (l l' : Location) : Prop where
  offset : l'.offset = passed.length + l.offset
  /-- Line and column are those of the offset. -/
  placed : l' = .ofOffset l.file (passed ++ bytes) l'.offset
  line : l'.line = passed.count Byte.newline + l.line
  /-- The column stays behind the first newline. -/
  column : Byte.newline ∈ bytes.take l.offset → l'.column = l.column
  /-- In the first line, what is in front of it in that line counts as well. -/
  firstLine : Byte.newline ∉ bytes.take l.offset →
    l'.column = (lineBefore passed).length + l.column

/-- **What stands in front of a place moves its line, and its column only in the first line.** -/
theorem Location.past_behind (file : String) (passed before behind : Bytes) :
    LocationsBehind passed (before ++ behind) (past file before)
      (past file (passed ++ before)) := by
  have htake : (before ++ behind).take (past file before).offset = before := List.take_left
  constructor
  · exact List.length_append
  · show _ = ofOffset file (passed ++ (before ++ behind)) (passed ++ before).length
    rw [← List.append_assoc, ofOffset_length]
  · show (passed ++ before).count Byte.newline + 1 = _
    rw [List.count_append, Nat.add_assoc]
    rfl
  · intro hnewline
    rw [htake] at hnewline
    show (lineBefore (passed ++ before)).length + 1 = (lineBefore before).length + 1
    rw [lineBefore_append_of_mem hnewline]
  · intro hline
    rw [htake] at hline
    have hbefore : lineBefore before = before.reverse ++ lineBefore [] :=
      lineBefore_append_of_not_mem hline []
    show (lineBefore (passed ++ before)).length + 1 =
      (lineBefore passed).length + ((lineBefore before).length + 1)
    rw [lineBefore_append_of_not_mem hline, hbefore, List.length_append, List.length_append,
      Nat.add_comm before.reverse.length]
    rfl

/-! ## 2. Sources -/

/-- The spans are of the same places. -/
structure SpansBehind (passed bytes : Bytes) (a a' : Span) : Prop where
  start : LocationsBehind passed bytes a.start a'.start
  stop : LocationsBehind passed bytes a.stop a'.stop

/-- The readings have the same twig, with spans of the same places. -/
structure ReadingsBehind (passed bytes : Bytes) (r r' : Reading) : Prop where
  bare : r'.twig.bare = r.twig.bare
  spans : r.twig.Related (SpansBehind passed bytes) r'.twig
  stop : r'.stop = passed.length + r.stop

/-- The reports say the same of the same place. -/
structure ReportsBehind (passed bytes : Bytes) (e e' : Report) : Prop where
  cause : e'.cause = e.cause
  committed : e'.committed = e.committed
  offset : e'.offset = passed.length + e.offset
  remaining : e'.remaining = e.remaining
  location : LocationsBehind passed bytes e.location e'.location

namespace Source

variable (s : Source) (passed : Bytes)

/-- The source with other bytes in front of it. -/
def behind : Source where
  bytes := passed ++ s.bytes
  file := s.file

theorem remaining_behind (offset : Nat) :
    (s.behind passed).remaining (passed.length + offset) = s.remaining offset :=
  List.drop_length_add_append offset

theorem offsetOf_behind (start : Nat) (rest : Bytes) :
    (s.behind passed).offsetOf (passed.length + start) rest =
      passed.length + s.offsetOf start rest := by
  rw [offsetOf, remaining_behind, Nat.add_assoc]
  rfl

/-- A place outside of the source stands for its end, and so does the one behind the other bytes. -/
theorem location_behind (offset : Nat) :
    LocationsBehind passed s.bytes (s.location offset)
      ((s.behind passed).location (passed.length + offset : Nat)) := by
  have hclamp : clamp (passed.length + offset : Nat) (s.behind passed).bytes.length =
      passed.length + clamp offset s.bytes.length := by
    have hlength : (s.behind passed).bytes.length = passed.length + s.bytes.length :=
      List.length_append
    rw [hlength]
    unfold clamp
    omega
  have htake : (s.behind passed).bytes.take (passed.length + clamp offset s.bytes.length) =
      passed ++ s.bytes.take (clamp offset s.bytes.length) := List.take_length_add_append _
  have hplace := Location.past_behind s.file passed (s.bytes.take (clamp offset s.bytes.length))
    (s.bytes.drop (clamp offset s.bytes.length))
  rw [List.take_append_drop] at hplace
  rw [location, location, Location.ofOffset, Location.ofOffset, hclamp, htake]
  exact hplace

theorem reportOf_behind (start : Nat) (f : Failure) :
    ReportsBehind passed s.bytes (s.reportOf start f)
      ((s.behind passed).reportOf (passed.length + start) f) := by
  rw [reportOf, reportOf, offsetOf_behind]
  constructor
  · rfl
  · rfl
  · rfl
  · exact s.remaining_behind passed _
  · exact s.location_behind passed _

theorem located_behind (start : Nat) (t : Twig Extent) :
    Twig.Related (SpansBehind passed s.bytes) (s.located start t)
      ((s.behind passed).located (passed.length + start) t) := by
  have hplace : ∀ rest : Bytes,
      LocationsBehind passed s.bytes (s.location (s.offsetOf start rest))
        ((s.behind passed).location ((s.behind passed).offsetOf (passed.length + start) rest)) := by
    intro rest
    rw [offsetOf_behind]
    exact s.location_behind passed _
  unfold located
  simp only [locationFrom_eq]
  refine (Twig.Related.refl t).map _ _ ?_
  rintro extent _ rfl
  exact ⟨hplace extent.start, hplace extent.stop⟩

/-- **What a reader of what is left reads does not depend on what stands in front.** -/
theorem read_behind {α : Type} (reader : Reader α) (start : Nat) :
    Paired (ReportsBehind passed s.bytes) (fun p p' => p'.1 = p.1 ∧ p'.2 = passed.length + p.2)
      (s.read reader start) ((s.behind passed).read reader (passed.length + start)) := by
  unfold read
  rw [remaining_behind]
  cases reader (s.remaining start) with
  | error f => exact .error (s.reportOf_behind passed start f)
  | ok p => exact .ok ⟨rfl, s.offsetOf_behind passed start p.2⟩

end Source

/-! ## 3. Documents -/

namespace Document

variable (d : Document) (passed : Bytes)

/-- The document with other bytes in front of it. -/
def behind : Document :=
  { d with source := d.source.behind passed }

theorem source_behind : (d.behind passed).source = d.source.behind passed := rfl

theorem twigAt_behind (reader : Reader (Twig Extent)) (start : Nat) :
    Paired (ReportsBehind passed d.source.bytes) (ReadingsBehind passed d.source.bytes)
      (d.twigAt reader start) ((d.behind passed).twigAt reader (passed.length + start)) := by
  have hread := d.source.read_behind passed reader start
  unfold twigAt
  rw [source_behind]
  cases h : d.source.read reader start with
  | error e =>
    rw [h] at hread
    obtain ⟨e', he', hreports⟩ := hread.of_error
    rw [he']
    exact .error hreports
  | ok p =>
    rw [h] at hread
    obtain ⟨⟨t, stop⟩, hp', rfl, hstop⟩ := hread.of_ok
    rw [hp']
    have hspans := d.source.located_behind passed start p.1
    exact .ok ⟨hspans.bare_eq.symm, hspans, hstop⟩

/-- **Reading an expression does not depend on what stands in front of it.** With other bytes in
    front of a document an expression is read at an offset behind them if and only if it is read
    without them, and gives the same twig, or else the same report. Every offset moves on by the
    number of these bytes, and every location is the one of the offset that has moved: its line
    grows by the newlines in front, and its column stays behind the first newline of the
    document. -/
theorem expressionAt_behind (start : Nat) (depth : Int) :
    Paired (ReportsBehind passed d.source.bytes) (ReadingsBehind passed d.source.bytes)
      (d.expressionAt start depth)
      ((d.behind passed).expressionAt (passed.length + start) depth) := by
  rw [expressionAt_eq, expressionAt_eq]
  exact d.twigAt_behind passed (d.expressionReader depth) start

end Document

end HoonReader
