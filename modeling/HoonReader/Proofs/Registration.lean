import HoonReader.Session

/-!
# Registering keeps a session in step

A session reads by the alternatives that are laid out, and its table changes while it is open. This
file says that the two never part, whatever is registered and whatever is refused:

* `InStep`: a session that reads as a document does, and has changed no table but its own;
* `InStep.register`: a call keeps this, and one that is refused changes nothing;
* `InStep.registerAll`: so do all calls, and the table has grown by the accepted forms;
* `InStep.layout_eq`: a session in step is laid out as its document is, so it reads the same;
* `registerAll_inStep`: so, after every call, the session reads what one reads that is opened with
  the table as it is then.
-/

namespace HoonReader

/-! ## 1. Documents -/

namespace Document

variable {d d' : Document} {form : Form}

theorem register_eq_ok_iff :
    d.register form = .ok d' ↔
      ∃ table, d.table.register form = .ok table ∧ d' = { d with table } := by
  unfold register
  cases d.table.register form with
  | ok table => simp [eq_comm]
  | error e => simp

theorem register_eq_error_iff {e : GlyphTaken} :
    d.register form = .error e ↔ d.table.register form = .error e := by
  unfold register
  cases d.table.register form with
  | ok table => simp
  | error e' => simp

end Document

namespace Session

/-! ## 2. One call -/

/-- The session reads as the document does: with its source, limit and table, and by the
    alternatives of that table. The table stands behind those of the shelf, and these are as they
    were. -/
structure InStep (s : Session) (d : Document) (shelf : Shelf) : Prop where
  document : s.document = d
  alternatives : s.alternatives = d.alternatives
  own : (s.own : Nat) = shelf.tables.length
  tables : s.shelf.tables = shelf.tables ++ [d.table]

section Call

variable {s : Session} {d : Document} {shelf : Shelf}

theorem InStep.table_eq (h : s.InStep d shelf) : s.table = d.table :=
  congrArg Document.table h.document

@[simp] theorem table_withTable (s : Session) (table : Table) : (s.withTable table).table = table :=
  List.getElem_set_self _

/-- **Laying out the alternatives brings a session in step with a table that has changed.** -/
theorem InStep.withTable (h : s.InStep d shelf) (table : Table) :
    (s.withTable table).laidOut.InStep { d with table } shelf where
  document := by
    rw [← h.document]
    exact congrArg (Document.mk s.source s.limit) (table_withTable s table)
  alternatives := congrArg Table.alternatives (table_withTable s table)
  own := h.own
  tables := by
    show s.shelf.tables.set s.own table = shelf.tables ++ [table]
    rw [h.own, h.tables, List.set_append_right _ _ (Nat.le_refl _), Nat.sub_self,
      List.set_cons_zero]

theorem enter_run (s : Session) (form : Form) :
    (enter form).run.run s =
      match s.table.register form with
      | .ok table => (.ok (), s.withTable table)
      | .error e => (.error e, s) := by
  have hget : (enter form).run.run s =
      (match s.table.register form with
        | .ok table => set (s.withTable table)
        | .error e => throw e : Action Unit).run.run s := rfl
  rw [hget]
  cases s.table.register form <;> rfl

/-- What comes of registering a form, and the session behind it: a refused call stops before
    anything is changed. -/
theorem register_run (s : Session) (form : Form) :
    (register form).run.run s =
      match s.table.register form with
      | .ok table => (.ok (), (s.withTable table).laidOut)
      | .error e => (.error e, s) := by
  rw [register, ExceptT.run_bind, StateT.run_bind, enter_run]
  cases s.table.register form <;> rfl

/-- **Registering a form in a session is registering it in its document**, and a refused call
    changes nothing. -/
theorem InStep.register (h : s.InStep d shelf) (form : Form) :
    (∃ e, d.register form = .error e ∧ (register form).run.run s = (.error e, s)) ∨
    (∃ d' s', d.register form = .ok d' ∧ (register form).run.run s = (.ok (), s') ∧
      s'.InStep d' shelf) := by
  rw [register_run, h.table_eq]
  cases hr : d.table.register form with
  | error e => exact .inl ⟨e, Document.register_eq_error_iff.2 hr, rfl⟩
  | ok table =>
    exact .inr ⟨_, _, Document.register_eq_ok_iff.2 ⟨table, hr, rfl⟩, rfl, h.withTable table⟩

end Call

/-! ## 3. All calls -/

/-- The forms whose calls were accepted, in the order of the calls. -/
def accepted (forms : List Form) (outcomes : List (Except GlyphTaken Unit)) : List Form :=
  ((forms.zip outcomes).filter (·.2.toBool)).map (·.1)

section Calls

variable {s : Session} {d : Document} {shelf : Shelf} {form : Form} {forms : List Form}
  {outcomes : List (Except GlyphTaken Unit)}

theorem accepted_of_ok :
    accepted (form :: forms) (.ok () :: outcomes) = form :: accepted forms outcomes := rfl

theorem registerAll_cons {s' s'' : Session} {outcome : Except GlyphTaken Unit}
    (call : (register form).run.run s = (outcome, s'))
    (calls : (registerAll forms).run s' = (outcomes, s'')) :
    (registerAll (form :: forms)).run s = (outcome :: outcomes, s'') := by
  have hcons : (registerAll (form :: forms)).run s =
      (((register form).run.run s).1 :: ((registerAll forms).run ((register form).run.run s).2).1,
        ((registerAll forms).run ((register form).run.run s).2).2) := rfl
  rw [hcons, call, calls]

/-- A further call goes on where the calls before it ended. -/
theorem registerAll_concat {s' s'' : Session} {outcome : Except GlyphTaken Unit}
    (calls : (registerAll forms).run s = (outcomes, s'))
    (call : (register form).run.run s' = (outcome, s'')) :
    (registerAll (forms ++ [form])).run s = (outcomes ++ [outcome], s'') := by
  induction forms generalizing s outcomes with
  | nil =>
    obtain ⟨rfl, rfl⟩ := Prod.mk.inj calls
    exact registerAll_cons call rfl
  | cons first forms ih =>
    rcases hfirst : (register first).run.run s with ⟨outcome₁, s₁⟩
    rcases hrest : (registerAll forms).run s₁ with ⟨outcomes₁, s₂⟩
    rw [registerAll_cons hfirst hrest] at calls
    obtain ⟨rfl, rfl⟩ := Prod.mk.inj calls
    exact registerAll_cons hfirst (ih hrest)

/-- **Sessions stay in step with their tables**, and a table grows by the accepted forms, in the
    order of the calls. -/
theorem InStep.registerAll (h : s.InStep d shelf) (forms : List Form) :
    ∃ outcomes s' table, (registerAll forms).run s = (outcomes, s') ∧
      s'.InStep { d with table } shelf ∧
      table.forms = d.table.forms ++ accepted forms outcomes := by
  -- the document is generalized too: it is the one that the calls so far have led to
  induction forms generalizing s d with
  | nil => exact ⟨[], s, d.table, rfl, h, (List.append_nil _).symm⟩
  | cons form forms ih =>
    rcases h.register form with ⟨e, -, hrun⟩ | ⟨d', s', hd', hrun, h'⟩
    · obtain ⟨outcomes, s'', table, hruns, hstep, hforms⟩ := ih h
      exact ⟨.error e :: outcomes, s'', table, registerAll_cons hrun hruns, hstep, hforms⟩
    · obtain ⟨table', htable', rfl⟩ := Document.register_eq_ok_iff.1 hd'
      obtain ⟨outcomes, s'', table, hruns, hstep, hforms⟩ := ih h'
      refine ⟨.ok () :: outcomes, s'', table, registerAll_cons hrun hruns, hstep, ?_⟩
      rw [hforms, (Table.register_eq_ok_iff.1 htable').2, accepted_of_ok, List.append_assoc]
      rfl

end Calls

/-! ## 4. Reading -/

section Reading

variable {s : Session} {d : Document} {shelf : Shelf}

/-- **A session in step is laid out as its document is.** -/
theorem InStep.layout_eq (h : s.InStep d shelf) : s.layout = d.layout := by
  obtain rfl := h.document
  show Layout.mk _ _ s.alternatives _ _ _ = _
  rw [h.alternatives]
  rfl

theorem InStep.expressionAt_eq (h : s.InStep d shelf) (start : Nat) (depth : Int) :
    s.expressionAt start depth = d.expressionAt start depth :=
  congrArg (Layout.expressionAt · start depth) h.layout_eq

theorem InStep.applicationAt_eq (h : s.InStep d shelf) (form : Form) (start : Nat) (depth : Int) :
    s.applicationAt form start depth = d.applicationAt form start depth :=
  congrArg (Layout.applicationAt · form start depth) h.layout_eq

/-- **A session in step reads from the start what its document reads.** -/
theorem InStep.parse_eq (h : s.InStep d shelf) : s.parse = d.parse :=
  congrArg Layout.parse h.layout_eq

end Reading

/-! ## 5. Opening -/

theorem table_onShelf (source : Source) (limit : Int) (shelf : Shelf) (table : Table) :
    (onShelf source limit shelf table).table = table :=
  List.getElem_concat_length rfl _

theorem onShelf_inStep (source : Source) (limit : Int) (shelf : Shelf) (table : Table) :
    (onShelf source limit shelf table).laidOut.InStep ⟨source, limit, table⟩ shelf where
  document := congrArg (Document.mk source limit) (table_onShelf source limit shelf table)
  alternatives := congrArg Table.alternatives (table_onShelf source limit shelf table)
  own := rfl
  tables := rfl

/-- **A session is opened in step** with the document of its bytes, and with a table of its own. -/
theorem exists_ofBytes (bytes : Bytes) (file? : Option String) (settings : Settings) (shelf : Shelf)
    (given? : Option shelf.Place) :
    ∃ s, ofBytes bytes file? settings shelf given? = .ok s ∧
      s.InStep (.ofBytes bytes file? settings ((given?.map shelf.tableAt).getD .standard))
        shelf := by
  cases given? with
  | none => exact ⟨_, rfl, onShelf_inStep _ _ shelf .standard⟩
  | some place =>
    refine ⟨_, ?_, onShelf_inStep _ _ shelf (shelf.tableAt place)⟩
    simp only [ofBytes, Table.copy_eq]
    rfl

/-! ## 6. Sessions between calls -/

/-- What holds of a session between calls, where its table has these forms and was put behind the
    tables of the shelf. -/
structure Holds (s : Session) (shelf : Shelf) (forms : List Form) : Prop where
  registered : s.table.forms = forms
  distinct : (forms.map (·.glyph)).Nodup
  found : ∀ bytes form, s.table.lookup bytes = some form ↔ form ∈ forms ∧ form.glyph.bytes = bytes
  unknown : ∀ bytes, s.table.lookup bytes = none ↔ ∀ form ∈ forms, form.glyph.bytes ≠ bytes
  alternatives : s.alternatives = forms.map .application ++ [.literal]
  names : s.alternatives.map (·.name) = forms.map (·.glyph.text) ++ ["ud"]
  /-- The tables of the shelf are as they were. -/
  tables : s.shelf.tables = shelf.tables ++ [s.table]

/-- Both sessions read the same: from the start, and at every offset and depth. -/
structure ReadsAs (s s' : Session) : Prop where
  parse : s.parse = s'.parse
  expressionAt : ∀ start depth, s.expressionAt start depth = s'.expressionAt start depth
  applicationAt : ∀ form start depth,
    s.applicationAt form start depth = s'.applicationAt form start depth

section Between

variable {s s' : Session} {d : Document} {shelf shelf' : Shelf}

theorem InStep.holds (h : s.InStep d shelf) : s.Holds shelf d.table.forms where
  registered := congrArg Table.forms h.table_eq
  distinct := d.table.distinct
  found bytes form := by rw [h.table_eq, Table.lookup_eq_some_iff]
  unknown bytes := by rw [h.table_eq, Table.lookup_eq_none_iff]
  alternatives := h.alternatives
  names := by
    rw [h.alternatives, Document.alternatives, Table.alternatives, List.map_append, List.map_map]
    rfl
  tables := by rw [h.table_eq, h.tables]

/-- Sessions in step with one document read the same, whatever stands on their shelves. -/
theorem InStep.readsAs (h : s.InStep d shelf) (h' : s'.InStep d shelf') : s.ReadsAs s' where
  parse := h.parse_eq.trans h'.parse_eq.symm
  expressionAt start depth :=
    (h.expressionAt_eq start depth).trans (h'.expressionAt_eq start depth).symm
  applicationAt form start depth :=
    (h.applicationAt_eq form start depth).trans (h'.applicationAt_eq form start depth).symm

theorem register_of_new {form : Form} (h : form.glyph ∉ s.table.glyphs) :
    ∃ s', (register form).run.run s = (.ok (), s') := by
  have haccepted : s.table.register form =
      .ok ⟨s.table.forms ++ [form], s.table.distinct_append h⟩ :=
    Table.register_eq_ok_iff.2 ⟨h, rfl⟩
  rw [register_run, haccepted]
  exact ⟨_, rfl⟩

/-- **A refused call changes nothing.** -/
theorem register_of_taken {form : Form} (h : form.glyph ∈ s.table.glyphs) :
    (register form).run.run s = (.error ⟨form.glyph⟩, s) := by
  rw [register_run, Table.register_eq_error_iff.2 ⟨h, rfl⟩]

end Between

/-- **Registering keeps a session in step with its table.** A session is opened with a copy of any
    table on the shelf, or with the standard one, and forms are registered one after the other.
    After every call its table has the forms from the beginning, with those that were accepted
    behind them in the order of the calls; looking up and the alternatives are of these forms, and
    the tables that stood on the shelf are as they were. The next call is refused exactly if its
    glyph is in the table, and then changes nothing. The session reads what one reads that is opened
    with its table now. -/
theorem registerAll_inStep (bytes : Bytes) (file? : Option String) (settings : Settings)
    (shelf : Shelf) (given? : Option shelf.Place) (forms : List Form) :
    ∃ opened outcomes s, ofBytes bytes file? settings shelf given? = .ok opened ∧
      (registerAll forms).run opened = (outcomes, s) ∧
      s.Holds shelf (((given?.map shelf.tableAt).getD .standard).forms ++ accepted forms outcomes) ∧
      (∀ form, ∃ outcome s', (register form).run.run s = (outcome, s') ∧
        (registerAll (forms ++ [form])).run opened = (outcomes ++ [outcome], s') ∧
        (form.glyph ∉ s.table.glyphs → outcome = .ok ()) ∧
        (form.glyph ∈ s.table.glyphs → outcome = .error ⟨form.glyph⟩ ∧ s' = s)) ∧
      ∃ fresh, ofBytes bytes file? settings s.shelf (some s.own) = .ok fresh ∧ s.ReadsAs fresh := by
  obtain ⟨opened, hopened, hstep⟩ := exists_ofBytes bytes file? settings shelf given?
  obtain ⟨outcomes, s, table, hruns, hstep', hforms⟩ := hstep.registerAll forms
  obtain ⟨fresh, hfresh, hstep''⟩ := exists_ofBytes bytes file? settings s.shelf (some s.own)
  -- the new session stands one place further on the shelf, but in step with the same document
  have hown : s.shelf.tableAt s.own = table := hstep'.table_eq
  rw [Option.map_some, Option.getD_some, hown] at hstep''
  refine ⟨opened, outcomes, s, hopened, hruns, ?holds, fun form => ?call, fresh, hfresh,
    hstep'.readsAs hstep''⟩
  case holds => exact hforms ▸ hstep'.holds
  case call =>
    rcases hcall : (register form).run.run s with ⟨outcome, s'⟩
    refine ⟨outcome, s', rfl, registerAll_concat hruns hcall, fun hnew => ?_, fun htaken => ?_⟩
    · obtain ⟨s'', haccepted⟩ := register_of_new hnew
      exact (Prod.mk.inj (hcall.symm.trans haccepted)).1
    · exact Prod.mk.inj (hcall.symm.trans (register_of_taken htaken))

/-- A shelf with one table, which has the form of `dtls` only. -/
def dtlsShelf : Shelf where
  tables := [⟨[.ofGlyph .dtls (.ofChars '.' '+') rfl], by decide⟩]

/-- A call that is accepted, and one that is refused, for a form that was there at the beginning. -/
example :
    (ofBytes (ascii ['7']) none {} dtlsShelf (some ⟨0, by decide⟩)).map (fun opened =>
      ((registerAll [.ofGlyph .tsgr (.ofChars '=' '>') rfl,
        .ofGlyph .dtls (.ofChars '.' '+') rfl]).run opened).1) =
      .ok [.ok (), .error ⟨.ofChars '.' '+'⟩] := rfl

end Session

end HoonReader
