import HoonReader.Twig.Arguments

/-!
# Places inside a twig

A frame is an application with one of its arguments left out, and a context is a list of frames,
the outermost first. Filling a context with a twig puts the twig in the place that is left out; so
the twigs that stand inside of `k` applications are those that fill a context of `k` frames.
-/

namespace HoonReader.Twig

variable {σ τ : Type}

/-- An application with one argument left out. -/
structure Frame (σ : Type) where
  rune : Rune
  /-- The arguments in front of the one that is left out. -/
  before : List (Twig σ)
  /-- The arguments behind the one that is left out. -/
  behind : List (Twig σ)
  note : Option σ

/-- The application with `t` as the argument that was left out. -/
def Frame.fill (f : Frame σ) (t : Twig σ) : Twig σ :=
  match f.before with
  | [] => apply f.rune (fold t f.behind) f.note
  | first :: before => apply f.rune (fold first (before ++ t :: f.behind)) f.note

/-- The frame has one place less than its rune takes arguments. -/
def Frame.Fits (f : Frame σ) : Prop :=
  f.before.length + f.behind.length + 1 = f.rune.arity

/-- The twig `t` inside of the frames, the first one outermost. -/
def fillAll (frames : List (Frame σ)) (t : Twig σ) : Twig σ :=
  frames.foldr Frame.fill t

/-- The frame without the notes. -/
def Frame.bare (f : Frame σ) : Frame Empty :=
  ⟨f.rune, f.before.map Twig.bare, f.behind.map Twig.bare, none⟩

theorem bare_fold (first : Twig σ) (more : List (Twig σ)) :
    (fold first more).bare = fold first.bare (more.map Twig.bare) := by
  induction more generalizing first with
  | nil => rfl
  | cons second more ih => simp [fold, Twig.bare, ih]

/-- **Filling a frame and dropping the notes can be done in either order.** -/
theorem bare_fill (f : Frame σ) (t : Twig σ) : (f.fill t).bare = f.bare.fill t.bare := by
  obtain ⟨r, before, behind, note⟩ := f
  cases before <;> simp [Frame.fill, Frame.bare, apply, Twig.bare, bare_fold]

end HoonReader.Twig
