import ElfUnwind.Image.Frames
import ElfUnwind.Source.FileTree

/-!
# One image per path

A cache opens the file of a path at the first request for it and keeps the outcome for good: later
requests get the same image, or nothing again, whatever has become of the file. Paths count as the
same when their keys are.

The images are kept in a list, and are handed out by their place in it.
-/

namespace ElfUnwind

/-- Opens the image in the file of a path. -/
def Image.openFile (path : String) : Task FileTree (Image FileTree) := do
  Image.read path (← FileTree.openFile path)

/-- An open image with what is kept of its frames. -/
structure OpenImage where
  /-- The image. -/
  image : Image FileTree
  /-- Its frames as far as they were asked for. -/
  memo : FrameMemo

/-- Outcomes of opening, by path. -/
structure ImageCache where
  /-- The keys asked for, the last first, each with the place of its image if it could be opened. -/
  outcomes : List (List String × Option Nat)
  /-- The open images. -/
  images : List OpenImage

namespace ImageCache

/-- Nothing asked for yet. -/
def empty : ImageCache := ⟨[], []⟩

/-- How many paths were asked for, those that could not be opened too. -/
def size (c : ImageCache) : Nat := c.outcomes.length

/-- Whether no path was asked for. -/
def isEmpty (c : ImageCache) : Bool := c.size = 0

/-- The image at a place. -/
def image? (c : ImageCache) (place : Nat) : Option OpenImage := c.images[place]?

/-- The kept outcome of a path. -/
def outcome? (c : ImageCache) (path : String) : Option (Option Nat) :=
  c.outcomes.lookup (Path.key path)

/-- Keeps the outcome of opening a path. -/
def keep (c : ImageCache) (path : String) : Option (Image FileTree) → ImageCache
  | none => { c with outcomes := (Path.key path, none) :: c.outcomes }
  | some image =>
    { outcomes := (Path.key path, some c.images.length) :: c.outcomes,
      images := c.images ++ [⟨image, {}⟩] }

/-- The place of the image of a path, which is opened at the first request. -/
def get (path : String) (c : ImageCache) (files : FileTree) :
    Told ((Option Nat × ImageCache) × FileTree) := do
  match c.outcome? path with
  | some outcome => return ((outcome, c), files)
  | none =>
    let (outcome, files) ← (Image.openFile path).runFrom files
    match outcome with
    | .ok image =>
      return ((some c.images.length, c.keep path (some image)), files)
    -- The failure is kept, so it is told once for a path.
    | .error cause =>
      Told.tell (.notOpened path cause)
      return ((none, c.keep path none), files)

/-- The same cache with another image at a place. -/
def setImage (place : Nat) (image : OpenImage) (c : ImageCache) : ImageCache :=
  { c with images := c.images.set place image }

/-- A path asked for before gets its kept outcome, nothing is opened and nothing is told. -/
theorem get_of_outcome? {path : String} {c : ImageCache} {outcome : Option Nat}
    (h : c.outcome? path = some outcome) (files : FileTree) :
    get path c files = pure ((outcome, c), files) := by
  simp [get, h]

@[simp]
theorem size_keep (c : ImageCache) (path : String) (image : Option (Image FileTree)) :
    (c.keep path image).size = c.size + 1 := by
  cases image <;> rfl

end ImageCache

end ElfUnwind
