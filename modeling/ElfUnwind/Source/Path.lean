/-!
# Paths

A path is names between slashes. Two spellings are the same key when they differ only in repeated or
trailing slashes and in single dots after the first name; a leading dot and the steps up stay, as
they need not lead to the same file.
-/

namespace ElfUnwind.Path

/-- The pieces between slashes, one more than there are slashes. -/
def pieces : List Char → List (List Char)
  | [] => [[]]
  | c :: cs =>
    if c = '/' then [] :: pieces cs
    else
      match pieces cs with
      | [] => [[c]]
      | p :: ps => (c :: p) :: ps

/-- The steps of following a path, empty ones and single dots included. -/
def steps (path : String) : List String := (pieces path.toList).map String.ofList

/-- Whether a step stays where it is. -/
def stays (step : String) : Bool := step = "" || step = "."

/-- Whether a path begins at the root. -/
def isAbsolute (path : String) : Bool := path.toList.head? = some '/'

/-- What a path is known by. -/
def key (path : String) : List String :=
  let names := (steps path).filter fun step => !stays step
  if isAbsolute path then "/" :: names
  -- A leading dot tells `./a` from `a`.
  else if (steps path).head? = some "." then "." :: names
  else names

theorem pieces_ne_nil (cs : List Char) : pieces cs ≠ [] := by
  cases cs with
  | nil => simp [pieces]
  | cons c cs =>
    rw [pieces]
    split
    · simp
    · split <;> simp

/-- Putting the slashes back gives the path. -/
theorem intercalate_pieces (cs : List Char) : List.intercalate ['/'] (pieces cs) = cs := by
  induction cs with
  | nil => rfl
  | cons c cs ih =>
    rw [pieces]
    cases hp : pieces cs with
    | nil => exact absurd hp (pieces_ne_nil cs)
    | cons p ps =>
      rw [hp] at ih
      split
      · rename_i hc
        subst hc
        rw [List.intercalate_cons_cons, ih]
        rfl
      · cases ps with
        | nil =>
          rw [List.intercalate_singleton] at ih ⊢
          rw [ih]
        | cons q qs =>
          rw [List.intercalate_cons_cons] at ih ⊢
          rw [← ih]
          rfl

example : key "d//a" = key "d/a" ∧ key "d/./a" = key "d/a" ∧ key "d/a/" = key "d/a" := by
  decide +kernel

example : key "./d/a" ≠ key "d/a" ∧ key "d/../d/a" ≠ key "d/a" := by decide +kernel

end ElfUnwind.Path
