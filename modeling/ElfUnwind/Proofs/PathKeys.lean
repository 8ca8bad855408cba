import ElfUnwind.Source.Path

/-!
# Keys of paths

A path is split at its slashes, so joining two paths by a slash puts their steps one behind the
other (`Path.steps_join`). A key is what a path begins with, and the names among its steps. From
these two facts follows which spellings share a key (`Path.componentwise_key`).
-/

namespace ElfUnwind.Path

/-- The steps that lead elsewhere. The step up is one of them. -/
def names (path : String) : List String := (steps path).filter fun step ↦ !stays step

/-- What tells paths apart that have the same names. -/
def root (path : String) : List String :=
  if isAbsolute path then ["/"] else if (steps path).head? = some "." then ["."] else []

/-- Whether a text is one step that leads elsewhere. -/
def IsName (name : String) : Prop := '/' ∉ name.toList ∧ stays name = false

variable {p q a : String}

theorem key_eq (path : String) : key path = root path ++ names path := by
  rw [key, root, names]
  split
  · rfl
  · split <;> rfl

/-! ## Joining paths -/

theorem pieces_join (cs ds : List Char) : pieces (cs ++ '/' :: ds) = pieces cs ++ pieces ds := by
  induction cs with
  | nil => rfl
  | cons c cs ih =>
    rw [List.cons_append, pieces, pieces, ih]
    split
    · rfl
    · cases h : pieces cs with
      | nil => exact absurd h (pieces_ne_nil cs)
      | cons p ps => rfl

theorem steps_join (p q : String) : steps (p ++ "/" ++ q) = steps p ++ steps q := by
  rw [steps, String.toList_append, String.toList_append, List.append_assoc]
  change (pieces (p.toList ++ '/' :: q.toList)).map String.ofList = _
  rw [pieces_join, List.map_append]
  rfl

theorem names_join (p q : String) : names (p ++ "/" ++ q) = names p ++ names q := by
  rw [names, steps_join, List.filter_append]
  rfl

theorem head?_append_of_ne_nil {α : Type} {as : List α} (h : as ≠ []) (bs : List α) :
    (as ++ bs).head? = as.head? := by
  cases as with
  | nil => exact absurd rfl h
  | cons a as => rfl

theorem root_join (hp : p ≠ "") : root (p ++ "/" ++ q) = root p := by
  have hsteps : (steps p ++ steps q).head? = (steps p).head? :=
    head?_append_of_ne_nil (fun h ↦ pieces_ne_nil p.toList (List.map_eq_nil_iff.mp h)) _
  have habsolute : isAbsolute (p ++ "/" ++ q) = isAbsolute p := by
    rw [isAbsolute, isAbsolute, String.append_assoc, String.toList_append,
      head?_append_of_ne_nil fun h ↦ hp (String.toList_eq_nil_iff.mp h)]
  rw [root, root, steps_join, hsteps, habsolute]

theorem key_join (hp : p ≠ "") : key (p ++ "/" ++ q) = key p ++ names q := by
  rw [key_eq, key_eq, root_join hp, names_join, List.append_assoc]

/-- What the key of a path begins with up to a slash. -/
theorem exists_key_join (p : String) : ∃ front, ∀ q, key (p ++ "/" ++ q) = front ++ names q := by
  by_cases hp : p = ""
  · subst hp
    refine ⟨["/"], fun q ↦ ?_⟩
    have habsolute : isAbsolute ("" ++ "/" ++ q) = true := by
      rw [isAbsolute, String.toList_append, head?_append_of_ne_nil (by decide)]
      decide
    rw [key_eq, root, if_pos habsolute, names_join]
    rfl
  · exact ⟨key p, fun q ↦ key_join hp⟩

theorem pieces_of_notMem {cs : List Char} (h : '/' ∉ cs) : pieces cs = [cs] := by
  induction cs with
  | nil => rfl
  | cons c cs ih =>
    obtain ⟨hc, hcs⟩ := not_or.mp (mt List.mem_cons.mpr h)
    rw [pieces, if_neg (Ne.symm hc), ih hcs]

theorem names_of_isName (ha : IsName a) : names a = [a] := by
  obtain ⟨hslash, hstays⟩ := ha
  rw [names, steps, pieces_of_notMem hslash, List.map_singleton, String.ofList_toList,
    List.filter_cons_of_pos (by rw [hstays, Bool.not_false]), List.filter_nil]

/-! ## Spellings -/

/-- Keys of paths are compared by their components: slashes that are repeated or trail do not count,
nor do dots but for a leading one, and every name counts. -/
structure Componentwise (key : String → List String) : Prop where
  /-- Of slashes one behind the other only one counts. -/
  repeatedSlash (p q : String) : key (p ++ "//" ++ q) = key (p ++ "/" ++ q)
  /-- A dot between slashes does not count. -/
  innerDot (p q : String) : key (p ++ "/./" ++ q) = key (p ++ "/" ++ q)
  /-- A slash at the end does not count, if it is not the root. -/
  trailingSlash {p : String} : p ≠ "" → key (p ++ "/") = key p
  /-- A leading dot counts. -/
  leadingDot {p : String} : isAbsolute p = false → (steps p).head? ≠ some "." →
    key ("./" ++ p) = "." :: key p
  /-- Every name counts, also a step up. -/
  name {p a : String} : p ≠ "" → IsName a → key (p ++ "/" ++ a) = key p ++ [a]

/-- **Paths are compared by their components.** -/
theorem componentwise_key : Componentwise key where
  repeatedSlash p q := by
    obtain ⟨front, hfront⟩ := exists_key_join p
    have hsplit : p ++ "//" ++ q = p ++ "/" ++ ("" ++ "/" ++ q) := by
      simp only [String.append_assoc]
      rfl
    rw [hsplit, hfront, hfront, names_join]
    rfl
  innerDot p q := by
    obtain ⟨front, hfront⟩ := exists_key_join p
    have hsplit : p ++ "/./" ++ q = p ++ "/" ++ ("." ++ "/" ++ q) := by
      simp only [String.append_assoc]
      rfl
    rw [hsplit, hfront, hfront, names_join]
    rfl
  trailingSlash {p} hp := by
    have hjoin : key (p ++ "/" ++ "") = key p ++ names "" := key_join hp
    rw [String.append_empty] at hjoin
    rw [hjoin]
    exact List.append_nil _
  leadingDot {p} habsolute hdot := by
    have hroot : root p = [] := by
      rw [root, habsolute, if_neg Bool.false_ne_true, if_neg hdot]
    have hjoin : key ("." ++ "/" ++ p) = key "." ++ names p := key_join (by decide)
    rw [key_eq p, hroot, List.nil_append]
    exact hjoin
  name hp ha := by
    rw [key_join hp, names_of_isName ha]

end ElfUnwind.Path
