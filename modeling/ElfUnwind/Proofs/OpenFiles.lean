import ElfUnwind.Proofs.AlikeMedia
import ElfUnwind.Proofs.CachedImages

/-!
# Open files while files change

A file that is open is read by its identity. What it shows is told here by its names instead
(`NamedFile`): writing to one of them gives it new contents, removing a name or a directory above it
takes that name away, and no name is ever added, so what is made under an old name later is another
file. The identity in the tree says the same (`FileTree.Shows.apply`).

The size that a file was opened with stays, and the bytes that are read are those it holds now
(`FileTree.ends_read_file`, `FileTree.ends_readRange_file`).
-/

namespace ElfUnwind

/-! ## A file and its names -/

/-- A file as its names show it. -/
structure NamedFile where
  /-- The places that lead to it. -/
  names : List Place
  /-- What it holds. -/
  contents : List UInt8

/-- What a change makes of a file. Which place a path names is given. -/
def NamedFile.after (place : String → Place) (f : NamedFile) : FileChange → NamedFile
  | .write path bytes => if place path ∈ f.names then { f with contents := bytes } else f
  | .remove path => { f with names := f.names.filter fun name ↦ !(place path).isPrefixOf name }
  | .makeDirectory _ => f

namespace FileTree

variable {t : FileTree} {path : String} {p : Place} {id size length : Nat} {offset : UInt64}

/-- Every file in the tree has contents. -/
def Sound (t : FileTree) : Prop := ∀ p id, t.node? p = some (.file id) → id < t.contents.length

/-- The file of an identity. -/
def namedFile (t : FileTree) (id : Nat) : NamedFile where
  names := (t.nodes.map Prod.fst).filter fun p ↦ t.node? p = some (.file id)
  contents := t.content id

/-! ## What changes leave -/

/-- A file that is made where nothing was has an identity of its own. -/
theorem node?_write (t : FileTree) (path : String) (bytes : List UInt8) (p : Place) :
    (t.write path bytes).node? p =
      if t.node? (t.place path) = none ∧ p = t.place path then some (.file t.contents.length)
      else t.node? p := by
  rw [write]
  cases hnode : t.node? (t.place path) with
  | some node =>
    rw [if_neg fun h ↦ absurd h.1 nofun]
    cases node <;> rfl
  | none =>
    by_cases hp : p = t.place path
    · subst hp
      have hnil : t.place path ≠ [] := by
        intro hnil
        rw [hnil] at hnode
        cases hnode
      rw [if_pos ⟨rfl, rfl⟩, node?, if_neg hnil, List.lookup_cons_self]
    · rw [if_neg fun h ↦ hp h.2, node?, node?, List.lookup_cons, beq_false_of_ne hp]

theorem node?_write_of_lt (hid : id < t.contents.length) (path : String) (bytes : List UInt8) :
    (t.write path bytes).node? p = some (.file id) ↔ t.node? p = some (.file id) := by
  rw [node?_write]
  split
  case isFalse => rfl
  case isTrue h =>
    rw [h.2, h.1, Option.some.injEq, FileNode.file.injEq]
    exact ⟨fun heq ↦ absurd heq (Nat.ne_of_gt hid), nofun⟩

/-- Filtering by keys leaves the look-ups of the keys that stay. -/
theorem lookup_filter_fst {α β : Type} [BEq α] [LawfulBEq α] (keeps : α → Bool) (k : α)
    (l : List (α × β)) :
    (l.filter fun entry ↦ keeps entry.1).lookup k = if keeps k then l.lookup k else none := by
  induction l with
  | nil => exact (ite_self _).symm
  | cons entry l ih =>
    obtain ⟨key, value⟩ := entry
    rw [List.filter_cons]
    by_cases hk : k = key
    · subst hk
      cases hkeeps : keeps k with
      | false => rw [if_neg Bool.false_ne_true, ih, hkeeps, if_neg Bool.false_ne_true,
          if_neg Bool.false_ne_true]
      | true => rw [if_pos rfl, if_pos rfl, List.lookup_cons_self, List.lookup_cons_self]
    · have hskip (l : List (α × β)) : ((key, value) :: l).lookup k = l.lookup k := by
        rw [List.lookup_cons, beq_false_of_ne hk]
      rw [hskip, ← ih]
      split
      · exact hskip _
      · rfl

theorem node?_remove (path : String) :
    (t.remove path).node? p = some (.file id) ↔
      t.node? p = some (.file id) ∧ (t.place path).isPrefixOf p = false := by
  by_cases hp : p = []
  · subst hp
    exact ⟨nofun, fun h ↦ absurd h.1 nofun⟩
  · rw [node?, node?, if_neg hp, if_neg hp, remove,
      lookup_filter_fst (fun place ↦ !(t.place path).isPrefixOf place)]
    cases (t.place path).isPrefixOf p <;> simp

theorem node?_makeDirectory (path : String) :
    (t.makeDirectory path).node? p = some (.file id) ↔ t.node? p = some (.file id) := by
  by_cases hp : p = []
  · subst hp
    rfl
  rw [node?, if_neg hp, makeDirectory, List.lookup_append]
  generalize hmissing : (((List.range ((t.place path).length + 1)).map (t.place path).take).filter
    fun p ↦ (t.node? p).isNone) = missing
  cases hlookup : (missing.map (·, FileNode.directory)).lookup p with
  | none =>
    rw [Option.none_or, node?, if_neg hp]
  | some node =>
    -- A directory is made only where there was nothing.
    obtain ⟨before, after, hsplit, -⟩ := List.lookup_eq_some_iff.mp hlookup
    obtain ⟨q, hq, heq⟩ := List.mem_map.mp
      (hsplit ▸ List.mem_append_right before List.mem_cons_self : (p, node) ∈ missing.map _)
    cases heq
    rw [← hmissing] at hq
    rw [Option.some_or, Option.isNone_iff_eq_none.mp (List.mem_filter.mp hq).2]
    exact ⟨nofun, nofun⟩

theorem content_write (hid : id < t.contents.length) (path : String) (bytes : List UInt8) :
    (t.write path bytes).content id =
      if t.node? (t.place path) = some (.file id) then bytes else t.content id := by
  rw [write]
  cases hnode : t.node? (t.place path) with
  | none =>
    rw [if_neg nofun, content, content, List.getD_eq_getElem?_getD, List.getElem?_append_left hid,
      List.getD_eq_getElem?_getD]
  | some node =>
    cases node with
    | directory => rw [if_neg nofun]
    | file other =>
      rw [content, List.getD_eq_getElem?_getD, List.getElem?_set]
      by_cases hother : other = id
      · subst hother
        rw [if_pos rfl, if_pos hid, if_pos rfl]
        rfl
      · have hne : some (FileNode.file other) ≠ some (FileNode.file id) := by
          rwa [Ne, Option.some.injEq, FileNode.file.injEq]
        rw [if_neg hother, if_neg hne, content, List.getD_eq_getElem?_getD]

theorem length_contents_apply (t : FileTree) (c : FileChange) :
    t.contents.length ≤ (c.apply t).contents.length := by
  cases c with
  | write path bytes =>
    rw [FileChange.apply, write]
    split
    · exact Nat.le_of_eq List.length_set.symm
    · exact Nat.le_refl _
    · rw [List.length_append]
      exact Nat.le_add_right _ _
  | remove path => exact Nat.le_refl _
  | makeDirectory path => exact Nat.le_refl _

/-- No change moves the working directory, so a path names the same place throughout. -/
theorem place_apply (t : FileTree) (c : FileChange) : (c.apply t).place = t.place := by
  cases c with
  | write path bytes =>
    rw [FileChange.apply, write]
    split <;> rfl
  | remove path => rfl
  | makeDirectory path => rfl

/-! ## The tree and the names -/

theorem sound_empty (working : Place) : (empty working).Sound := by
  intro p id h
  rw [node?] at h
  split at h
  · cases h
  · obtain ⟨before, after, hsplit, -⟩ := List.lookup_eq_some_iff.mp h
    obtain ⟨i, -, heq⟩ := List.mem_map.mp
      (hsplit ▸ List.mem_append_right before List.mem_cons_self :
        (p, FileNode.file id) ∈ (empty working).nodes)
    cases heq

theorem Sound.apply (h : t.Sound) (c : FileChange) : (c.apply t).Sound := by
  intro p id hnode
  have hle := length_contents_apply t c
  cases c with
  | remove path => exact h p id ((node?_remove path).mp hnode).1
  | makeDirectory path => exact h p id ((node?_makeDirectory path).mp hnode)
  | write path bytes =>
    rw [FileChange.apply, node?_write] at hnode
    split at hnode
    case isFalse => exact Nat.lt_of_lt_of_le (h p id hnode) hle
    case isTrue hnew =>
      cases hnode
      rw [FileChange.apply, write, hnew.1, List.length_append]
      exact Nat.lt_succ_self _

theorem Sound.applyAll (h : t.Sound) (changes : List FileChange) :
    (changes.foldl FileChange.apply t).Sound := by
  induction changes generalizing t with
  | nil => exact h
  | cons c changes ih => exact ih (h.apply c)

/-- The file of an identity is in the tree, and there it is what its names show. -/
structure Shows (t : FileTree) (id : Nat) (f : NamedFile) : Prop where
  /-- It is in the tree. -/
  lt : id < t.contents.length
  /-- Its names are the places that lead to it. -/
  names : ∀ p, p ∈ f.names ↔ t.node? p = some (.file id)
  /-- It has its contents. -/
  contents : t.content id = f.contents

theorem mem_of_node? {node : FileNode} (hp : p ≠ []) (h : t.node? p = some node) :
    p ∈ t.nodes.map Prod.fst := by
  rw [node?, if_neg hp] at h
  obtain ⟨before, after, hsplit, -⟩ := List.lookup_eq_some_iff.mp h
  rw [hsplit, List.map_append]
  exact List.mem_append_right _ List.mem_cons_self

theorem shows_namedFile (hid : id < t.contents.length) : t.Shows id (t.namedFile id) where
  lt := hid
  names p := by
    rw [namedFile, List.mem_filter, decide_eq_true_iff]
    refine ⟨And.right, fun h ↦ ⟨mem_of_node? ?_ h, h⟩⟩
    rintro rfl
    cases h
  contents := rfl

/-- **What a change makes of a file is seen by its names.** -/
theorem Shows.apply {f : NamedFile} (h : t.Shows id f) (c : FileChange) :
    (c.apply t).Shows id (f.after t.place c) where
  lt := Nat.lt_of_lt_of_le h.lt (length_contents_apply t c)
  names p := by
    cases c with
    | write path bytes =>
      rw [FileChange.apply, node?_write_of_lt h.lt, ← h.names, NamedFile.after]
      split <;> rfl
    | remove path =>
      rw [FileChange.apply, node?_remove, ← h.names, NamedFile.after, List.mem_filter,
        Bool.not_eq_true']
    | makeDirectory path => rw [FileChange.apply, node?_makeDirectory, ← h.names, NamedFile.after]
  contents := by
    cases c with
    | write path bytes =>
      rw [FileChange.apply, content_write h.lt, NamedFile.after, h.contents]
      simp only [h.names]
      split <;> rfl
    | remove path => exact h.contents
    | makeDirectory path => exact h.contents

theorem Shows.applyAll {f : NamedFile} (h : t.Shows id f) (changes : List FileChange) :
    (changes.foldl FileChange.apply t).Shows id (changes.foldl (NamedFile.after t.place) f) := by
  induction changes generalizing t f with
  | nil => exact h
  | cons c changes ih =>
    have hrest := ih (h.apply c)
    rwa [place_apply] at hrest

theorem exists_node?_of_resolve {node : FileNode} (h : t.resolve path = .ok node) :
    ∃ p, t.node? p = some node := by
  rw [resolve] at h
  by_cases hzero : path.toList.contains '\x00' = true
  · rw [if_pos hzero] at h
    cases h
  by_cases hlong : pathLimit ≤ path.utf8ByteSize
  · rw [if_neg hzero, if_pos hlong] at h
    cases h
  by_cases hempty : path = ""
  · rw [if_neg hzero, if_neg hlong, if_pos hempty] at h
    cases h
  rw [if_neg hzero, if_neg hlong, if_neg hempty] at h
  cases hfound : (Path.steps path).foldlM t.enter (t.origin path) with
  | error cause =>
    rw [hfound] at h
    cases h
  | ok place =>
    simp only [hfound, bind, Except.bind] at h
    cases hnode : t.node? place with
    | none =>
      rw [hnode] at h
      cases h
    | some found =>
      rw [hnode] at h
      cases h
      exact ⟨place, hnode⟩

/-! ## Reads of an open file -/

/-- A file whose end a position can tell gives what it has. Nothing is there everywhere. -/
theorem refusal?_eq_none_iff (hlimit : size < positionLimit) :
    refusal? (some size) length offset = none ↔ length = 0 ∨ offset.toNat + length ≤ size := by
  rw [refusal?]
  by_cases hempty : length = 0
  · rw [if_pos hempty]
    exact ⟨fun _ ↦ Or.inl hempty, fun _ ↦ rfl⟩
  rw [if_neg hempty, or_iff_right hempty]
  by_cases hle : offset.toNat + length ≤ size
  · rw [if_neg (by omega), if_neg (by omega)]
    exact ⟨fun _ ↦ hle, fun _ ↦ rfl⟩
  · -- Which of the two refusals it is does not matter.
    rw [if_pos (Nat.lt_of_not_le hle)]
    refine ⟨fun h ↦ ?_, fun h ↦ absurd h hle⟩
    split at h <;> cases h

theorem ends_read_file (hlimit : (t.content id).length < positionLimit) (size length : Nat)
    (offset : UInt64) :
    ((medium (.file id) size).read length offset).ends t =
      (if length = 0 ∨ offset.toNat + length ≤ (t.content id).length then
        .ok (((t.content id).drop offset.toNat).take length)
      else .error (.truncatedRead offset.toNat length), t) := by
  rw [medium]
  dsimp only
  rw [Task.ends_bind_of_ok (Task.ends_get t)]
  dsimp only [Option.map_some]
  cases hrefusal : refusal? (some (t.content id).length) length offset with
  | none =>
    rw [if_pos ((refusal?_eq_none_iff hlimit).mp hrefusal)]
    rfl
  | some cause =>
    rw [if_neg fun h ↦ absurd ((refusal?_eq_none_iff hlimit).mpr h) (by rw [hrefusal]; nofun)]
    rfl

theorem ends_readRange_file (hlimit : (t.content id).length < positionLimit) (size : Nat)
    (length offset : UInt64) :
    ((medium (.file id) size).readRange length offset).ends t =
      (if offset.toNat + length.toNat ≤ size ∧
          (length = 0 ∨ offset.toNat + length.toNat ≤ (t.content id).length) then
        .ok (((t.content id).drop offset.toNat).take length.toNat)
      else .error (.truncatedRead offset.toNat length.toNat), t) := by
  have hzero : length.toNat = 0 ↔ length = 0 := by rw [← UInt64.toNat_inj, UInt64.toNat_zero]
  by_cases hsize : offset.toNat + length.toNat ≤ size
  · rw [Medium.ends_readRange_of_le _ hsize, ends_read_file hlimit]
    simp only [hsize, true_and, hzero]
  · rw [Medium.ends_readRange_of_lt _ (Nat.lt_of_not_le hsize), if_neg fun h ↦ hsize h.1]

end FileTree

end ElfUnwind
