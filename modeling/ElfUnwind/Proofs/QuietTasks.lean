import ElfUnwind.Image.Cache
import ElfUnwind.Proofs.TaskRuns

/-!
# Tasks that change nothing

Opening an image only looks at its file. Whatever the file holds, and wherever the opening fails,
the files stay as they were, and nothing is told on the way that a listener for warnings would hear
(`Image.quiet_openFile`). The law goes along the parts that a task is put together of.
-/

namespace ElfUnwind

namespace Task

variable {σ α β ι : Type} {x : Task σ α} {f : α → Task σ β} {e : Error}

/-- The task leaves the state as it was, and tells no warning. -/
structure Quiet (x : Task σ α) : Prop where
  /-- The state is left as it was. -/
  state : ∀ s, (x.ends s).2 = s
  /-- What is told is less than a warning. -/
  told : ∀ s, ∀ event ∈ (x.runFrom s).events, event.level ≠ .warn

theorem Quiet.pure (a : α) : Quiet (Pure.pure a : Task σ α) where
  state _ := rfl
  told _ _ h := absurd h List.not_mem_nil

theorem Quiet.throw (e : Error) : Quiet (MonadExcept.throw e : Task σ α) where
  state _ := rfl
  told _ _ h := absurd h List.not_mem_nil

theorem Quiet.get : Quiet (MonadState.get : Task σ σ) where
  state _ := rfl
  told _ _ h := absurd h List.not_mem_nil

theorem Quiet.tell {event : Event} (h : event.level ≠ .warn) :
    Quiet (tell event : Task σ Unit) where
  state _ := rfl
  told _ event' h' := by
    rw [List.mem_singleton.mp h']
    exact h

/-- What comes behind has to be quiet only for the values that it is given. -/
theorem Quiet.bind_of (hx : x.Quiet) (hf : ∀ s a t, x.ends s = (.ok a, t) → (f a).Quiet) :
    (x >>= f).Quiet where
  state s := by
    have hs := hx.state s
    cases h : x.ends s with
    | mk outcome t =>
      rw [h] at hs
      subst hs
      cases outcome with
      | error e => rw [ends_bind_of_error h]
      | ok a => rw [ends_bind_of_ok h, (hf _ a _ h).state]
  told s := by
    change ∀ event ∈ (x.runFrom s).events ++
      ((ExceptT.bindCont f (x.ends s).1).run (x.ends s).2).events, event.level ≠ .warn
    intro event h
    rcases List.mem_append.mp h with hfirst | hthen
    · exact hx.told s event hfirst
    · cases houtcome : (x.ends s).1 with
      | error e =>
        rw [houtcome] at hthen
        exact absurd hthen List.not_mem_nil
      | ok a =>
        rw [houtcome] at hthen
        exact (hf s a _ (Prod.ext houtcome rfl)).told _ event hthen

theorem Quiet.bind (hx : x.Quiet) (hf : ∀ a, (f a).Quiet) : (x >>= f).Quiet :=
  hx.bind_of fun _ a _ _ ↦ hf a

theorem Quiet.ite {p : Prop} [Decidable p] {y : Task σ α} (hx : x.Quiet) (hy : y.Quiet) :
    (if p then x else y).Quiet := by
  split
  · exact hx
  · exact hy

theorem Quiet.foldlM {step : α → ι → Task σ α} (h : ∀ a i, (step a i).Quiet) (is : List ι) (a : α) :
    (is.foldlM step a).Quiet := by
  induction is generalizing a with
  | nil => exact Quiet.pure a
  | cons i is ih =>
    rw [List.foldlM_cons]
    exact (h a i).bind ih

theorem Quiet.mapM {step : ι → Task σ α} (h : ∀ i, (step i).Quiet) (is : List ι) :
    (is.mapM step).Quiet := by
  induction is with
  | nil => exact Quiet.pure []
  | cons i is ih =>
    rw [List.mapM_cons]
    exact (h i).bind fun _ ↦ ih.bind fun _ ↦ Quiet.pure _

end Task

open ElfUnwind.Task (Quiet)

/-! ## Opening an image -/

namespace Image

variable {σ α : Type} {medium : Medium σ}

section Structure

variable (hm : ∀ length offset, (medium.read length offset).Quiet)

include hm

theorem quiet_readEntry (offset? : Option UInt64) (table : UInt64) (size : Nat)
    (decode? : List UInt8 → Option α) : (readEntry medium offset? table size decode?).Quiet := by
  cases offset? with
  | none => exact Quiet.throw _
  | some offset =>
    refine (hm size offset).bind fun bytes ↦ ?_
    cases decode? bytes with
    | none => exact Quiet.throw _
    | some entry => exact Quiet.pure entry

theorem quiet_readRange (length offset : UInt64) : (medium.readRange length offset).Quiet :=
  Quiet.ite (hm _ _) (Quiet.throw _)

theorem quiet_readClass : (readClass medium).Quiet := by
  refine (hm _ _).bind fun bytes ↦ ?_
  cases ElfClass.ofIdent bytes with
  | error fault => exact Quiet.throw _
  | ok elfClass => exact Quiet.pure elfClass

theorem quiet_readHeader (elfClass : ElfClass) : (readHeader medium elfClass).Quiet := by
  refine (quiet_readEntry hm _ _ _ _).bind fun header ↦ ?_
  exact (Quiet.tell Level.noConfusion).bind fun _ ↦ Quiet.pure header

theorem quiet_readNameTable (header : FileHeader) : (readNameTable medium header).Quiet :=
  Quiet.ite (Quiet.throw _) ((quiet_readEntry hm _ _ _ _).bind fun _ ↦ quiet_readRange hm _ _)

theorem quiet_readSection (header : FileHeader) (names : List UInt8)
    (sections : SortedMap String Section) (index : Nat) :
    (readSection medium header names sections index).Quiet := by
  refine (quiet_readEntry hm _ _ _ _).bind fun entry ↦ Quiet.ite (Quiet.pure sections) ?_
  exact (Quiet.tell Level.noConfusion).bind fun _ ↦ Quiet.pure _

theorem quiet_readSections (header : FileHeader) : (readSections medium header).Quiet := by
  refine (quiet_readNameTable hm header).bind fun names ↦ ?_
  exact Quiet.foldlM (quiet_readSection hm header names) _ _

theorem quiet_readSegments (header : FileHeader) : (readSegments medium header).Quiet := by
  refine Quiet.mapM (fun index ↦ (quiet_readEntry hm _ _ _ _).bind fun segment ↦ ?_) _
  exact (Quiet.tell Level.noConfusion).bind fun _ ↦ Quiet.pure segment

theorem quiet_read (path : String) : (read path medium).Quiet := by
  refine (quiet_readClass hm).bind fun elfClass ↦ ?_
  refine (quiet_readHeader hm elfClass).bind fun header ↦ ?_
  refine (quiet_readSections hm header).bind fun sections ↦ ?_
  refine (quiet_readSegments hm header).bind fun segments ↦ ?_
  exact (Quiet.tell Level.noConfusion).bind fun _ ↦ Quiet.pure _

end Structure

end Image

/-! ## Files -/

namespace FileTree

theorem quiet_read_medium (node : FileNode) (size length : Nat) (offset : UInt64) :
    ((medium node size).read length offset).Quiet := by
  refine Quiet.get.bind fun t ↦ ?_
  dsimp only
  split
  · exact (Quiet.tell Level.noConfusion).bind fun _ ↦ Quiet.throw _
  · exact Quiet.pure _

theorem quiet_openFile (path : String) : (openFile path).Quiet := by
  refine Quiet.get.bind fun t ↦ ?_
  cases t.resolve path with
  | error cause => exact Quiet.throw _
  | ok node => cases node <;> exact Quiet.pure _

theorem eq_medium_of_openFile {path : String} {t t' : FileTree} {m : Medium FileTree}
    (h : (openFile path).ends t = (.ok m, t')) : ∃ node size, m = medium node size := by
  rw [openFile, Task.ends_bind_of_ok (Task.ends_get t)] at h
  cases hresolve : t.resolve path with
  | error cause =>
    rw [hresolve] at h
    cases h
  | ok node =>
    rw [hresolve] at h
    cases node <;> cases h
    · exact ⟨_, _, rfl⟩
    · exact ⟨_, _, rfl⟩

end FileTree

/-- **Opening changes no file** and tells no warning, whatever comes of it. -/
theorem Image.quiet_openFile (path : String) : (Image.openFile path).Quiet := by
  refine (FileTree.quiet_openFile path).bind_of fun t m t' h ↦ ?_
  obtain ⟨node, size, rfl⟩ := FileTree.eq_medium_of_openFile h
  exact quiet_read (FileTree.quiet_read_medium node size) path

end ElfUnwind
