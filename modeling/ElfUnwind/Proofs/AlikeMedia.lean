import ElfUnwind.Proofs.FrameRequests

/-!
# Media that serve alike

Two media may keep their bytes in different ways and have states of their own. If they have one size
and answer alike to every read that is not empty, and to every empty one within that size, then
nobody who works with an image can tell which of them it is on: it opens on both or fails on both
with one error (`Image.alike_read`), and it gives the same answers (`Image.Alike.answer`).

Empty reads beyond the size are left out because media do differ there. No image makes one: entries
of tables are not empty, and a whole range is held against the size before it is read.
-/

namespace ElfUnwind

/-- The outcomes are one failure, or values that belong together. -/
inductive Agree {α β : Type} (V : α → β → Prop) : Except Error α → Except Error β → Prop where
  /-- Values that belong together. -/
  | ok {a : α} {b : β} : V a b → Agree V (.ok a) (.ok b)
  /-- One failure. -/
  | error (e : Error) : Agree V (.error e) (.error e)

theorem Agree.refl {α : Type} (outcome : Except Error α) : Agree Eq outcome outcome := by
  cases outcome with
  | ok a => exact .ok rfl
  | error e => exact .error e

section Agree

variable {α β : Type} {V W : α → β → Prop} {x : Except Error α} {y : Except Error β} {a : α} {b : β}
  {e : Error}

theorem Agree.mono (hVW : ∀ a b, V a b → W a b) (h : Agree V x y) : Agree W x y := by
  cases h with
  | ok h => exact .ok (hVW _ _ h)
  | error e => exact .error e

theorem Agree.eq_error_iff (h : Agree V x y) : x = .error e ↔ y = .error e := by
  cases h with
  | ok => exact ⟨nofun, nofun⟩
  | error e' => rw [Except.error.injEq, Except.error.injEq]

theorem Agree.exists_of_ok_left (h : Agree V (.ok a) y) : ∃ b, y = .ok b ∧ V a b := by
  cases h with
  | ok h => exact ⟨_, rfl, h⟩

theorem Agree.exists_of_ok_right (h : Agree V x (.ok b)) : ∃ a, x = .ok a ∧ V a b := by
  cases h with
  | ok h => exact ⟨_, rfl, h⟩

end Agree

theorem Agree.eq {α : Type} {x y : Except Error α} (h : Agree Eq x y) : x = y := by
  cases h with
  | ok h => rw [h]
  | error e => rfl

/-! ## Tasks -/

namespace Task

variable {σ τ α β γ δ ι : Type} {R : σ → τ → Prop} {V : α → β → Prop} {W : γ → δ → Prop}
  {x : Task σ α} {y : Task τ β} {f : α → Task σ γ} {g : β → Task τ δ}

/-- From states that belong together the tasks come to outcomes that agree, and leave states that
belong together. -/
def Alike (R : σ → τ → Prop) (V : α → β → Prop) (x : Task σ α) (y : Task τ β) : Prop :=
  ∀ s t, R s t → Agree V (x.ends s).1 (y.ends t).1 ∧ R (x.ends s).2 (y.ends t).2

theorem Alike.pure {a : α} {b : β} (h : V a b) :
    Alike R V (Pure.pure a : Task σ α) (Pure.pure b : Task τ β) := fun _ _ hR ↦ ⟨.ok h, hR⟩

theorem Alike.throw (e : Error) :
    Alike R V (MonadExcept.throw e : Task σ α) (MonadExcept.throw e : Task τ β) :=
  fun _ _ hR ↦ ⟨.error e, hR⟩

theorem Alike.tell (event event' : Event) :
    Alike R Eq (tell event : Task σ Unit) (tell event' : Task τ Unit) :=
  fun _ _ hR ↦ ⟨.ok rfl, hR⟩

theorem Alike.bind (hx : Alike R V x y) (hf : ∀ a b, V a b → Alike R W (f a) (g b)) :
    Alike R W (x >>= f) (y >>= g) := by
  intro s t hR
  obtain ⟨hagree, hstates⟩ := hx s t hR
  cases hs : x.ends s with
  | mk first s' =>
    cases ht : y.ends t with
    | mk second t' =>
      rw [hs, ht] at hagree hstates
      cases hagree with
      | error e =>
        rw [ends_bind_of_error hs, ends_bind_of_error ht]
        exact ⟨.error e, hstates⟩
      | ok hV =>
        rw [ends_bind_of_ok hs, ends_bind_of_ok ht]
        exact hf _ _ hV s' t' hstates

/-- A task behind that is given one and the same value. -/
theorem Alike.bind_eq {x : Task σ α} {y : Task τ α} {g : α → Task τ δ} (hx : Alike R Eq x y)
    (hf : ∀ a, Alike R W (f a) (g a)) : Alike R W (x >>= f) (y >>= g) := by
  refine hx.bind fun a b hab ↦ ?_
  subst hab
  exact hf a

theorem Alike.ite {p : Prop} [Decidable p] {x' : Task σ α} {y' : Task τ β} (h : Alike R V x y)
    (h' : Alike R V x' y') : Alike R V (if p then x else x') (if p then y else y') := by
  split
  · exact h
  · exact h'

theorem Alike.foldlM {step : α → ι → Task σ α} {step' : α → ι → Task τ α}
    (h : ∀ a i, Alike R Eq (step a i) (step' a i)) (is : List ι) (a : α) :
    Alike R Eq (is.foldlM step a) (is.foldlM step' a) := by
  induction is generalizing a with
  | nil => exact Alike.pure rfl
  | cons i is ih =>
    rw [List.foldlM_cons, List.foldlM_cons]
    exact (h a i).bind_eq ih

theorem Alike.mapM {step : ι → Task σ α} {step' : ι → Task τ α}
    (h : ∀ i, Alike R Eq (step i) (step' i)) (is : List ι) :
    Alike R Eq (is.mapM step) (is.mapM step') := by
  induction is with
  | nil => exact Alike.pure rfl
  | cons i is ih =>
    rw [List.mapM_cons, List.mapM_cons]
    exact (h i).bind_eq fun _ ↦ ih.bind_eq fun _ ↦ Alike.pure rfl

/-- States that have something to themselves belong together if that is the same. -/
def Beside (μ : Type) (R : σ → τ → Prop) (s : μ × σ) (t : μ × τ) : Prop := s.1 = t.1 ∧ R s.2 t.2

theorem Alike.onSecond {μ : Type} (h : Alike R V x y) :
    Alike (Beside μ R) V x.onSecond y.onSecond := by
  rintro ⟨m, s⟩ ⟨m', t⟩ ⟨hm, hR⟩
  rw [ends_onSecond, ends_onSecond]
  exact ⟨(h s t hR).1, hm, (h s t hR).2⟩

end Task

open ElfUnwind.Task (Beside)

variable {σ τ : Type} {R : σ → τ → Prop}

/-! ## Media -/

namespace Medium

/-- The media have one size, and answer alike to every read that is not empty or lies within it. -/
structure Alike (R : σ → τ → Prop) (m : Medium σ) (n : Medium τ) : Prop where
  /-- They have one size. -/
  size_eq : m.size = n.size
  /-- They answer alike. -/
  read (length : Nat) (offset : UInt64) : 0 < length ∨ offset.toNat + length ≤ m.size →
    Task.Alike R Eq (m.read length offset) (n.read length offset)

/-- Putting reads on record does not change what they come to. -/
theorem alike_recorded (m : Medium σ) : m.Alike (fun s t ↦ s = t.2) m.recorded where
  size_eq := rfl
  read length offset _ := by
    rintro s t rfl
    rw [ends_read_recorded]
    exact ⟨Agree.refl _, rfl⟩

/-- A range that does not lie within the size is not read. -/
theorem Alike.readRange {m : Medium σ} {n : Medium τ} (h : m.Alike R n) (length offset : UInt64) :
    Task.Alike R Eq (m.readRange length offset) (n.readRange length offset) := by
  rw [Medium.readRange, Medium.readRange, ← h.size_eq]
  split
  case isTrue hle => exact h.read _ _ (Or.inr hle)
  case isFalse => exact Task.Alike.throw _

end Medium

/-! ## Images -/

namespace Image

section Structure

variable {m : Medium σ} {n : Medium τ} (h : m.Alike R n)

include h

theorem alike_readEntry {α : Type} (offset? : Option UInt64) (table : UInt64) {size : Nat}
    (hsize : 0 < size) (decode? : List UInt8 → Option α) :
    Task.Alike R Eq (readEntry m offset? table size decode?)
      (readEntry n offset? table size decode?) := by
  cases offset? with
  | none => exact Task.Alike.throw _
  | some offset =>
    refine (h.read size offset (Or.inl hsize)).bind_eq fun bytes ↦ ?_
    cases decode? bytes with
    | none => exact Task.Alike.throw _
    | some entry => exact Task.Alike.pure rfl

theorem alike_readClass : Task.Alike R Eq (readClass m) (readClass n) := by
  refine (h.read _ 0 (Or.inl (by decide))).bind_eq fun bytes ↦ ?_
  cases ElfClass.ofIdent bytes with
  | error fault => exact Task.Alike.throw _
  | ok elfClass => exact Task.Alike.pure rfl

theorem alike_readHeader (elfClass : ElfClass) :
    Task.Alike R Eq (readHeader m elfClass) (readHeader n elfClass) := by
  have hsize : 0 < elfClass.headerSize := by cases elfClass <;> decide
  refine (alike_readEntry h _ _ hsize _).bind_eq fun header ↦ ?_
  exact (Task.Alike.tell _ _).bind_eq fun _ ↦ Task.Alike.pure rfl

theorem alike_readSectionEntry (header : FileHeader) (index : UInt16) :
    Task.Alike R Eq (readSectionEntry m header index) (readSectionEntry n header index) :=
  alike_readEntry h _ _ (by cases header.elfClass <;> decide) _

theorem alike_readNameTable (header : FileHeader) :
    Task.Alike R Eq (readNameTable m header) (readNameTable n header) := by
  refine Task.Alike.ite (Task.Alike.throw _) ?_
  exact (alike_readSectionEntry h header _).bind_eq fun entry ↦ h.readRange _ _

theorem alike_readSection (header : FileHeader) (names : List UInt8)
    (sections : SortedMap String Section) (index : Nat) :
    Task.Alike R Eq (readSection m header names sections index)
      (readSection n header names sections index) := by
  refine (alike_readSectionEntry h header _).bind_eq fun entry ↦ ?_
  refine Task.Alike.ite (Task.Alike.pure rfl) ?_
  exact (Task.Alike.tell _ _).bind_eq fun _ ↦ Task.Alike.pure rfl

theorem alike_readSections (header : FileHeader) :
    Task.Alike R Eq (readSections m header) (readSections n header) := by
  refine (alike_readNameTable h header).bind_eq fun names ↦ ?_
  exact Task.Alike.foldlM (alike_readSection h header names) _ _

theorem alike_readSegments (header : FileHeader) :
    Task.Alike R Eq (readSegments m header) (readSegments n header) := by
  refine Task.Alike.mapM (fun index ↦ ?_) _
  have hsize : 0 < header.elfClass.segmentEntrySize := by cases header.elfClass <;> decide
  refine (alike_readEntry h _ _ hsize _).bind_eq fun segment ↦ ?_
  exact (Task.Alike.tell _ _).bind_eq fun _ ↦ Task.Alike.pure rfl

end Structure

/-- The images differ at most in what they are called and in which of two media that serve alike
they are on. -/
structure Alike (R : σ → τ → Prop) (i : Image σ) (j : Image τ) : Prop where
  /-- The media serve alike. -/
  medium : i.medium.Alike R j.medium
  /-- They have one file header. -/
  header_eq : i.header = j.header
  /-- They have the same sections. -/
  sections_eq : i.sections = j.sections
  /-- They have the same segments. -/
  segments_eq : i.segments = j.segments

/-- **An image opens alike on media that serve alike.** -/
theorem alike_read {m : Medium σ} {n : Medium τ} (h : m.Alike R n) (path path' : String) :
    Task.Alike R (fun i j ↦ i.Alike R j ∧ i.medium = m ∧ j.medium = n) (read path m)
      (read path' n) := by
  refine (alike_readClass h).bind_eq fun elfClass ↦ ?_
  refine (alike_readHeader h elfClass).bind_eq fun header ↦ ?_
  refine (alike_readSections h header).bind_eq fun sections ↦ ?_
  refine (alike_readSegments h header).bind_eq fun segments ↦ ?_
  exact (Task.Alike.tell _ _).bind_eq fun _ ↦ Task.Alike.pure ⟨⟨h, rfl, rfl, rfl⟩, rfl, rfl⟩

theorem alike_recorded (image : Image σ) : image.Alike (fun s t ↦ s = t.2) image.recorded :=
  ⟨image.medium.alike_recorded, rfl, rfl, rfl⟩

namespace Alike

variable {i : Image σ} {j : Image τ} {s : FrameMemo × σ} {t : FrameMemo × τ}

/-- Which states belong together matters to the media alone. -/
theorem of_medium {S : σ → τ → Prop} (h : i.Alike R j) (hmedium : i.medium.Alike S j.medium) :
    i.Alike S j :=
  ⟨hmedium, h.header_eq, h.sections_eq, h.segments_eq⟩

theorem section?_eq (h : i.Alike R j) (name : String) : i.section? name = j.section? name := by
  rw [section?, section?, h.sections_eq]

theorem lowestExecutable?_eq (h : i.Alike R j) : i.lowestExecutable? = j.lowestExecutable? := by
  rw [lowestExecutable?, lowestExecutable?, h.segments_eq]

theorem sectionData (h : i.Alike R j) (name : String) :
    Task.Alike R Eq (i.sectionData name) (j.sectionData name) := by
  rw [Image.sectionData, Image.sectionData, h.section?_eq]
  cases j.section? name with
  | none => exact Task.Alike.throw _
  | some found => exact h.medium.readRange _ _

theorem decodeFrames (h : i.Alike R j) (kind : FrameSection) (found : Section)
    (bytes : List UInt8) :
    Task.Alike (Beside FrameMemo R) Eq (i.decodeFrames kind found bytes)
      (j.decodeFrames kind found bytes) := by
  rintro ⟨memo, s⟩ ⟨_, t⟩ ⟨rfl, hR⟩
  rw [ends_decodeFrames, ends_decodeFrames, freshDecode, freshDecode, freshPass, freshPass,
    h.header_eq]
  split
  · exact ⟨.ok rfl, rfl, hR⟩
  · exact ⟨.error _, rfl, hR⟩

theorem readFrames (h : i.Alike R j) (kind : FrameSection) :
    Task.Alike (Beside FrameMemo R) Eq (i.readFrames kind) (j.readFrames kind) := by
  have hget : Task.Alike (Beside FrameMemo R) (Beside FrameMemo R)
      (get : Task (FrameMemo × σ) _) (get : Task (FrameMemo × τ) _) := fun _ _ hR ↦ ⟨.ok hR, hR⟩
  refine hget.bind ?_
  rintro ⟨memo, s⟩ ⟨_, t⟩ ⟨rfl, -⟩
  dsimp only
  rw [h.section?_eq]
  split
  · exact Task.Alike.pure rfl
  · exact Task.Alike.throw _
  · cases j.section? kind.name with
    | none => exact (Task.Alike.tell _ _).bind_eq fun _ ↦ Task.Alike.throw _
    | some found =>
      exact (h.medium.readRange _ _).onSecond.bind_eq fun bytes ↦ h.decodeFrames kind found bytes

/-- A request is answered alike. -/
theorem answer (h : i.Alike R j) (hst : Beside FrameMemo R s t) (r : FrameRequest) :
    (i.answer s r).1 = (j.answer t r).1 ∧
      Beside FrameMemo R (i.answer s r).2 (j.answer t r).2 := by
  cases r with
  | frames kind =>
    obtain ⟨hagree, hstates⟩ := h.readFrames kind s t hst
    exact ⟨congrArg (FrameAnswer.frames kind) hagree.eq, hstates⟩
  | look kind =>
    refine ⟨congrArg (FrameAnswer.look kind) ?_, hst⟩
    rw [hst.1]
  | contents name =>
    obtain ⟨hagree, hstates⟩ := (h.sectionData name).onSecond s t hst
    exact ⟨congrArg (FrameAnswer.contents name) hagree.eq, hstates⟩

end Alike

end Image

end ElfUnwind
