import ElfUnwind.Image.Structure
import ElfUnwind.Proofs.Checks
import ElfUnwind.Proofs.FieldPositions
import Mathlib.Data.List.TakeWhile

/-!
# What opening accepts and reports

Any bytes have something at each place where an image has a part of its structure. `OnDisk` says
what, by positions in natural numbers and without a read. Opening the bytes makes a row of checks,
`OnDisk.checks`, and when all of them hold it reports what is on disk, whatever that is.
-/

namespace ElfUnwind

namespace OnDisk

variable (bytes : List UInt8)

/-- The bytes of a range. -/
def slice (position size : Nat) : List UInt8 := (bytes.drop position).take size

/-- The class that the identification declares. -/
def elfClass : ElfClass := if bytes.getD 4 0 = 1 then .elf32 else .elf64

/-- The file header. -/
def header : FileHeader :=
  FileHeader.ofBytes (elfClass bytes) (slice bytes 0 (elfClass bytes).headerSize)

/-- Where an entry of the section table stands. -/
def sectionPosition (index : Nat) : Nat :=
  (header bytes).sectionTable.toNat + index * (header bytes).sectionEntrySize.toNat

/-- An entry of the section table. -/
def sectionEntry (index : Nat) : SectionEntry :=
  SectionEntry.ofBytes (elfClass bytes)
    (slice bytes (sectionPosition bytes index) (elfClass bytes).sectionEntrySize)

/-- The entry of the table of names. -/
def nameEntry : SectionEntry := sectionEntry bytes (header bytes).nameTableIndex.toNat

/-- The table of names. -/
def nameTable : List UInt8 :=
  slice bytes (nameEntry bytes).offset.toNat (nameEntry bytes).size.toNat

/-- Where the name of a section begins in the table of names. -/
def nameStart (index : Nat) : Nat := (sectionEntry bytes index).nameOffset.toNat

/-- How many bytes stand in the table of names from there to the next zero, or to its end. -/
def nameLength (index : Nat) : Nat := ((nameTable bytes).drop (nameStart bytes index)).idxOf 0

/-- The bytes of the name of a section. -/
def rawName (index : Nat) : List UInt8 :=
  slice (nameTable bytes) (nameStart bytes index) (nameLength bytes index)

/-- The name of a section as text. -/
def sectionName (index : Nat) : String := Text.Utf8.decode (rawName bytes index)

/-- An entry of the section table with its name. -/
def namedSection (index : Nat) : Section :=
  (sectionEntry bytes index).named (sectionName bytes index)

/-- Where an entry of the segment table stands. -/
def segmentPosition (index : Nat) : Nat :=
  (header bytes).segmentTable.toNat + index * (header bytes).segmentEntrySize.toNat

/-- An entry of the segment table. -/
def segment (index : Nat) : Segment :=
  Segment.ofBytes (elfClass bytes)
    (slice bytes (segmentPosition bytes index) (elfClass bytes).segmentEntrySize)

/-- Adds an entry of the section table to the sections, unless it has no name. -/
def addSection (sections : SortedMap String Section) (index : Nat) : SortedMap String Section :=
  if sectionName bytes index = "" then sections
  else sections.insert (sectionName bytes index) (namedSection bytes index)

/-- The sections by name that the first entries of the table give. -/
def sectionsUpTo (count : Nat) : SortedMap String Section :=
  (List.range count).foldl (addSection bytes) .empty

/-- The segments in the order of their table. -/
def segments : List Segment :=
  (List.range (header bytes).segmentCount.toNat).map (segment bytes)

/-! ## The checks -/

/-- That a range lies in the bytes. -/
def rangeCheck (position size : Nat) : Check :=
  ⟨position + size ≤ bytes.length, .truncatedRead position size⟩

/-- That an entry of a table lies in the bytes. A position of more than 64 bits is reported as the
start of the table. -/
def entryCheck (table : UInt64) (position size : Nat) : Check :=
  if position < UInt64.size then rangeCheck bytes position size
  else ⟨false, .truncatedRead table.toNat size⟩

/-- That an entry of the section table lies in the bytes. -/
def sectionCheck (index : Nat) : Check :=
  entryCheck bytes (header bytes).sectionTable (sectionPosition bytes index)
    (elfClass bytes).sectionEntrySize

/-- That an entry of the segment table lies in the bytes. -/
def segmentCheck (index : Nat) : Check :=
  entryCheck bytes (header bytes).segmentTable (segmentPosition bytes index)
    (elfClass bytes).segmentEntrySize

/-- The checks of the identification. -/
def identChecks : List Check :=
  [rangeCheck bytes 0 ElfClass.identSize,
   ⟨bytes.take 4 = ElfClass.magic, .notAnImage .magic⟩,
   ⟨bytes.getD 5 0 = 1, .notAnImage (.dataEncoding (bytes.getD 5 0))⟩,
   ⟨bytes.getD 4 0 = 1 ∨ bytes.getD 4 0 = 2, .notAnImage (.wordClass (bytes.getD 4 0))⟩]

/-- The checks of the table of names. -/
def nameChecks : List Check :=
  [⟨(header bytes).nameTableIndex ≠ 0, .missingNameTable⟩,
   sectionCheck bytes (header bytes).nameTableIndex.toNat,
   rangeCheck bytes (nameEntry bytes).offset.toNat (nameEntry bytes).size.toNat]

/-- The checks of opening, in their order. -/
def checks : List Check :=
  identChecks bytes ++ rangeCheck bytes 0 (elfClass bytes).headerSize :: nameChecks bytes ++
    (List.range (header bytes).sectionCount.toNat).map (sectionCheck bytes) ++
    (List.range (header bytes).segmentCount.toNat).map (segmentCheck bytes)

/-! ## Each read makes its checks -/

section Reads

variable {σ α : Type} {bytes} {decode? : List UInt8 → Option α} {value : List UInt8 → α}

theorem rangeCheck_holds_iff {position size : Nat} :
    (rangeCheck bytes position size).holds = true ↔ position + size ≤ bytes.length :=
  decide_eq_true_iff

theorem makes_read (bytes : List UInt8) (size : Nat) (offset : UInt64) :
    ((Medium.ofBytes bytes).read size offset : Task σ _).Makes
      [rangeCheck bytes offset.toNat size] (slice bytes offset.toNat size) := by
  intro s
  by_cases h : offset.toNat + size ≤ bytes.length
  · rw [Check.run_cons_of_holds (rangeCheck_holds_iff.mpr h), Task.ends,
      Medium.runFrom_read_ofBytes_of_le h]
    rfl
  · rw [Check.run_cons_of_not_holds (mt rangeCheck_holds_iff.mp h), Task.ends,
      Medium.runFrom_read_ofBytes_of_lt (Nat.not_le.mp h)]
    rfl

theorem makes_readRange (bytes : List UInt8) (length offset : UInt64) :
    ((Medium.ofBytes bytes).readRange length offset : Task σ _).Makes
      [rangeCheck bytes offset.toNat length.toNat] (slice bytes offset.toNat length.toNat) := by
  intro s
  rw [← makes_read bytes length.toNat offset s]
  by_cases h : offset.toNat + length.toNat ≤ bytes.length
  · exact Medium.ends_readRange_of_le _ h s
  · have hlt := Nat.not_le.mp h
    rw [Medium.ends_readRange_of_lt _ hlt, Task.ends, Medium.runFrom_read_ofBytes_of_lt hlt]
    rfl

theorem makes_readEntry (offset table : UInt64) {size : Nat}
    (hdecode : ∀ entry, size ≤ entry.length → decode? entry = some (value entry)) :
    (Image.readEntry (Medium.ofBytes bytes) (some offset) table size decode? : Task σ α).Makes
      [rangeCheck bytes offset.toNat size] (value (slice bytes offset.toNat size)) := by
  simp only [Image.readEntry]
  refine (makes_read bytes size offset).bind_nil fun hchecks ↦ ?_
  have hle := rangeCheck_holds_iff.mp (hchecks _ List.mem_cons_self)
  have hlength : size ≤ (slice bytes offset.toNat size).length := by
    rw [slice, List.length_take, List.length_drop]
    omega
  rw [hdecode _ hlength]
  exact Task.Makes.pure _

theorem makes_readEntry_table {table : UInt64} {index stride : UInt16} {position size : Nat}
    (hposition : position = table.toNat + index.toNat * stride.toNat)
    (hdecode : ∀ entry, size ≤ entry.length → decode? entry = some (value entry)) :
    (Image.readEntry (Medium.ofBytes bytes) (entryOffset? table index stride) table size decode? :
      Task σ α).Makes [entryCheck bytes table position size]
      (value (slice bytes position size)) := by
  subst hposition
  by_cases h : table.toNat + index.toNat * stride.toNat < UInt64.size
  · have hoffset := UInt64.toNat_ofNat_of_lt' h
    rw [entryOffset?_eq_some_iff.mpr hoffset, entryCheck, if_pos h]
    rw [← hoffset] at h ⊢
    rw [UInt64.ofNat_toNat]
    exact makes_readEntry _ table hdecode
  · intro s
    simp only [entryOffset?, entryCheck, if_neg h]
    rfl

theorem ofIdent_slice (h : ElfClass.identSize ≤ bytes.length) :
    ElfClass.ofIdent (slice bytes 0 ElfClass.identSize) =
      if bytes.take 4 = ElfClass.magic then
        if bytes.getD 5 0 = 1 then
          if bytes.getD 4 0 = 1 then .ok .elf32
          else if bytes.getD 4 0 = 2 then .ok .elf64
          else .error (.wordClass (bytes.getD 4 0))
        else .error (.dataEncoding (bytes.getD 5 0))
      else .error .magic := by
  have hlength : ¬(slice bytes 0 ElfClass.identSize).length < ElfClass.identSize := by
    rw [slice, List.length_take, List.drop_zero]
    omega
  have hbyte {i : Nat} (hi : i < ElfClass.identSize) :
      (slice bytes 0 ElfClass.identSize).getD i 0 = bytes.getD i 0 := by
    rw [slice, List.getD_eq_getElem?_getD, List.getElem?_take_of_lt hi, List.drop_zero,
      List.getD_eq_getElem?_getD]
  have hmagic : (slice bytes 0 ElfClass.identSize).take 4 = bytes.take 4 := by
    rw [slice, List.take_take, List.drop_zero]
    rfl
  have h4 := hbyte (show 4 < ElfClass.identSize by decide)
  have h5 := hbyte (show 5 < ElfClass.identSize by decide)
  simp only [ElfClass.ofIdent, hlength, false_or, hmagic, h4, h5, ne_eq, ite_not]

theorem makes_readClass (bytes : List UInt8) :
    (Image.readClass (Medium.ofBytes bytes) : Task σ _).Makes (identChecks bytes)
      (elfClass bytes) := by
  refine (makes_read bytes ElfClass.identSize 0).bind fun hchecks ↦ ?_
  have hle := rangeCheck_holds_iff.mp (hchecks _ List.mem_cons_self)
  rw [UInt64.toNat_zero, Nat.zero_add] at hle
  intro s
  rw [UInt64.toNat_zero, ofIdent_slice hle]
  simp only [Check.run, decide_eq_true_eq, elfClass]
  by_cases hmagic : bytes.take 4 = ElfClass.magic
  case neg =>
    rw [if_neg hmagic, if_neg hmagic]
    rfl
  by_cases hdata : bytes.getD 5 0 = 1
  case neg =>
    rw [if_pos hmagic, if_pos hmagic, if_neg hdata, if_neg hdata]
    rfl
  rw [if_pos hmagic, if_pos hmagic, if_pos hdata, if_pos hdata]
  by_cases h32 : bytes.getD 4 0 = 1
  case pos =>
    rw [if_pos h32, if_pos (Or.inl h32), if_pos h32]
    rfl
  by_cases h64 : bytes.getD 4 0 = 2
  case pos =>
    rw [if_neg h32, if_pos h64, if_pos (Or.inr h64), if_neg h32]
    rfl
  case neg =>
    rw [if_neg h32, if_neg h64, if_neg (not_or.mpr ⟨h32, h64⟩)]
    rfl

theorem makes_readHeader (bytes : List UInt8) :
    (Image.readHeader (Medium.ofBytes bytes) (elfClass bytes) : Task σ _).Makes
      [rangeCheck bytes 0 (elfClass bytes).headerSize] (header bytes) :=
  (makes_readEntry 0 0 fun _ h ↦ FileHeader.decode?_eq h).bind_tell _

theorem makes_readSectionEntry (bytes : List UInt8) (index : UInt16) :
    (Image.readSectionEntry (Medium.ofBytes bytes) (header bytes) index : Task σ _).Makes
      [sectionCheck bytes index.toNat] (sectionEntry bytes index.toNat) := by
  exact makes_readEntry_table rfl fun _ h ↦ SectionEntry.decode?_eq h

theorem makes_readNameTable (bytes : List UInt8) :
    (Image.readNameTable (Medium.ofBytes bytes) (header bytes) : Task σ _).Makes
      (nameChecks bytes) (nameTable bytes) := by
  refine Task.Makes.of_not (fun s ↦ rfl) fun _ ↦ ?_
  exact (makes_readSectionEntry bytes _).bind fun _ ↦ makes_readRange bytes _ _

/-- An index below a count of 16 bits is the same in 16 bits. -/
theorem toNat_ofNat_of_lt_toNat {count : UInt16} {index : Nat} (h : index < count.toNat) :
    (UInt16.ofNat index).toNat = index :=
  UInt16.toNat_ofNat_of_lt' (Nat.lt_trans h count.toNat_lt)

theorem rawName_eq (bytes : List UInt8) (index : Nat) :
    rawName bytes index = nameBytes (nameTable bytes) (sectionEntry bytes index).nameOffset := by
  rw [rawName, slice, nameLength, nameStart, nameBytes, List.takeWhile_eq_take_findIdx_not,
    List.idxOf]
  simp only [ne_eq, decide_not, Bool.not_not]
  rfl

theorem nameAt_nameTable (bytes : List UInt8) (index : Nat) :
    nameAt (nameTable bytes) (sectionEntry bytes index).nameOffset = sectionName bytes index := by
  rw [nameAt, sectionName, rawName_eq]

theorem makes_readSection (sections : SortedMap String Section) {index : Nat}
    (h : index < (header bytes).sectionCount.toNat) :
    (Image.readSection (Medium.ofBytes bytes) (header bytes) (nameTable bytes) sections index :
      Task σ _).Makes [sectionCheck bytes index] (addSection bytes sections index) := by
  have hentry := makes_readSectionEntry (σ := σ) bytes (UInt16.ofNat index)
  rw [toNat_ofNat_of_lt_toNat h] at hentry
  refine hentry.bind_nil fun _ ↦ ?_
  intro s
  have hname := nameAt_nameTable bytes index
  change (if nameAt (nameTable bytes) (sectionEntry bytes index).nameOffset = "" then _ else _ :
    Task σ _).ends s = _
  rw [hname, addSection]
  by_cases hname : sectionName bytes index = ""
  · rw [if_pos hname, if_pos hname]
    rfl
  · rw [if_neg hname, if_neg hname]
    rfl

theorem makes_readSections (bytes : List UInt8) :
    (Image.readSections (Medium.ofBytes bytes) (header bytes) : Task σ _).Makes
      (nameChecks bytes ++
        (List.range (header bytes).sectionCount.toNat).map (sectionCheck bytes))
      (sectionsUpTo bytes (header bytes).sectionCount.toNat) := by
  refine (makes_readNameTable bytes).bind fun _ ↦ ?_
  rw [List.map_eq_flatMap, sectionsUpTo]
  have hstep : ∀ sections, ∀ index ∈ List.range (header bytes).sectionCount.toNat,
      (Image.readSection (Medium.ofBytes bytes) (header bytes) (nameTable bytes) sections index :
        Task σ _).Makes [sectionCheck bytes index] (addSection bytes sections index) :=
    fun sections index hindex ↦ makes_readSection sections (List.mem_range.mp hindex)
  exact Task.Makes.foldlM hstep .empty

theorem makes_readSegment {index : Nat} (h : index < (header bytes).segmentCount.toNat) :
    (Image.readSegment (Medium.ofBytes bytes) (header bytes) index : Task σ _).Makes
      [segmentCheck bytes index] (segment bytes index) := by
  have hposition : segmentPosition bytes index = (header bytes).segmentTable.toNat +
      (UInt16.ofNat index).toNat * (header bytes).segmentEntrySize.toNat := by
    rw [toNat_ofNat_of_lt_toNat h, segmentPosition]
  have hentry : (Image.readEntry (Medium.ofBytes bytes)
      ((header bytes).segmentEntryOffset? (UInt16.ofNat index)) (header bytes).segmentTable
      (elfClass bytes).segmentEntrySize (Segment.decode? (elfClass bytes)) : Task σ _).Makes
      [segmentCheck bytes index] (segment bytes index) :=
    makes_readEntry_table hposition fun _ h ↦ Segment.decode?_eq h
  exact hentry.bind_tell Event.segmentRead

theorem makes_readSegments (bytes : List UInt8) :
    (Image.readSegments (Medium.ofBytes bytes) (header bytes) : Task σ _).Makes
      ((List.range (header bytes).segmentCount.toNat).map (segmentCheck bytes))
      (segments bytes) := by
  rw [List.map_eq_flatMap]
  exact Task.Makes.mapM fun index hindex ↦ makes_readSegment (List.mem_range.mp hindex)

/-- What opening reports. -/
def image (path : String) (bytes : List UInt8) : Image σ where
  path := path
  medium := Medium.ofBytes bytes
  header := header bytes
  sections := sectionsUpTo bytes (header bytes).sectionCount.toNat
  segments := segments bytes

theorem section?_image (path : String) (bytes : List UInt8) (name : String) :
    (image path bytes : Image σ).section? name =
      (sectionsUpTo bytes (header bytes).sectionCount.toNat).get? name := rfl

theorem segments_image (path : String) (bytes : List UInt8) :
    (image path bytes : Image σ).segments = segments bytes := rfl

theorem header_image (path : String) (bytes : List UInt8) :
    (image path bytes : Image σ).header = header bytes := rfl

/-- Opening makes the checks and reports what is on disk. -/
theorem makes_read_image (path : String) (bytes : List UInt8) :
    (Image.read path (Medium.ofBytes bytes) : Task σ _).Makes (checks bytes)
      (image path bytes) := by
  have hchecks : checks bytes = identChecks bytes ++
      ([rangeCheck bytes 0 (elfClass bytes).headerSize] ++
        ((nameChecks bytes ++
            (List.range (header bytes).sectionCount.toNat).map (sectionCheck bytes)) ++
          (List.range (header bytes).segmentCount.toNat).map (segmentCheck bytes))) := by
    simp [checks]
  rw [hchecks]
  refine (makes_readClass bytes).bind fun _ ↦ ?_
  refine (makes_readHeader bytes).bind fun _ ↦ ?_
  refine (makes_readSections bytes).bind fun _ ↦ ?_
  refine (makes_readSegments bytes).bind_nil fun _ ↦ ?_
  exact (Task.Makes.tell _).bind fun _ ↦ Task.Makes.pure _

end Reads

/-! ## When all checks hold -/

/-- The structure of an image lies in the bytes, by positions in natural numbers. -/
structure InBounds : Prop where
  /-- There is an identification. -/
  ident : ElfClass.identSize ≤ bytes.length
  /-- It begins with the magic bytes. -/
  magic : bytes.take 4 = ElfClass.magic
  /-- Numbers are little-endian. -/
  dataEncoding : bytes.getD 5 0 = 1
  /-- Addresses have 32 or 64 bits. -/
  wordClass : bytes.getD 4 0 = 1 ∨ bytes.getD 4 0 = 2
  /-- There is a file header. -/
  header : (elfClass bytes).headerSize ≤ bytes.length
  /-- Some section is named as the table of names. -/
  named : (OnDisk.header bytes).nameTableIndex ≠ 0
  /-- That section has an entry. -/
  nameEntry : sectionPosition bytes (OnDisk.header bytes).nameTableIndex.toNat +
    (elfClass bytes).sectionEntrySize ≤ bytes.length
  /-- The table of names is there. -/
  nameTable : (OnDisk.nameEntry bytes).offset.toNat + (OnDisk.nameEntry bytes).size.toNat ≤
    bytes.length
  /-- Every section has an entry. -/
  sections : ∀ i < (OnDisk.header bytes).sectionCount.toNat,
    sectionPosition bytes i + (elfClass bytes).sectionEntrySize ≤ bytes.length
  /-- Every segment has an entry. -/
  segments : ∀ i < (OnDisk.header bytes).segmentCount.toNat,
    segmentPosition bytes i + (elfClass bytes).segmentEntrySize ≤ bytes.length

variable {bytes}

theorem entryCheck_holds_iff {table : UInt64} {position size : Nat} :
    (entryCheck bytes table position size).holds = true ↔
      position < UInt64.size ∧ position + size ≤ bytes.length := by
  rw [entryCheck]
  split
  case isTrue h => rw [rangeCheck_holds_iff, and_iff_right h]
  case isFalse h =>
    exact ⟨fun hfalse ↦ absurd hfalse Bool.false_ne_true, fun hand ↦ absurd hand.1 h⟩

/-- Bytes that 64 bits can address hold no entry at a position beyond that. -/
theorem entryCheck_holds_iff_of_le (hbytes : bytes.length ≤ UInt64.size) {table : UInt64}
    {position size : Nat} (hsize : 0 < size) :
    (entryCheck bytes table position size).holds = true ↔ position + size ≤ bytes.length := by
  rw [entryCheck_holds_iff]
  exact ⟨And.right, fun h ↦ ⟨by omega, h⟩⟩

theorem checks_hold_iff (hbytes : bytes.length ≤ UInt64.size) :
    (∀ c ∈ checks bytes, c.holds = true) ↔ InBounds bytes := by
  have hsection : 0 < (elfClass bytes).sectionEntrySize := by cases elfClass bytes <;> decide
  have hsegment : 0 < (elfClass bytes).segmentEntrySize := by cases elfClass bytes <;> decide
  simp only [checks, identChecks, nameChecks, List.forall_mem_append, List.forall_mem_cons,
    List.forall_mem_map, List.mem_range, sectionCheck, segmentCheck, rangeCheck_holds_iff,
    entryCheck_holds_iff_of_le hbytes hsection, entryCheck_holds_iff_of_le hbytes hsegment,
    decide_eq_true_eq, Nat.zero_add]
  constructor
  · rintro ⟨⟨⟨⟨hident, hmagic, hdata, hclass, -⟩, hheader, hnamed, hentry, htable, -⟩, hsections⟩,
      hsegments⟩
    exact ⟨hident, hmagic, hdata, hclass, hheader, hnamed, hentry, htable, hsections, hsegments⟩
  · intro h
    refine ⟨⟨⟨⟨h.ident, h.magic, h.dataEncoding, h.wordClass, ?_⟩, h.header, h.named, h.nameEntry,
      h.nameTable, ?_⟩, h.sections⟩, h.segments⟩
    · exact fun c hc ↦ absurd hc List.not_mem_nil
    · exact fun c hc ↦ absurd hc List.not_mem_nil

/-! ## Sections by name -/

/-- The last of the first entries of the section table that has a given name. -/
structure LastNamed (bytes : List UInt8) (count : Nat) (name : String) (index : Nat) : Prop where
  /-- It is one of them. -/
  lt : index < count
  /-- It has the name. -/
  name_eq : sectionName bytes index = name
  /-- Those behind it have others. -/
  behind : ∀ j, index < j → j < count → sectionName bytes j ≠ name

section Names

variable {count index : Nat} {name : String} {found : Section}

theorem lastNamed_succ_of_eq (h : sectionName bytes count = name) :
    LastNamed bytes (count + 1) name index ↔ index = count := by
  constructor
  · intro hlast
    have hle : ¬index < count := fun hlt ↦ hlast.behind count hlt (Nat.lt_succ_self count) h
    exact Nat.eq_of_lt_succ_of_not_lt hlast.lt hle
  · rintro rfl
    exact ⟨Nat.lt_succ_self _, h, fun j hj hlt ↦ absurd hlt (by omega)⟩

theorem lastNamed_succ_of_ne (h : sectionName bytes count ≠ name) :
    LastNamed bytes (count + 1) name index ↔ LastNamed bytes count name index := by
  constructor
  · rintro ⟨hlt, hname, hbehind⟩
    have hne : index ≠ count := fun heq ↦ h (heq ▸ hname)
    exact ⟨by omega, hname, fun j hj hjlt ↦ hbehind j hj (Nat.lt_succ_of_lt hjlt)⟩
  · rintro ⟨hlt, hname, hbehind⟩
    refine ⟨Nat.lt_succ_of_lt hlt, hname, fun j hj hjlt ↦ ?_⟩
    rcases Nat.lt_succ_iff_lt_or_eq.mp hjlt with hjlt | rfl
    · exact hbehind j hj hjlt
    · exact h

/-- Where some entry has a name, one is the last that has it. -/
theorem exists_lastNamed_iff :
    (∃ i, LastNamed bytes count name i) ↔ ∃ i < count, sectionName bytes i = name := by
  constructor
  · rintro ⟨i, hlast⟩
    exact ⟨i, hlast.lt, hlast.name_eq⟩
  · rintro ⟨i, hi, hname⟩
    induction count with
    | zero => exact absurd hi (Nat.not_lt_zero i)
    | succ count ih =>
      by_cases h : sectionName bytes count = name
      · exact ⟨count, (lastNamed_succ_of_eq h).mpr rfl⟩
      · have hne : i ≠ count := fun heq ↦ h (heq ▸ hname)
        obtain ⟨j, hj⟩ := ih (by omega)
        exact ⟨j, (lastNamed_succ_of_ne h).mpr hj⟩

theorem sectionsUpTo_succ (bytes : List UInt8) (count : Nat) :
    sectionsUpTo bytes (count + 1) = addSection bytes (sectionsUpTo bytes count) count := by
  rw [sectionsUpTo, List.range_succ, List.foldl_append, List.foldl_cons, List.foldl_nil,
    sectionsUpTo]

/-- What an entry adds does not change the section of another name, nor that of none. -/
theorem get?_addSection_of_ne {sections : SortedMap String Section}
    (h : name = "" ∨ sectionName bytes index ≠ name) :
    (addSection bytes sections index).get? name = sections.get? name := by
  rw [addSection]
  split
  case isTrue => rfl
  case isFalse hempty =>
    refine SortedMap.get?_insert_of_ne _ ?_
    rintro rfl
    exact h.elim hempty fun hne ↦ hne rfl

theorem get?_addSection_self {sections : SortedMap String Section}
    (h : sectionName bytes index ≠ "") :
    (addSection bytes sections index).get? (sectionName bytes index) =
      some (namedSection bytes index) := by
  rw [addSection, if_neg h]
  exact SortedMap.get?_insert_self _ _ _

/-- A name gives the last entry that has it. -/
theorem get?_sectionsUpTo_eq_some_iff :
    (sectionsUpTo bytes count).get? name = some found ↔
      name ≠ "" ∧ ∃ i, LastNamed bytes count name i ∧ found = namedSection bytes i := by
  induction count with
  | zero =>
    constructor
    · intro h
      cases h
    · rintro ⟨-, i, hlast, -⟩
      exact absurd hlast.lt (Nat.not_lt_zero i)
  | succ count ih =>
    rw [sectionsUpTo_succ]
    by_cases hname : name = ""
    · rw [get?_addSection_of_ne (Or.inl hname), ih]
      exact ⟨fun h ↦ absurd hname h.1, fun h ↦ absurd hname h.1⟩
    by_cases h : sectionName bytes count = name
    · subst h
      rw [get?_addSection_self hname, Option.some.injEq, and_iff_right hname]
      constructor
      · rintro rfl
        exact ⟨count, (lastNamed_succ_of_eq rfl).mpr rfl, rfl⟩
      · rintro ⟨i, hlast, rfl⟩
        rw [(lastNamed_succ_of_eq rfl).mp hlast]
    · rw [get?_addSection_of_ne (Or.inr h), ih]
      simp only [lastNamed_succ_of_ne h]

theorem get?_sectionsUpTo_eq_none_iff :
    (sectionsUpTo bytes count).get? name = none ↔
      name = "" ∨ ∀ i < count, sectionName bytes i ≠ name := by
  have hsome : (∃ found, (sectionsUpTo bytes count).get? name = some found) ↔
      name ≠ "" ∧ ∃ i < count, sectionName bytes i = name := by
    rw [← exists_lastNamed_iff]
    constructor
    · rintro ⟨found, h⟩
      obtain ⟨hname, i, hlast, -⟩ := get?_sectionsUpTo_eq_some_iff.mp h
      exact ⟨hname, i, hlast⟩
    · rintro ⟨hname, i, hlast⟩
      exact ⟨_, get?_sectionsUpTo_eq_some_iff.mpr ⟨hname, i, hlast, rfl⟩⟩
  rw [← Option.not_isSome_iff_eq_none, Option.isSome_iff_exists, hsome]
  by_cases hname : name = ""
  · simp [hname]
  · simp [hname]

end Names

/-! ## Opening -/

/-- **Opening reports what is on disk.** Bytes open exactly if all checks hold, which says for those
that 64 bits can address that the structure of an image lies in them. Any other outcome is the
failure of the first check that does not hold. An image that is open has the header and the segments
on disk, and under each name the last section that has it. -/
theorem read_onDisk {σ : Type} (path : String) (bytes : List UInt8) (s : σ) :
    let outcome := ((Image.read path (Medium.ofBytes bytes)).ends s).1
    ((∃ image, outcome = .ok image) ↔ ∀ c ∈ checks bytes, c.holds = true) ∧
    (bytes.length ≤ UInt64.size → ((∃ image, outcome = .ok image) ↔ InBounds bytes)) ∧
    (∀ e, outcome = .error e ↔ ∃ before check after,
      checks bytes = before ++ check :: after ∧ (∀ c ∈ before, c.holds = true) ∧
        ¬check.holds = true ∧ check.otherwise = e) ∧
    ∀ image, outcome = .ok image →
      image.path = path ∧ image.header = header bytes ∧ image.segments = segments bytes ∧
      ∀ name,
        (∀ found, image.section? name = some found ↔
          name ≠ "" ∧ ∃ i, LastNamed bytes (header bytes).sectionCount.toNat name i ∧
            found = namedSection bytes i) ∧
        (image.section? name = none ↔
          name = "" ∨ ∀ i < (header bytes).sectionCount.toNat, sectionName bytes i ≠ name) := by
  intro outcome
  have hmakes := makes_read_image (σ := σ) path bytes
  have hopens : (∃ opened, outcome = .ok opened) ↔ ∀ c ∈ checks bytes, c.holds = true := by
    constructor
    · rintro ⟨opened, h⟩
      exact (hmakes.eq_ok_iff.mp h).1
    · intro hchecks
      exact ⟨image path bytes, hmakes.eq_ok_iff.mpr ⟨hchecks, rfl⟩⟩
  refine ⟨hopens, fun hbytes ↦ ?bounds, fun e ↦ hmakes.eq_error_iff, fun opened h ↦ ?reports⟩
  case bounds => rw [hopens, checks_hold_iff hbytes]
  case reports =>
    obtain ⟨-, rfl⟩ := hmakes.eq_ok_iff.mp h
    refine ⟨rfl, rfl, rfl, fun name ↦ ⟨fun found ↦ ?_, ?_⟩⟩
    · rw [section?_image]
      exact get?_sectionsUpTo_eq_some_iff
    · rw [section?_image]
      exact get?_sectionsUpTo_eq_none_iff

end OnDisk

/-- A header that is an image by itself. The table of names is empty, and its entry begins where the
header does. -/
def bareImage : List UInt8 :=
  FileHeader.encode (ElfClass.ident .elf32) 0 ⟨.elf32, 0, 0, 0, 0, 0, 0, 0, 0, 0, 0, 0, 1⟩

/-- That something opens can be decided, what it opens to need not be written out. -/
theorem exists_eq_ok_of_toBool {α : Type} {outcome : Except Error α} (h : outcome.toBool = true) :
    ∃ a, outcome = .ok a := by
  cases outcome with
  | error e => exact nomatch h
  | ok a => exact ⟨a, rfl⟩

/-- A header opens, and is refused by the check for it if its last byte is missing. -/
theorem OnDisk.read_onDisk_bareImage :
    (∃ image, ((Image.read "bare" (Medium.ofBytes bareImage)).ends ()).1 = .ok image ∧
      image.section? ".text" = none) ∧
    ((Image.read "bare" (Medium.ofBytes (bareImage.take 51))).ends ()).1 =
      .error (.truncatedRead 0 52) := by
  constructor
  · obtain ⟨hopens, -, -, hreports⟩ := read_onDisk "bare" bareImage ()
    obtain ⟨image, himage⟩ := hopens.mpr (by decide +kernel)
    obtain ⟨-, -, -, hsections⟩ := hreports image himage
    exact ⟨image, himage, (hsections ".text").2.mpr (Or.inr (by decide +kernel))⟩
  · obtain ⟨-, -, hfails, -⟩ := read_onDisk "bare" (bareImage.take 51) ()
    refine (hfails _).mpr ⟨(checks (bareImage.take 51)).take 4, ⟨false, .truncatedRead 0 52⟩,
      (checks (bareImage.take 51)).drop 5, ?_, ?_, Bool.false_ne_true, rfl⟩
    · decide +kernel
    · decide +kernel

end ElfUnwind
