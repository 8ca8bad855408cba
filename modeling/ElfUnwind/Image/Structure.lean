import ElfUnwind.SortedMap
import ElfUnwind.Source.Medium

/-!
# Opening an image

Opening reads the structure of an image from a medium: the identification, the file header, the
table of section names, the section table and the segment table, in this order. The first failure
ends it, so an image that is open has been read whole as far as its structure goes.

Sections without a name are left out. Of several with one name the last in the table counts.
-/

namespace ElfUnwind

/-- An image whose structure has been read. -/
structure Image (σ : Type) where
  /-- What the image is called. -/
  path : String
  /-- Where its bytes come from. -/
  medium : Medium σ
  /-- The file header. -/
  header : FileHeader
  /-- The named sections, by name. -/
  sections : SortedMap String Section
  /-- The segments in the order of their table. -/
  segments : List Segment

namespace Image

variable {σ : Type}

/-- Reads an entry of a table. An entry whose offset is not representable is reported as a read that
was cut short at the start of the table. -/
def readEntry {α : Type} (medium : Medium σ) (offset? : Option UInt64) (table : UInt64) (size : Nat)
    (decode? : List UInt8 → Option α) : Task σ α := do
  match offset? with
  | none => throw (.truncatedRead table.toNat size)
  | some offset =>
    match decode? (← medium.read size offset) with
    | some entry => return entry
    | none => throw (.truncatedRead offset.toNat size)

/-- Reads the class from the identification bytes. -/
def readClass (medium : Medium σ) : Task σ ElfClass := do
  match ElfClass.ofIdent (← medium.read ElfClass.identSize 0) with
  | .ok elfClass => return elfClass
  | .error fault => throw (.notAnImage fault)

/-- Reads the file header. -/
def readHeader (medium : Medium σ) (elfClass : ElfClass) : Task σ FileHeader := do
  let header ← readEntry medium (some 0) 0 elfClass.headerSize (FileHeader.decode? elfClass)
  Task.tell (.sectionTable header)
  return header

/-- Reads an entry of the section table. -/
def readSectionEntry (medium : Medium σ) (header : FileHeader) (index : UInt16) :
    Task σ SectionEntry :=
  readEntry medium (header.sectionEntryOffset? index) header.sectionTable
    header.elfClass.sectionEntrySize (SectionEntry.decode? header.elfClass)

/-- Reads the table of section names. -/
def readNameTable (medium : Medium σ) (header : FileHeader) : Task σ (List UInt8) := do
  -- Index zero stands for no table, so nothing is read.
  if header.nameTableIndex = 0 then throw .missingNameTable
  let entry ← readSectionEntry medium header header.nameTableIndex
  medium.readRange entry.size entry.offset

/-- Reads one section into those read before. -/
def readSection (medium : Medium σ) (header : FileHeader) (names : List UInt8)
    (sections : SortedMap String Section) (index : Nat) : Task σ (SortedMap String Section) := do
  let entry ← readSectionEntry medium header (UInt16.ofNat index)
  let name := nameAt names entry.nameOffset
  if name = "" then
    return sections
  else
    let found := entry.named name
    Task.tell (.sectionRead found)
    return sections.insert name found

/-- Reads the named sections. -/
def readSections (medium : Medium σ) (header : FileHeader) : Task σ (SortedMap String Section) := do
  let names ← readNameTable medium header
  (List.range header.sectionCount.toNat).foldlM (readSection medium header names) .empty

/-- Reads one segment. -/
def readSegment (medium : Medium σ) (header : FileHeader) (index : Nat) : Task σ Segment := do
  let found ← readEntry medium (header.segmentEntryOffset? (UInt16.ofNat index)) header.segmentTable
    header.elfClass.segmentEntrySize (Segment.decode? header.elfClass)
  Task.tell (.segmentRead found)
  return found

/-- Reads the segments. -/
def readSegments (medium : Medium σ) (header : FileHeader) : Task σ (List Segment) :=
  (List.range header.segmentCount.toNat).mapM (readSegment medium header)

/-- Opens the image on a medium. The path is only what the image is called. -/
def read (path : String) (medium : Medium σ) : Task σ (Image σ) := do
  let elfClass ← readClass medium
  let header ← readHeader medium elfClass
  let sections ← readSections medium header
  let segments ← readSegments medium header
  Task.tell (.opened path elfClass sections.size segments.length)
  return { path, medium, header, sections, segments }

/-- How wide the addresses are. -/
def elfClass (image : Image σ) : ElfClass := image.header.elfClass

/-- The section of a name. -/
def section? (image : Image σ) (name : String) : Option Section := image.sections.get? name

/-- The contents of the section of a name. -/
def sectionData (image : Image σ) (name : String) : Task σ (List UInt8) :=
  match image.section? name with
  | none => throw (.missingSection name)
  | some found => image.medium.readRange found.size found.offset

/-- The lowest address of a segment that is mapped and may be executed. -/
def lowestExecutable? (image : Image σ) : Option UInt64 :=
  Segment.lowestExecutable? image.segments

end Image

end ElfUnwind
