import ElfUnwind.Elf.FileHeader
import ElfUnwind.Elf.Section
import ElfUnwind.Elf.Segment

/-!
# Fields by their positions

The decoders of headers take one field after the other from the front of the bytes. What they give
is described here by where each field stands: the two agree on all bytes that are long enough
(`FileHeader.decode?_eq`, `SectionEntry.decode?_eq`, `Segment.decode?_eq`). From the description the
value of a field is known without the fields before it, whatever they hold.
-/

namespace ElfUnwind

namespace Fields

variable {α β : Type} {f : Fields α} {g : α → Fields β} {bytes : List UInt8} {pos mid stop : Nat}
  {a : α} {b : β}

/-- The number in `width` bytes at `pos`. -/
def numberAt (bytes : List UInt8) (pos width : Nat) : Nat :=
  LittleEndian.toNat ((bytes.drop pos).take width)

/-- The field of two bytes at `pos`. -/
def halfAt (bytes : List UInt8) (pos : Nat) : UInt16 := UInt16.ofNat (numberAt bytes pos 2)

/-- The field of four bytes at `pos`. -/
def wordAt (bytes : List UInt8) (pos : Nat) : UInt32 := UInt32.ofNat (numberAt bytes pos 4)

/-- The address, offset or size of `width` bytes at `pos`. -/
def wideAt (bytes : List UInt8) (width pos : Nat) : UInt64 :=
  UInt64.ofNat (numberAt bytes pos width)

/-- The decoder takes the bytes from `pos` up to `stop` for the value `a`. -/
def Reads (f : Fields α) (bytes : List UInt8) (pos stop : Nat) (a : α) : Prop :=
  f (bytes.drop pos) = some (a, bytes.drop stop)

theorem Reads.pure (bytes : List UInt8) (pos : Nat) (a : α) :
    Reads (Pure.pure a) bytes pos pos a := rfl

theorem Reads.bind (hf : f.Reads bytes pos mid a) (hg : (g a).Reads bytes mid stop b) :
    (f >>= g).Reads bytes pos stop b := by
  change (f (bytes.drop pos)).bind (fun p ↦ g p.1 p.2) = _
  rw [show f (bytes.drop pos) = _ from hf]
  exact hg

theorem Reads.map (hf : f.Reads bytes pos stop a) (h : α → β) :
    (h <$> f).Reads bytes pos stop (h a) := by
  change (f (bytes.drop pos)).bind (fun p ↦ some (h p.1, p.2)) = _
  rw [show f (bytes.drop pos) = _ from hf]
  rfl

theorem Reads.decode? (stop : Nat) (hf : f.Reads bytes 0 stop a) : f.decode? bytes = some a := by
  rw [Fields.decode?, show f bytes = _ from hf]
  rfl

theorem reads_number {width : Nat} (h : pos + width ≤ bytes.length) :
    (number width).Reads bytes pos (pos + width) (numberAt bytes pos width) := by
  have hle : width ≤ (bytes.drop pos).length := by
    rw [List.length_drop]
    omega
  rw [Reads, number_of_le hle, List.drop_drop]
  rfl

theorem reads_half (h : pos + 2 ≤ bytes.length) :
    half.Reads bytes pos (pos + 2) (halfAt bytes pos) := (reads_number h).map _

theorem reads_word (h : pos + 4 ≤ bytes.length) :
    word.Reads bytes pos (pos + 4) (wordAt bytes pos) := (reads_number h).map _

theorem reads_wide {width : Nat} (h : pos + width ≤ bytes.length) :
    (wide width).Reads bytes pos (pos + width) (wideAt bytes width pos) := (reads_number h).map _

theorem reads_skip {width : Nat} (h : pos + width ≤ bytes.length) :
    (skip width).Reads bytes pos (pos + width) () := (reads_number h).map _

end Fields

open Fields

/-! ## The file header -/

namespace FileHeader

/-- Where the fields of a file header begin that have the same width in both classes, behind the
addresses. -/
def narrowFields (c : ElfClass) : Nat := 24 + c.wordSize + c.wordSize + c.wordSize

theorem headerSize_eq (c : ElfClass) : c.headerSize = narrowFields c + 16 := by
  cases c <;> rfl

/-- The header at the front of some bytes. The identification takes the first sixteen, and a version
that is not kept stands before the addresses. -/
def ofBytes (c : ElfClass) (bytes : List UInt8) : FileHeader where
  elfClass := c
  objectType := halfAt bytes 16
  machine := halfAt bytes 18
  entry := wideAt bytes c.wordSize 24
  segmentTable := wideAt bytes c.wordSize (24 + c.wordSize)
  sectionTable := wideAt bytes c.wordSize (24 + c.wordSize + c.wordSize)
  flags := wordAt bytes (narrowFields c)
  headerSize := halfAt bytes (narrowFields c + 4)
  segmentEntrySize := halfAt bytes (narrowFields c + 6)
  segmentCount := halfAt bytes (narrowFields c + 8)
  sectionEntrySize := halfAt bytes (narrowFields c + 10)
  sectionCount := halfAt bytes (narrowFields c + 12)
  nameTableIndex := halfAt bytes (narrowFields c + 14)

theorem reads_fields {c : ElfClass} {bytes : List UInt8} (h : c.headerSize ≤ bytes.length) :
    (fields c).Reads bytes 0 (narrowFields c + 16) (ofBytes c bytes) := by
  rw [headerSize_eq, narrowFields] at h
  simp only [fields, ElfClass.identSize]
  refine (reads_skip (by omega)).bind ?_
  refine (reads_half (by omega)).bind <| (reads_half (by omega)).bind ?_
  refine (reads_skip (by omega)).bind ?_
  refine (reads_wide (by omega)).bind <| (reads_wide (by omega)).bind <|
    (reads_wide (by omega)).bind ?_
  refine (reads_word (by omega)).bind ?_
  refine (reads_half (by omega)).bind <| (reads_half (by omega)).bind <|
    (reads_half (by omega)).bind ?_
  refine (reads_half (by omega)).bind <| (reads_half (by omega)).bind <|
    (reads_half (by omega)).bind ?_
  exact Reads.pure _ _ _

theorem decode?_eq {c : ElfClass} {bytes : List UInt8} (h : c.headerSize ≤ bytes.length) :
    decode? c bytes = some (ofBytes c bytes) := (reads_fields h).decode? _

end FileHeader

/-! ## Entries of the tables -/

namespace SectionEntry

/-- The entry of the section table at the front of some bytes. -/
def ofBytes (c : ElfClass) (bytes : List UInt8) : SectionEntry where
  nameOffset := wordAt bytes 0
  kind := wordAt bytes 4
  flags := wideAt bytes c.wordSize 8
  address := wideAt bytes c.wordSize (8 + c.wordSize)
  offset := wideAt bytes c.wordSize (8 + c.wordSize + c.wordSize)
  size := wideAt bytes c.wordSize (8 + c.wordSize + c.wordSize + c.wordSize)

theorem decode?_eq {c : ElfClass} {bytes : List UInt8} (h : c.sectionEntrySize ≤ bytes.length) :
    decode? c bytes = some (ofBytes c bytes) := by
  have hused : 8 + 4 * c.wordSize ≤ c.sectionEntrySize := by cases c <;> decide
  refine Reads.decode? (8 + c.wordSize + c.wordSize + c.wordSize + c.wordSize) ?_
  simp only [fields]
  refine (reads_word (by omega)).bind <| (reads_word (by omega)).bind ?_
  refine (reads_wide (by omega)).bind <| (reads_wide (by omega)).bind ?_
  refine (reads_wide (by omega)).bind <| (reads_wide (by omega)).bind ?_
  exact Reads.pure _ _ _

end SectionEntry

namespace Segment

/-- The entry of the segment table at the front of some bytes. -/
def ofBytes (c : ElfClass) (bytes : List UInt8) : Segment :=
  match c with
  | .elf32 =>
    { kind := wordAt bytes 0, offset := wideAt bytes 4 4, virtualAddress := wideAt bytes 4 8,
      physicalAddress := wideAt bytes 4 12, fileSize := wideAt bytes 4 16,
      memorySize := wideAt bytes 4 20, flags := wordAt bytes 24, align := wideAt bytes 4 28 }
  | .elf64 =>
    { kind := wordAt bytes 0, flags := wordAt bytes 4, offset := wideAt bytes 8 8,
      virtualAddress := wideAt bytes 8 16, physicalAddress := wideAt bytes 8 24,
      fileSize := wideAt bytes 8 32, memorySize := wideAt bytes 8 40, align := wideAt bytes 8 48 }

theorem decode?_eq {c : ElfClass} {bytes : List UInt8} (h : c.segmentEntrySize ≤ bytes.length) :
    decode? c bytes = some (ofBytes c bytes) := by
  cases c with
  | elf32 =>
    have h : 32 ≤ bytes.length := h
    refine Reads.decode? 32 ?_
    simp only [fields]
    refine (reads_word (by omega)).bind <| (reads_wide (by omega)).bind ?_
    refine (reads_wide (by omega)).bind <| (reads_wide (by omega)).bind ?_
    refine (reads_wide (by omega)).bind <| (reads_wide (by omega)).bind ?_
    refine (reads_word (by omega)).bind <| (reads_wide (by omega)).bind ?_
    exact Reads.pure _ _ _
  | elf64 =>
    have h : 56 ≤ bytes.length := h
    refine Reads.decode? 56 ?_
    simp only [fields]
    refine (reads_word (by omega)).bind <| (reads_word (by omega)).bind ?_
    refine (reads_wide (by omega)).bind <| (reads_wide (by omega)).bind ?_
    refine (reads_wide (by omega)).bind <| (reads_wide (by omega)).bind ?_
    refine (reads_wide (by omega)).bind <| (reads_wide (by omega)).bind ?_
    exact Reads.pure _ _ _

end Segment

end ElfUnwind
