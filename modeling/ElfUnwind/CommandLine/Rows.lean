import ElfUnwind.CommandLine.Listing
import ElfUnwind.Elf.Section
import ElfUnwind.Elf.Segment
import ElfUnwind.Frame.FrameIndex

/-!
# What the listings show

Which columns the listings of sections, segments and frame entries have, and the values of each row.
Addresses, offsets and sizes are hexadecimal; counts are decimal numbers.
-/

namespace ElfUnwind.CommandLine

/-- An address, offset or size in a listing. -/
def hexValue (n : Nat) : Value := .text (Text.hexAddress n)

/-- The listing of sections. -/
def sectionListing (sections : List Section) : Listing where
  columns := [⟨"Section", "name"⟩, ⟨"Type", "kind"⟩, ⟨"Addr", "addr"⟩, ⟨"Offset", "offset"⟩,
    ⟨"Size", "size"⟩]
  rows := sections.map fun s =>
    [.text s.name, .text s.typeName, hexValue s.address.toNat, hexValue s.offset.toNat,
     hexValue s.size.toNat]

/-- The listing of segments. -/
def segmentListing (segments : List Segment) : Listing where
  columns := [⟨"Type", "kind"⟩, ⟨"Flags", "flags"⟩, ⟨"Offset", "offset"⟩, ⟨"VirtAddr", "vaddr"⟩,
    ⟨"PhysAddr", "paddr"⟩, ⟨"FileSiz", "filesz"⟩]
  rows := segments.map fun s =>
    [.text s.typeName, .text s.rights, hexValue s.offset.toNat, hexValue s.virtualAddress.toNat,
     hexValue s.physicalAddress.toNat, hexValue s.fileSize.toNat]

/-- The listing of CIEs. -/
def cieListing (cies : List Cie) : Listing where
  columns := [⟨"Offset", "offset"⟩, ⟨"Version", "version"⟩, ⟨"Augmentation", "augmentation"⟩,
    ⟨"DataAlign", "data_alignment_factor"⟩, ⟨"FDE encoding", "fde_encoding"⟩,
    ⟨"LSDA encoding", "lsda_encoding"⟩, ⟨"Insts", "instructions"⟩]
  rows := cies.map fun c =>
    [hexValue c.offset, .number c.version.toNat, .text c.augmentation,
     .number c.dataAlignment.toInt, .text c.addressEncoding.name,
     .text (if c.hasLsda then c.lsdaEncoding.name else "-"), .number c.instructions.length]

/-- The listing of FDEs. -/
def fdeListing (fdes : List Fde) : Listing where
  columns := [⟨"Offset", "offset"⟩, ⟨"CIE", "cie"⟩, ⟨"Start", "start"⟩, ⟨"End", "end"⟩,
    ⟨"Size", "size"⟩, ⟨"Insts", "instructions"⟩]
  rows := fdes.map fun f =>
    [hexValue f.offset, hexValue f.cie.offset, hexValue f.start.toNat, hexValue f.stop.toNat,
     .number f.length.toNat, .number f.instructions.length]

@[simp]
theorem length_rows_cieListing (cies : List Cie) : (cieListing cies).rows.length = cies.length := by
  simp [cieListing]

@[simp]
theorem length_rows_fdeListing (fdes : List Fde) : (fdeListing fdes).rows.length = fdes.length := by
  simp [fdeListing]

end ElfUnwind.CommandLine
