import ElfUnwind.Image.Structure

/-!
# One-line summaries

An image on one line: its path, its file header and the counts of what it holds. Names of fields
stand before their values, and what is not shown is marked by two dots.
-/

namespace ElfUnwind

/-- Named values between braces. -/
def recordText (name : String) (fields : List (String × String)) (isPartial : Bool) : String :=
  let shown := fields.map fun field => field.1 ++ ": " ++ field.2
  name ++ " \x7b " ++ ", ".intercalate (shown ++ if isPartial then [".."] else []) ++ " \x7d"

namespace FileHeader

/-- A file header on one line. -/
def summary (h : FileHeader) : String :=
  recordText "FileHeader"
    [("class", h.elfClass.name), ("e_type", toString h.objectType.toNat),
     ("e_machine", toString h.machine.toNat), ("e_entry", toString h.entry.toNat),
     ("e_phoff", toString h.segmentTable.toNat), ("e_shoff", toString h.sectionTable.toNat),
     ("e_flags", toString h.flags.toNat), ("e_ehsize", toString h.headerSize.toNat),
     ("e_phentsize", toString h.segmentEntrySize.toNat),
     ("e_phnum", toString h.segmentCount.toNat),
     ("e_shentsize", toString h.sectionEntrySize.toNat),
     ("e_shnum", toString h.sectionCount.toNat),
     ("e_shstrndx", toString h.nameTableIndex.toNat)]
    false

end FileHeader

namespace Image

variable {σ : Type}

/-- An image on one line. -/
def summary (image : Image σ) : String :=
  let lowest := match image.lowestExecutable? with
    | none => "None"
    | some address => "Some(" ++ toString address.toNat ++ ")"
  recordText "ElfReader"
    [("path", Text.quote image.path), ("header", image.header.summary),
     ("sections", toString image.sections.size),
     ("program_headers", toString image.segments.length), ("min_load_vaddr", lowest)]
    true

end Image

end ElfUnwind
