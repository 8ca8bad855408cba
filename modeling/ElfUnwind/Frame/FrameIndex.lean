import ElfUnwind.Frame.Entry
import ElfUnwind.Frame.FrameSection
import ElfUnwind.SortedMap

/-!
# The entries of a frame section

The index of a section holds its CIEs by the offset of their records and its FDEs by the start of
their ranges. An index that was not filled to the end of its section keeps what was decoded, and
does not count as complete.

An address is looked up among the starts: the FDE with the greatest start not above it is the answer
if its range covers the address.
-/

namespace ElfUnwind

/-- The decoded entries of one frame section. -/
structure FrameIndex where
  /-- Which section it is. -/
  kind : FrameSection
  /-- CIEs by the offset of their records. -/
  cies : SortedMap Nat Cie
  /-- FDEs by the start of their ranges. -/
  fdes : SortedMap UInt64 Fde
  /-- Whether all records were decoded. -/
  isComplete : Bool

namespace FrameIndex

/-- No entries yet. -/
def empty (kind : FrameSection) : FrameIndex := ⟨kind, .empty, .empty, false⟩

/-- The CIE whose record begins at an offset. -/
def cie? (index : FrameIndex) (offset : Nat) : Option Cie := index.cies.get? offset

/-- The FDE whose range begins at an address. -/
def fde? (index : FrameIndex) (start : UInt64) : Option Fde := index.fdes.get? start

/-- Adds a CIE, in place of one at the same offset. -/
def insertCie (cie : Cie) (index : FrameIndex) : FrameIndex :=
  { index with cies := index.cies.insert cie.offset cie }

/-- Adds an FDE, in place of one with the same start. -/
def insertFde (fde : Fde) (index : FrameIndex) : FrameIndex :=
  { index with fdes := index.fdes.insert fde.start fde }

/-- The same entries, known to be all. -/
def completed (index : FrameIndex) : FrameIndex := { index with isComplete := true }

/-- The FDE that covers an address. -/
def findFde? (index : FrameIndex) (address : UInt64) : Option Fde :=
  ((index.fdes.lastUpTo? address).map Prod.snd).filter (·.contains address)

@[simp]
theorem cie?_empty (kind : FrameSection) (offset : Nat) : (empty kind).cie? offset = none := rfl

@[simp]
theorem fde?_empty (kind : FrameSection) (start : UInt64) : (empty kind).fde? start = none := rfl

@[simp]
theorem cie?_insertCie_self (cie : Cie) (index : FrameIndex) :
    (index.insertCie cie).cie? cie.offset = some cie :=
  SortedMap.get?_insert_self _ _ _

theorem cie?_insertCie_of_ne {cie : Cie} {index : FrameIndex} {offset : Nat}
    (h : offset ≠ cie.offset) : (index.insertCie cie).cie? offset = index.cie? offset :=
  SortedMap.get?_insert_of_ne cie h

@[simp]
theorem fde?_insertCie (cie : Cie) (index : FrameIndex) (start : UInt64) :
    (index.insertCie cie).fde? start = index.fde? start := rfl

@[simp]
theorem fde?_insertFde_self (fde : Fde) (index : FrameIndex) :
    (index.insertFde fde).fde? fde.start = some fde :=
  SortedMap.get?_insert_self _ _ _

theorem fde?_insertFde_of_ne {fde : Fde} {index : FrameIndex} {start : UInt64}
    (h : start ≠ fde.start) : (index.insertFde fde).fde? start = index.fde? start :=
  SortedMap.get?_insert_of_ne fde h

@[simp]
theorem cie?_insertFde (fde : Fde) (index : FrameIndex) (offset : Nat) :
    (index.insertFde fde).cie? offset = index.cie? offset := rfl

/-- What is found covers the address. -/
theorem contains_of_findFde? {index : FrameIndex} {address : UInt64} {fde : Fde}
    (h : index.findFde? address = some fde) : fde.contains address = true :=
  (Option.filter_eq_some_iff.mp h).2

end FrameIndex

end ElfUnwind
