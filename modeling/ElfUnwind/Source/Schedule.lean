import ElfUnwind.Source.Medium

/-!
# Reads that fail on a schedule

A medium over bytes that counts its reads and lets some of them fail: those that start at a given
offset, after a number that pass and for a number that do not. It shows what a reader does when its
source fails, and how often it asks.
-/

namespace ElfUnwind

/-- Reads at one offset that are going to fail. -/
structure Fault where
  /-- Where the reads start. -/
  offset : UInt64
  /-- How many still pass. -/
  skip : Nat
  /-- How many fail after those. -/
  count : Nat
  deriving DecidableEq, Repr

/-- The faults still due, and the reads made so far. -/
structure Schedule where
  /-- The faults still due. -/
  faults : List Fault
  /-- How many reads were made, those that failed too. -/
  reads : Nat
  deriving DecidableEq, Repr

namespace Schedule

/-- Whether a read at an offset fails, and the faults that are due after it. -/
def strike (offset : UInt64) : List Fault → Bool × List Fault
  | [] => (false, [])
  | f :: fs =>
    -- Only the first fault at the offset counts, spent or not.
    if f.offset = offset then
      if 0 < f.skip then (false, { f with skip := f.skip - 1 } :: fs)
      else if 0 < f.count then (true, { f with count := f.count - 1 } :: fs)
      else (false, f :: fs)
    else
      let (fails, rest) := strike offset fs
      (fails, f :: rest)

/-- Counts a read at an offset: whether it fails. -/
def next (offset : UInt64) (s : Schedule) : Bool × Schedule :=
  let (fails, faults) := strike offset s.faults
  (fails, ⟨faults, s.reads + 1⟩)

/-- The medium over `bytes` whose reads fail on a schedule. -/
def medium (bytes : List UInt8) : Medium Schedule where
  size := bytes.length
  read length offset := do
    if ← modifyGet (next offset) then
      throw (.truncatedRead offset.toNat length)
    else
      (Medium.ofBytes bytes).read length offset

@[simp]
theorem reads_next (offset : UInt64) (s : Schedule) : (s.next offset).2.reads = s.reads + 1 := rfl

end Schedule

end ElfUnwind
