import ElfUnwind.Bytes.Span

/-!
# Encoded pointers

One byte says how a pointer is stored: its low half the format of the value, the three bits above
what the value is relative to, and the highest bit whether the value is the address of a slot that
holds the pointer. The byte 255 stands for no pointer at all.

Reading interprets the format only. Signed formats are extended to 64 bits; adding the base is left
to whoever knows it.
-/

namespace ElfUnwind

/-- The byte that says how a pointer is stored. -/
structure PointerEncoding where
  /-- The byte itself. -/
  byte : UInt8
  deriving DecidableEq, Repr

/-- How the value of a pointer is stored. -/
inductive ValueFormat where
  /-- As wide as an address. -/
  | absptr
  | uleb128
  | udata2
  | udata4
  | udata8
  | sleb128
  | sdata2
  | sdata4
  | sdata8
  deriving DecidableEq, Repr

namespace ValueFormat

/-- The format of a low half-byte, if it names one. -/
def ofNibble? (n : UInt8) : Option ValueFormat :=
  match n.toNat with
  | 0x0 => some absptr
  | 0x1 => some uleb128
  | 0x2 => some udata2
  | 0x3 => some udata4
  | 0x4 => some udata8
  | 0x9 => some sleb128
  | 0xa => some sdata2
  | 0xb => some sdata4
  | 0xc => some sdata8
  | _ => none

/-- The name of a format. -/
def name : ValueFormat → String
  | absptr => "DW_EH_PE_absptr"
  | uleb128 => "DW_EH_PE_uleb128"
  | udata2 => "DW_EH_PE_udata2"
  | udata4 => "DW_EH_PE_udata4"
  | udata8 => "DW_EH_PE_udata8"
  | sleb128 => "DW_EH_PE_sleb128"
  | sdata2 => "DW_EH_PE_sdata2"
  | sdata4 => "DW_EH_PE_sdata4"
  | sdata8 => "DW_EH_PE_sdata8"

/-- Reads a value stored in this format. -/
def read (addressSize : UInt8) : ValueFormat → Read UInt64
  | absptr => Read.unsigned addressSize
  | uleb128 => Read.uleb128
  | udata2 => Read.unsigned 2
  | udata4 => Read.unsigned 4
  | udata8 => Read.unsigned 8
  | sleb128 => Int64.toUInt64 <$> Read.sleb128
  | sdata2 => Int64.toUInt64 <$> Read.signed 2
  | sdata4 => Int64.toUInt64 <$> Read.signed 4
  | sdata8 => Int64.toUInt64 <$> Read.signed 8

end ValueFormat

namespace PointerEncoding

/-- A value as wide as an address, relative to nothing. -/
def absptr : PointerEncoding := ⟨0x00⟩

/-- No pointer. -/
def omitted : PointerEncoding := ⟨0xff⟩

/-- The half-byte that names the format. -/
def nibble (e : PointerEncoding) : UInt8 := e.byte &&& 0x0f

/-- The bits that name what the value is relative to. -/
def application (e : PointerEncoding) : UInt8 := e.byte &&& 0x70

/-- Whether the value is where the pointer is stored. -/
def isIndirect (e : PointerEncoding) : Bool := e.byte &&& 0x80 != 0

/-- Whether the value is relative to its own address. -/
def isPcRelative (e : PointerEncoding) : Bool := e.application = 0x10

/-- The format of the value, if it is one of the nine. -/
def format? (e : PointerEncoding) : Option ValueFormat := ValueFormat.ofNibble? e.nibble

/-- The name of what a value is relative to; an unnamed one is shown as its byte. -/
def applicationName (application : UInt8) : String :=
  match application.toNat with
  | 0x10 => "DW_EH_PE_pcrel"
  | 0x20 => "DW_EH_PE_textrel"
  | 0x30 => "DW_EH_PE_datarel"
  | 0x40 => "DW_EH_PE_funcrel"
  | 0x50 => "DW_EH_PE_aligned"
  | _ => Text.hexByteAddress application

/-- The name of a format; an unnamed one is shown as its byte. -/
def formatName (e : PointerEncoding) : String :=
  match e.format? with
  | some format => format.name
  | none => Text.hexByteAddress e.nibble

/-- The names of the parts of an encoding, joined by bars. -/
def name (e : PointerEncoding) : String :=
  -- The omitted pointer has no parts, though its bits would name some.
  if e = omitted then "DW_EH_PE_omit"
  else
    let indirect := if e.isIndirect then ["DW_EH_PE_indirect"] else []
    let relative := if e.application = 0 then [] else [applicationName e.application]
    " | ".intercalate (indirect ++ relative ++ [e.formatName])

/-- Reads the raw value of a pointer; the omitted one reads nothing and gives none. -/
def read (e : PointerEncoding) (addressSize : UInt8) : Read (Option UInt64) :=
  if e = omitted then pure none
  else
    match e.format? with
    | none => throw (.invalidPointerEncoding e.byte)
    | some format => some <$> format.read addressSize

@[simp]
theorem read_omitted (addressSize : UInt8) : omitted.read addressSize = pure none := rfl

/-- Where a format is named, reading the pointer is reading a value of that format. -/
theorem read_eq {e : PointerEncoding} {format : ValueFormat} (he : e ≠ omitted)
    (hf : e.format? = some format) (addressSize : UInt8) :
    e.read addressSize = some <$> format.read addressSize := by
  simp [read, he, hf]

/-- The format depends on the low half-byte only. -/
theorem format?_congr {e f : PointerEncoding} (h : e.byte &&& 0x0f = f.byte &&& 0x0f) :
    e.format? = f.format? := by
  simp [format?, nibble, h]

example : name ⟨0x1b⟩ = "DW_EH_PE_pcrel | DW_EH_PE_sdata4" := by cbv

example : name ⟨0xe5⟩ = "DW_EH_PE_indirect | 0x60 | 0x05" := by cbv

end PointerEncoding

end ElfUnwind
