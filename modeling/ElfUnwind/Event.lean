import ElfUnwind.Elf.FileHeader
import ElfUnwind.Elf.Section
import ElfUnwind.Elf.Segment
import ElfUnwind.Frame.FrameSection
import ElfUnwind.Frame.PointerEncoding

/-!
# Events

What is told while an image is opened and its frames are decoded. An event says what happened; its
level says how much a listener must want to know to hear of it, and `text` words it. Decoding a
frame section is told field by field at the lowest level.
-/

namespace ElfUnwind

/-- How important an event is, the most important first. -/
inductive Level where
  | error
  | warn
  | info
  | debug
  | trace
  deriving DecidableEq, Repr

namespace Level

/-- The place in the order of importance. -/
def rank : Level → Nat
  | error => 1
  | warn => 2
  | info => 3
  | debug => 4
  | trace => 5

/-- The name of a level. -/
def name : Level → String
  | error => "ERROR"
  | warn => "WARN"
  | info => "INFO"
  | debug => "DEBUG"
  | trace => "TRACE"

end Level

/-- What happens while the records of a frame section are decoded. -/
inductive FrameEvent where
  /-- A record of length zero. -/
  | zeroLength (offset : Nat)
  /-- The identifier of a record, and whether it is that of a CIE. -/
  | record (offset : Nat) (id : UInt64) (isCie : Bool)
  /-- The first fields of a CIE. -/
  | version (number : UInt8) (augmentation : String)
  /-- The sizes a CIE declares. -/
  | sizes (addressSize segmentSize : UInt8)
  /-- The factors of a CIE and its return address register. -/
  | factors (code : UInt64) (data : Int64) (returnRegister : UInt64)
  /-- The length of augmentation data. -/
  | augmentationLength (length : UInt64)
  /-- How the addresses of FDEs are stored. -/
  | addressEncoding (encoding : PointerEncoding)
  /-- A personality routine. -/
  | personality (value : Option UInt64) (encoding : PointerEncoding)
  /-- How pointers to language-specific data are stored. -/
  | lsdaEncoding (encoding : PointerEncoding)
  /-- The instructions of a CIE. -/
  | initialInstructions (length : Nat)
  /-- The range of an FDE. -/
  | range (cieOffset : Nat) (start stop : UInt64)
  /-- A pointer to language-specific data. -/
  | lsda (value : Option UInt64)
  /-- The instructions of an FDE. -/
  | instructions (length : Nat)
  deriving DecidableEq, Repr

/-- A number that may be absent, in bare hexadecimal digits. -/
def optionalHex : Option UInt64 → String
  | none => "None"
  | some value => "Some(" ++ Text.hex value.toNat ++ ")"

/-- The wording of an event of decoding. -/
def FrameEvent.text : FrameEvent → String
  | zeroLength offset => "<" ++ Text.hex offset ++ "> zero terminator"
  | record offset id isCie =>
    "<" ++ Text.hex offset ++ "> cie_id " ++ Text.hex id.toNat ++ if isCie then " CIE" else " FDE"
  | version number augmentation =>
    "version " ++ toString number.toNat ++ ", augmentation " ++ Text.quote augmentation
  | sizes addressSize segmentSize =>
    "address_size " ++ toString addressSize.toNat ++ ", segment_size " ++
      toString segmentSize.toNat
  | factors code data returnRegister =>
    "code_alignment_factor " ++ toString code.toNat ++ ", data_alignment_factor " ++
      toString data.toInt ++ ", return_address_register " ++ toString returnRegister.toNat
  | augmentationLength length => "augmentation_len " ++ toString length.toNat
  | addressEncoding encoding => "fde_pointer_encoding " ++ encoding.name
  | personality value encoding =>
    "personality pointer " ++ optionalHex value ++ " (" ++ encoding.name ++ ")"
  | lsdaEncoding encoding => "lsda_encoding " ++ encoding.name
  | initialInstructions length => "initial_instructions len " ++ Text.hexAddress length
  | range cieOffset start stop =>
    "cie_offset " ++ Text.hexAddress cieOffset ++ ", proc range [" ++
      Text.hexAddress start.toNat ++ " - " ++ Text.hexAddress stop.toNat ++ "]"
  | lsda value => "lsda " ++ optionalHex value
  | instructions length => "instructions len " ++ Text.hexAddress length

/-- What happens while an image is opened and its frames are asked for. -/
inductive Event where
  /-- A step of decoding a frame section. -/
  | frame (event : FrameEvent)
  /-- A file refused a read. -/
  | readRefused (length : Nat) (offset : UInt64) (cause : IoError)
  /-- The file header says where the sections are. -/
  | sectionTable (header : FileHeader)
  /-- A named section was read. -/
  | sectionRead (entry : Section)
  /-- A segment was read. -/
  | segmentRead (entry : Segment)
  /-- The structure of an image was read. -/
  | opened (path : String) (elfClass : ElfClass) (sections segments : Nat)
  /-- An image has no section of a kind of frames. -/
  | noFrames (kind : FrameSection) (path : String)
  /-- All records of a frame section were decoded. -/
  | decoded (kind : FrameSection) (cies fdes : Nat)
  /-- A frame section was not decoded to its end. -/
  | notDecoded (kind : FrameSection) (path : String) (cause : Error)
  /-- The first request for a path could not open it. -/
  | notOpened (path : String) (cause : Error)
  /-- The command asks for the frames of an image. -/
  | decoding (kind : FrameSection) (path : String)
  deriving DecidableEq, Repr

namespace Event

/-- How important an event is. -/
def level : Event → Level
  | frame _ => .trace
  | readRefused _ _ _ => .debug
  | sectionTable _ => .debug
  | sectionRead _ => .debug
  | segmentRead _ => .debug
  | opened _ _ _ _ => .info
  | noFrames _ _ => .warn
  | decoded _ _ _ => .info
  | notDecoded _ _ _ => .warn
  | notOpened _ _ => .warn
  | decoding _ _ => .debug

/-- The wording of an event. -/
def text : Event → String
  | frame event => event.text
  | readRefused length offset cause =>
    "read of " ++ toString length ++ " bytes at " ++ Text.hexAddress offset.toNat ++ " failed: " ++
      cause.message
  | sectionTable header =>
    "section offset: " ++ Text.hexAddress header.sectionTable.toNat ++ ", section num: " ++
      toString header.sectionCount.toNat ++ ", section entry size: " ++
      toString header.sectionEntrySize.toNat ++ ", string section index: " ++
      toString header.nameTableIndex.toNat
  | sectionRead entry =>
    "section " ++ entry.name ++ ", addr " ++ Text.hexAddress entry.address.toNat ++ ", offset " ++
      Text.hexAddress entry.offset.toNat ++ ", size " ++ Text.hexAddress entry.size.toNat
  | segmentRead entry =>
    "program header type " ++ entry.typeName ++ "(" ++ Text.hexAddress entry.kind.toNat ++
      ") flag (" ++ entry.rights ++ ")(" ++ Text.hexAddress entry.flags.toNat ++ "), offset " ++
      Text.hexAddress entry.offset.toNat ++ ", vaddr " ++
      Text.hexAddress entry.virtualAddress.toNat ++ ", paddr " ++
      Text.hexAddress entry.physicalAddress.toNat ++ ", size " ++
      Text.hexAddress entry.fileSize.toNat
  | opened path elfClass sections segments =>
    "Opened " ++ path ++ " (" ++ toString elfClass.bits ++ "-bit, " ++ toString sections ++
      " sections, " ++ toString segments ++ " program headers)"
  | noFrames kind path => "No " ++ kind.name ++ " section in " ++ path
  | decoded kind cies fdes =>
    "Decoded " ++ kind.name ++ ": " ++ toString cies ++ " CIEs, " ++ toString fdes ++
      " FDEs"
  | notDecoded kind path cause =>
    "Failed to decode " ++ kind.name ++ " in " ++ path ++ ": " ++ cause.message
  | notOpened path cause => "Failed to open " ++ path ++ ": " ++ cause.message
  | decoding kind path => "decoding " ++ kind.name ++ " from " ++ path

/-- The events that a listener at `limit` hears. -/
def heard (limit : Level) (events : List Event) : List Event :=
  events.filter fun e => e.level.rank ≤ limit.rank

end Event

end ElfUnwind
