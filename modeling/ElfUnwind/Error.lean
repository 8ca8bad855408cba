import ElfUnwind.Text.Hex
import ElfUnwind.Text.Quoted

/-!
# Errors

What can go wrong while an image is opened or its frames are decoded, and how each case is worded.
All are recoverable at the call that met them except a malformed augmentation: there the fields of a
record can no longer be told apart, so the section it stands in is given up.
-/

namespace ElfUnwind

/-- Why the operating system refused an operation on a file. -/
inductive IoError where
  /-- There is no such file. -/
  | notFound
  /-- A name before the last is not a directory. -/
  | notADirectory
  /-- A directory was read like a file. -/
  | isADirectory
  /-- A path, or a name in it, is too long. -/
  | nameTooLong
  /-- A path holds a character with code zero, which no name can hold. -/
  | zeroInName
  /-- The position lies beyond what a file position can say. -/
  | invalidArgument
  /-- The file ended before the read was full. -/
  | endOfFile
  /-- Any other cause, in the system's own words. -/
  | other (text : String)
  deriving DecidableEq, Repr

/-- The wording of a refusal. -/
def IoError.message : IoError → String
  | .notFound => "No such file or directory (os error 2)"
  | .notADirectory => "Not a directory (os error 20)"
  | .isADirectory => "Is a directory (os error 21)"
  | .nameTooLong => "File name too long (os error 36)"
  | .zeroInName => "file name contained an unexpected NUL byte"
  | .invalidArgument => "Invalid argument (os error 22)"
  | .endOfFile => "failed to fill whole buffer"
  | .other text => text

/-- What is wrong with the identification bytes of an image. -/
inductive IdentFault where
  /-- The four magic bytes are not there. -/
  | magic
  /-- The values are not little-endian. -/
  | dataEncoding (value : UInt8)
  /-- Neither 32-bit nor 64-bit. -/
  | wordClass (value : UInt8)
  deriving DecidableEq, Repr

/-- The wording of an identification fault. -/
def IdentFault.message : IdentFault → String
  | .magic => "elf magic doesn't match"
  | .dataEncoding value => "unsupported data encoding " ++ toString value.toNat
  | .wordClass value => "wrong elf class " ++ toString value.toNat

/-- Everything that can go wrong, by cause. -/
inductive Error where
  /-- The file could not be opened at all. -/
  | openFailed (path : String) (cause : IoError)
  /-- The bytes do not identify a supported image. -/
  | notAnImage (fault : IdentFault)
  /-- `length` bytes were wanted at `offset`, and fewer were there. -/
  | truncatedRead (offset : Nat) (length : Nat)
  /-- No section is named as the table of section names. -/
  | missingNameTable
  /-- There is no section of this name. -/
  | missingSection (name : String)
  /-- An FDE refers to an offset at which no CIE was decoded. -/
  | unknownCie (fdeOffset : Nat) (cieOffset : UInt64)
  /-- The augmentation string of a CIE is not understood. -/
  | malformedAugmentation (offset : Nat) (augmentation : String)
  /-- The byte names no format of an encoded pointer. -/
  | invalidPointerEncoding (byte : UInt8)
  /-- No fixed-width field has this many bytes. -/
  | unsupportedWidth (width : UInt8)
  /-- The length of the record reaches past the end of the section. -/
  | recordOverrun (offset : Nat)
  deriving DecidableEq, Repr

namespace Error

/-- The wording of an error. -/
def message : Error → String
  | openFailed path cause => "failed to open " ++ path ++ ": " ++ cause.message
  | notAnImage fault => "invalid ELF image: " ++ fault.message
  | truncatedRead offset length =>
    "truncated read of " ++ toString length ++ " bytes at offset " ++ Text.hexAddress offset
  | missingNameTable => "section header string table index is zero"
  | missingSection name => "no " ++ name ++ " section"
  | unknownCie fdeOffset cieOffset =>
    "FDE at " ++ Text.hexAddress fdeOffset ++ " references unknown CIE at " ++
      Text.hexAddress cieOffset.toNat
  | malformedAugmentation offset augmentation =>
    "CIE at " ++ Text.hexAddress offset ++ " has malformed augmentation " ++ Text.quote augmentation
  | invalidPointerEncoding byte => "invalid pointer encoding " ++ Text.hexByteAddress byte
  | unsupportedWidth width => "unsupported field width of " ++ toString width.toNat ++ " bytes"
  | recordOverrun offset => "record at " ++ Text.hexAddress offset ++ " overruns its bounds"

/-- Whether the section must not be decoded again. -/
def isFatal : Error → Bool
  | malformedAugmentation _ _ => true
  | _ => false

theorem isFatal_iff {e : Error} :
    e.isFatal = true ↔ ∃ offset augmentation, e = malformedAugmentation offset augmentation := by
  cases e <;> simp [isFatal]

end Error

end ElfUnwind
