import ElfUnwind.Frame.Framing
import ElfUnwind.Frame.FrameIndex
import ElfUnwind.Text.Utf8
import ElfUnwind.Told

/-!
# Decoding a frame section

A pass goes through the records of a section once. The body of a record is a span of its own, so it
cannot reach past the end of the record, and what is left of it after its fields are the
instructions. An FDE is decoded with the CIE it refers to, which must stand before it.

A pass ends at the first record that cannot be decoded; the index keeps what was decoded before.
-/

namespace ElfUnwind

/-- What the decoding of a section depends on besides its bytes. -/
structure FrameContext where
  /-- How records are numbered. -/
  kind : FrameSection
  /-- The address of the first byte of the section. -/
  base : UInt64
  /-- The size of an address for a CIE that does not say. -/
  addressSize : UInt8
  deriving DecidableEq, Repr

/-- Decoding the body of a record: what is left of it, telling and failure. -/
abbrev BodyDecoder := StateT Span (ExceptT Error Told)

namespace BodyDecoder

/-- Reads from the body. -/
def read {α : Type} (r : Read α) : BodyDecoder α := fun s => ExceptT.mk (pure (r s))

/-- Tells a step. -/
def tell (e : FrameEvent) : BodyDecoder Unit :=
  StateT.lift (ExceptT.lift (Told.tell (.frame e)))

/-- Ends the decoding. -/
def fail {α : Type} (cause : Error) : BodyDecoder α := StateT.lift (throw cause)

/-- Where the next byte stands. -/
def offset : BodyDecoder Nat := Span.offset <$> get

/-- Decodes a whole body. -/
def runOn {α : Type} (d : BodyDecoder α) (body : Span) : ExceptT Error Told α := d.run' body

end BodyDecoder

open BodyDecoder

/-! ## Common information entries -/

/-- How the pointers of the FDEs of a CIE are stored. -/
structure AugmentationData where
  /-- How their addresses are stored. -/
  address : PointerEncoding := .absptr
  /-- How their pointers to language-specific data are stored; zero if they have none. -/
  lsda : PointerEncoding := ⟨0⟩
  deriving DecidableEq, Repr

namespace Cie

/-- Whether an augmentation string is understood so far: it is empty, or begins with `z`. -/
def isAugmentation (augmentation : String) : Bool :=
  augmentation.toList.isEmpty || augmentation.toList.head? = some 'z'

/-- Ends the decoding unless an augmentation string is understood so far. -/
def checkAugmentation (malformed : Error) (augmentation : String) : BodyDecoder Unit :=
  if isAugmentation augmentation then pure () else fail malformed

/-- The data that one letter of the augmentation string stands for. -/
def letterData (addressSize : UInt8) (malformed : Error) (data : AugmentationData) (letter : Char) :
    BodyDecoder AugmentationData := do
  if letter = 'R' then
    let encoding : PointerEncoding := ⟨← read Read.byte⟩
    tell (.addressEncoding encoding)
    return { data with address := encoding }
  else if letter = 'P' then
    let encoding : PointerEncoding := ⟨← read Read.byte⟩
    let value ← read (encoding.read addressSize)
    tell (.personality value encoding)
    return data
  else if letter = 'L' then
    let encoding : PointerEncoding := ⟨← read Read.byte⟩
    tell (.lsdaEncoding encoding)
    return { data with lsda := encoding }
  else
    fail malformed

/-- The augmentation data of a CIE. Its length is told but does not bound it. -/
def augmentationData (addressSize : UInt8) (malformed : Error) (augmentation : String) :
    BodyDecoder AugmentationData :=
  match augmentation.toList with
  | 'z' :: letters => do
    let length ← read Read.uleb128
    tell (.augmentationLength length)
    letters.foldlM (letterData addressSize malformed) {}
  | _ => return {}

/-- The sizes that a CIE declares from version 4 on: that of an address is used. -/
def declaredSize (context : FrameContext) (version : UInt8) : BodyDecoder UInt8 := do
  if 4 ≤ version then
    let addressSize ← read Read.byte
    let segmentSize ← read Read.byte
    tell (.sizes addressSize segmentSize)
    return addressSize
  else
    return context.addressSize

/-- The number of the return address register: a byte in version 1. -/
def returnRegister (version : UInt8) : Read UInt64 :=
  if version = 1 then UInt8.toUInt64 <$> Read.byte else Read.uleb128

/-- Decodes the fields of a CIE after its identifier, up to the instructions. -/
def fields (context : FrameContext) (offset : Nat) (isWide : Bool) : BodyDecoder Cie := do
  let version ← read Read.byte
  let augmentation := Text.Utf8.decode (← read Read.zeroTerminated)
  let malformed := Error.malformedAugmentation offset augmentation
  tell (.version version augmentation)
  checkAugmentation malformed augmentation
  let addressSize ← declaredSize context version
  let codeAlignment ← read Read.uleb128
  let dataAlignment ← read Read.sleb128
  let register ← read (returnRegister version)
  tell (.factors codeAlignment dataAlignment register)
  let data ← augmentationData addressSize malformed augmentation
  return { offset, version, augmentation, addressSize, dataAlignment,
           addressEncoding := data.address, lsdaEncoding := data.lsda, isWide, instructions := [] }

/-- Decodes the body of a CIE after its identifier. -/
def decode (context : FrameContext) (offset : Nat) (isWide : Bool) : BodyDecoder Cie := do
  let cie ← fields context offset isWide
  let instructions ← read Read.rest
  tell (.initialInstructions instructions.length)
  return { cie with instructions }

end Cie

/-! ## Frame description entries -/

namespace Fde

/-- A pointer that must be there. -/
def pointer (encoding : PointerEncoding) (addressSize : UInt8) : BodyDecoder UInt64 := do
  match ← read (encoding.read addressSize) with
  | some value => return value
  | none => fail (.invalidPointerEncoding encoding.byte)

/-- The address that a stored value at `offset` of the section means. -/
def address (context : FrameContext) (encoding : PointerEncoding) (offset : Nat)
    (value : UInt64) : UInt64 :=
  if encoding.isPcRelative then value + context.base + UInt64.ofNat offset else value

/-- Passes over the length of the augmentation data, if there are any. -/
def passLength (cie : Cie) : BodyDecoder Unit := do
  if cie.hasAugmentationData then
    let length ← read Read.uleb128
    tell (.augmentationLength length)

/-- Passes over the pointer to language-specific data, if there is one. -/
def passLsda (cie : Cie) : BodyDecoder Unit := do
  if cie.hasLsda then
    let value ← read (cie.lsdaEncoding.read cie.addressSize)
    tell (.lsda value)

/-- Decodes the fields of an FDE after its identifier, up to the instructions. -/
def fields (context : FrameContext) (offset : Nat) (isWide : Bool) (cie : Cie) :
    BodyDecoder Fde := do
  -- A relative address counts from where it is stored.
  let location ← BodyDecoder.offset
  let initial ← pointer cie.addressEncoding cie.addressSize
  let length ← pointer cie.addressEncoding cie.addressSize
  let start := address context cie.addressEncoding location initial
  let stop := start + length
  tell (.range cie.offset start stop)
  passLength cie
  passLsda cie
  return { offset, cie, start, stop, isWide, instructions := [] }

/-- Decodes the body of an FDE after its identifier. -/
def decode (context : FrameContext) (offset : Nat) (isWide : Bool) (cie : Cie) :
    BodyDecoder Fde := do
  let fde ← fields context offset isWide cie
  let instructions ← read Read.rest
  tell (.instructions instructions.length)
  return { fde with instructions }

end Fde

/-! ## Records -/

namespace RawRecord

/-- The identifier of a record. The short form of all ones means the same as the long form. -/
def readId (isWide : Bool) : Read UInt64 := do
  let id ← Read.unsigned (if isWide then 8 else 4)
  -- Both sections widen it, though only in `.debug_frame` it marks a CIE.
  return if !isWide && id = 0xffffffff then -1 else id

/-- Decodes the entry of a record with the identifier `id` at `idOffset`: the index with it. -/
def decodeEntry (context : FrameContext) (index : FrameIndex) (record : RawRecord) (idOffset : Nat)
    (id : UInt64) : BodyDecoder FrameIndex :=
  if id = context.kind.cieId then do
    let cie ← Cie.decode context record.offset record.isWide
    return index.insertCie cie
  else
    let cieOffset := context.kind.cieOffset idOffset id
    match index.cie? cieOffset.toNat with
    | none => fail (.unknownCie record.offset cieOffset)
    | some cie => do
      let fde ← Fde.decode context record.offset record.isWide cie
      return index.insertFde fde

/-- Decodes a record: the index with its entry. -/
def decode (context : FrameContext) (index : FrameIndex) (record : RawRecord) :
    BodyDecoder FrameIndex := do
  let idOffset ← BodyDecoder.offset
  let id ← read (readId record.isWide)
  tell (.record record.offset id (id = context.kind.cieId))
  decodeEntry context index record idOffset id

end RawRecord

/-! ## Passes -/

namespace FrameIndex

/-- Decodes the records of the rest of a section into an index: how the pass ended, and the index as
far as it got. A length of zero is skipped in `.eh_frame` and ends the pass in `.debug_frame`. -/
def decodeFrom (context : FrameContext) (s : Span) (index : FrameIndex) :
    Told (Except Error Unit × FrameIndex) :=
  match _h : Framing.next s with
  | .finished => return (.ok (), index)
  | .invalid cause => return (.error cause, index)
  | .zeroLength offset rest => do
    Told.tell (.frame (.zeroLength offset))
    match context.kind with
    | .ehFrame => decodeFrom context rest index
    | .debugFrame => return (.ok (), index)
  | .record record rest => do
    -- A record that fails adds nothing, and nothing after it is looked at.
    match ← ((record.decode context index).runOn record.body).run with
    | .error cause => return (.error cause, index)
    | .ok grown => decodeFrom context rest grown
termination_by s.bytes.length
decreasing_by
  · exact Framing.length_lt_of_next_zeroLength ‹_›
  · exact Framing.length_lt_of_next_record ‹_›

/-- Decodes a section into an index. -/
def decodeInto (context : FrameContext) (bytes : List UInt8) (index : FrameIndex) :
    Told (Except Error Unit × FrameIndex) :=
  index.decodeFrom context ⟨0, bytes⟩

end FrameIndex

end ElfUnwind
