import ElfUnwind.Frame.Decode

/-!
# Writing a frame section

The records of a section as values, and the bytes they are written as. A CIE is written with the
data its augmentation letters call for, an FDE with a reference to a CIE written before it. Which
items can be written is said by `FrameItem.WellFormed`, what stands in a written section by
`FrameItem.cies` and `FrameItem.fdes`.
-/

namespace ElfUnwind

/-! ## Pointers -/

namespace ValueFormat

/-- How many bytes a format of fixed width has; LEB128 numbers have none. -/
def width? (addressSize : UInt8) : ValueFormat → Option Nat
  | absptr => some addressSize.toNat
  | udata2 => some 2
  | udata4 => some 4
  | udata8 => some 8
  | sdata2 => some 2
  | sdata4 => some 4
  | sdata8 => some 8
  | uleb128 => none
  | sleb128 => none

/-- Whether values are extended by their sign. -/
def isSigned : ValueFormat → Bool
  | sleb128 => true
  | sdata2 => true
  | sdata4 => true
  | sdata8 => true
  | _ => false

/-- The bytes of a value. -/
def write (addressSize : UInt8) (value : UInt64) (format : ValueFormat) : List UInt8 :=
  match format.width? addressSize with
  | some width => LittleEndian.ofNat width value.toNat
  | none =>
    if format.isSigned then Leb128.encodeSigned value.toInt64.toInt
    else Leb128.encodeUnsigned value.toNat

/-- Whether a value can be stored: there are fields of its width, and it is in their range. -/
def Fits (addressSize : UInt8) (value : UInt64) (format : ValueFormat) : Prop :=
  (format = absptr → Read.isWidth addressSize = true) ∧
    ∀ width ∈ format.width? addressSize,
      if format.isSigned then
        -(LittleEndian.capacity width : Int) ≤ 2 * value.toInt64.toInt ∧
          2 * value.toInt64.toInt < LittleEndian.capacity width
      else
        value.toNat < LittleEndian.capacity width

instance (addressSize : UInt8) (value : UInt64) (format : ValueFormat) :
    Decidable (format.Fits addressSize value) :=
  inferInstanceAs (Decidable (_ ∧ _))

end ValueFormat

namespace PointerEncoding

/-- The bytes of a pointer; none of the omitted one. -/
def write (e : PointerEncoding) (addressSize : UInt8) (value : UInt64) : List UInt8 :=
  if e = omitted then []
  else
    match e.format? with
    | some format => format.write addressSize value
    | none => []

/-- Whether a value can be stored as a pointer that is there. -/
def Stores (e : PointerEncoding) (addressSize : UInt8) (value : UInt64) : Prop :=
  ∃ format ∈ e.format?, format.Fits addressSize value

instance (e : PointerEncoding) (addressSize : UInt8) (value : UInt64) :
    Decidable (e.Stores addressSize value) :=
  inferInstanceAs (Decidable (∃ format ∈ e.format?, _))

end PointerEncoding

/-! ## Records -/

/-- What a letter of an augmentation string stands for. -/
inductive Augmentation where
  /-- How the addresses of FDEs are stored: `R`. -/
  | address (encoding : PointerEncoding)
  /-- A personality routine: `P`. -/
  | personality (encoding : PointerEncoding) (value : UInt64)
  /-- How pointers to language-specific data are stored: `L`. -/
  | lsda (encoding : PointerEncoding)
  deriving DecidableEq, Repr

namespace Augmentation

/-- The letter. -/
def letter : Augmentation → Char
  | address _ => 'R'
  | personality _ _ => 'P'
  | lsda _ => 'L'

/-- The data that the letter calls for. -/
def data (addressSize : UInt8) : Augmentation → List UInt8
  | address encoding => [encoding.byte]
  | personality encoding value => encoding.byte :: encoding.write addressSize value
  | lsda encoding => [encoding.byte]

/-- What the letter settles about FDEs. -/
def settle (d : AugmentationData) : Augmentation → AugmentationData
  | address encoding => { d with address := encoding }
  | personality _ _ => d
  | lsda encoding => { d with lsda := encoding }

end Augmentation

/-- The fields of a CIE record. -/
structure CieFields where
  /-- Whether the record has the long form of the length. -/
  isWide : Bool
  /-- The version of the layout. -/
  version : UInt8
  /-- What the letters behind `z` stand for; `none` for an empty augmentation string. -/
  augmentation : Option (List Augmentation)
  /-- The size of an address, written from version 4 on. -/
  addressSize : UInt8
  /-- The size of a segment selector, written from version 4 on. -/
  segmentSize : UInt8
  /-- The factor of code offsets. -/
  codeAlignment : UInt64
  /-- The factor of data offsets. -/
  dataAlignment : Int64
  /-- The return address register; of version 1 only its low byte is written. -/
  returnRegister : UInt64
  /-- The instructions. -/
  instructions : List UInt8
  deriving DecidableEq, Repr

/-- The fields of an FDE record. -/
structure FdeFields where
  /-- Whether the record has the long form of the length. -/
  isWide : Bool
  /-- Which CIE it refers to, counted from the first of the section. -/
  cie : Nat
  /-- The stored location. -/
  location : UInt64
  /-- The stored length of the range. -/
  length : UInt64
  /-- The pointer to language-specific data, written where the CIE has one. -/
  lsda : UInt64
  /-- The instructions. -/
  instructions : List UInt8
  deriving DecidableEq, Repr

/-- What stands in a section. -/
inductive FrameItem where
  /-- A CIE. -/
  | cie (fields : CieFields)
  /-- An FDE. -/
  | fde (fields : FdeFields)
  /-- A length of zero. -/
  | zeroLength (isWide : Bool)
  deriving DecidableEq, Repr

namespace CieFields

/-- The size of an address that FDEs of this CIE have in a section of the given context. -/
def effectiveSize (context : FrameContext) (c : CieFields) : UInt8 :=
  if 4 ≤ c.version then c.addressSize else context.addressSize

/-- The augmentation string. -/
def augmentationString (c : CieFields) : List Char :=
  match c.augmentation with
  | none => []
  | some letters => 'z' :: letters.map Augmentation.letter

/-- The bytes of the augmentation string. -/
def augmentationText (c : CieFields) : List UInt8 :=
  c.augmentationString.map fun letter => UInt8.ofNat letter.toNat

/-- The augmentation data behind its length. -/
def augmentationBytes (context : FrameContext) (c : CieFields) : List UInt8 :=
  match c.augmentation with
  | none => []
  | some letters =>
    let data := letters.flatMap (Augmentation.data (c.effectiveSize context))
    Leb128.encodeUnsigned data.length ++ data

/-- The bytes between the identifier and the instructions. -/
def fieldBytes (context : FrameContext) (c : CieFields) : List UInt8 :=
  [c.version] ++ (c.augmentationText ++ [0]) ++
    (if 4 ≤ c.version then [c.addressSize, c.segmentSize] else []) ++
    Leb128.encodeUnsigned c.codeAlignment.toNat ++ Leb128.encodeSigned c.dataAlignment.toInt ++
    (if c.version = 1 then [c.returnRegister.toUInt8]
     else Leb128.encodeUnsigned c.returnRegister.toNat) ++
    c.augmentationBytes context

/-- The bytes after the identifier. -/
def body (context : FrameContext) (c : CieFields) : List UInt8 :=
  c.fieldBytes context ++ c.instructions

/-- What the letters settle about FDEs. -/
def augmentationData (c : CieFields) : AugmentationData :=
  (c.augmentation.getD []).foldl Augmentation.settle {}

/-- The entry that a record at `offset` is decoded to. -/
def entry (context : FrameContext) (offset : Nat) (c : CieFields) : Cie where
  offset := offset
  version := c.version
  augmentation := String.ofList c.augmentationString
  addressSize := c.effectiveSize context
  dataAlignment := c.dataAlignment
  addressEncoding := c.augmentationData.address
  lsdaEncoding := c.augmentationData.lsda
  isWide := c.isWide
  instructions := c.instructions

end CieFields

namespace FdeFields

/-- The pointer to language-specific data, if the CIE has one. -/
def lsdaBytes (cie : Cie) (f : FdeFields) : List UInt8 :=
  if cie.hasLsda then cie.lsdaEncoding.write cie.addressSize f.lsda else []

/-- The bytes between the identifier and the instructions, with the CIE it refers to. -/
def fieldBytes (cie : Cie) (f : FdeFields) : List UInt8 :=
  cie.addressEncoding.write cie.addressSize f.location ++
    cie.addressEncoding.write cie.addressSize f.length ++
    (if cie.hasAugmentationData then Leb128.encodeUnsigned (f.lsdaBytes cie).length else []) ++
    f.lsdaBytes cie

/-- The bytes after the identifier, with the CIE it refers to. -/
def body (cie : Cie) (f : FdeFields) : List UInt8 := f.fieldBytes cie ++ f.instructions

/-- How many bytes of the record stand before its location: the length and the identifier. -/
def headSize (f : FdeFields) : Nat := if f.isWide then 20 else 8

/-- The entry that a record at `offset` is decoded to, with the CIE it refers to. -/
def entry (context : FrameContext) (offset : Nat) (cie : Cie) (f : FdeFields) : Fde :=
  let start :=
    if cie.addressEncoding.isPcRelative then
      f.location + (context.base + UInt64.ofNat (offset + f.headSize))
    else f.location
  { offset, cie, start, stop := start + f.length, isWide := f.isWide,
    instructions := f.instructions }

end FdeFields

/-! ## Sections -/

namespace FrameItem

/-- The length field of a record. -/
def lengthField (isWide : Bool) (length : Nat) : List UInt8 :=
  if isWide then LittleEndian.ofNat 4 0xffffffff ++ LittleEndian.ofNat 8 length
  else LittleEndian.ofNat 4 length

/-- A record whose bytes after the length are `body`. -/
def frame (isWide : Bool) (body : List UInt8) : List UInt8 :=
  lengthField isWide body.length ++ body

/-- The identifier field. -/
def idField (isWide : Bool) (id : Nat) : List UInt8 :=
  LittleEndian.ofNat (if isWide then 8 else 4) id

/-- Where the identifier of a record at `offset` stands. -/
def idOffset (isWide : Bool) (offset : Nat) : Nat := offset + if isWide then 12 else 4

/-- The identifier by which an FDE whose identifier stands at `idOffset` refers to a CIE. -/
def referenceId (kind : FrameSection) (idOffset cieOffset : Nat) : Nat :=
  match kind with
  | .ehFrame => idOffset - cieOffset
  | .debugFrame => cieOffset

/-- The bytes behind the length of a CIE. -/
def cieBytes (context : FrameContext) (c : CieFields) : List UInt8 :=
  idField c.isWide context.kind.cieId.toNat ++ c.body context

/-- The bytes behind the length of an FDE at `offset` that refers to a CIE. -/
def fdeBytes (context : FrameContext) (offset : Nat) (target : Cie) (f : FdeFields) : List UInt8 :=
  idField f.isWide (referenceId context.kind (idOffset f.isWide offset) target.offset) ++
    f.body target

/-- The bytes of an item at `offset`, behind the CIEs `cies`. -/
def bytes (context : FrameContext) (offset : Nat) (cies : List Cie) : FrameItem → List UInt8
  | cie c => frame c.isWide (cieBytes context c)
  | fde f =>
    match cies[f.cie]? with
    | none => []
    | some target => frame f.isWide (fdeBytes context offset target f)
  | zeroLength isWide => frame isWide []

/-- The CIEs behind an item at `offset`. -/
def ciesAfter (context : FrameContext) (offset : Nat) (cies : List Cie) : FrameItem → List Cie
  | cie c => cies ++ [c.entry context offset]
  | _ => cies

/-- The FDE that an item at `offset` is, if it is one. -/
def fde? (context : FrameContext) (offset : Nat) (cies : List Cie) : FrameItem → Option Fde
  | fde f => (cies[f.cie]?).map fun target => f.entry context offset target
  | _ => none

/-- The bytes of items, the first at `offset`, behind the CIEs `cies`. -/
def writeFrom (context : FrameContext) (offset : Nat) (cies : List Cie) :
    List FrameItem → List UInt8
  | [] => []
  | item :: items =>
    -- The length of what is written here places all that follows.
    let here := item.bytes context offset cies
    here ++ writeFrom context (offset + here.length) (item.ciesAfter context offset cies) items

/-- The bytes of a section. -/
def write (context : FrameContext) (items : List FrameItem) : List UInt8 :=
  writeFrom context 0 [] items

/-- The CIEs behind items, the first at `offset`, behind the CIEs `cies`. -/
def ciesFrom (context : FrameContext) (offset : Nat) (cies : List Cie) :
    List FrameItem → List Cie
  | [] => cies
  | item :: items =>
    ciesFrom context (offset + (item.bytes context offset cies).length)
      (item.ciesAfter context offset cies) items

/-- The CIEs of a section, in their order. -/
def cies (context : FrameContext) (items : List FrameItem) : List Cie :=
  ciesFrom context 0 [] items

/-- The FDEs of items, the first at `offset`, behind the CIEs `cies`. -/
def fdesFrom (context : FrameContext) (offset : Nat) (cies : List Cie) :
    List FrameItem → List Fde
  | [] => []
  | item :: items =>
    (item.fde? context offset cies).toList ++
      fdesFrom context (offset + (item.bytes context offset cies).length)
        (item.ciesAfter context offset cies) items

/-- The FDEs of a section, in their order. -/
def fdes (context : FrameContext) (items : List FrameItem) : List Fde :=
  fdesFrom context 0 [] items

end FrameItem

/-! ## What can be written -/

/-- Whether the data of a letter can be written: a personality routine may be omitted. -/
def Augmentation.WellFormed (addressSize : UInt8) : Augmentation → Prop
  | .address _ => True
  | .personality encoding value => encoding = .omitted ∨ encoding.Stores addressSize value
  | .lsda _ => True

instance (addressSize : UInt8) (a : Augmentation) : Decidable (a.WellFormed addressSize) :=
  match a with
  | .address _ => inferInstanceAs (Decidable True)
  | .personality encoding value =>
    inferInstanceAs (Decidable (encoding = .omitted ∨ encoding.Stores addressSize value))
  | .lsda _ => inferInstanceAs (Decidable True)

/-- Whether the fields of a CIE can be written. -/
def CieFields.WellFormed (context : FrameContext) (c : CieFields) : Prop :=
  (c.version = 1 → c.returnRegister.toNat < 256) ∧
    ∀ letters ∈ c.augmentation, ∀ a ∈ letters, a.WellFormed (c.effectiveSize context)

instance (context : FrameContext) (c : CieFields) : Decidable (c.WellFormed context) :=
  inferInstanceAs (Decidable (_ ∧ _))

/-- Whether the fields of an FDE can be written with the CIE it refers to. -/
def FdeFields.WellFormed (target : Cie) (f : FdeFields) : Prop :=
  target.addressEncoding.Stores target.addressSize f.location ∧
    target.addressEncoding.Stores target.addressSize f.length ∧
      (target.hasLsda = true → target.lsdaEncoding.Stores target.addressSize f.lsda)

instance (target : Cie) (f : FdeFields) : Decidable (f.WellFormed target) :=
  inferInstanceAs (Decidable (_ ∧ _))

namespace FrameItem

/-- Whether a length or an identifier fits its field; all ones in the short form mean another. -/
def FieldFits (isWide : Bool) (n : Nat) : Prop := n < if isWide then UInt64.size else 0xffffffff

instance (isWide : Bool) (n : Nat) : Decidable (FieldFits isWide n) :=
  inferInstanceAs (Decidable (n < _))

/-- Whether an item can be written at `offset`, behind the CIEs `cies`. -/
def WellFormed (context : FrameContext) (offset : Nat) (cies : List Cie) : FrameItem → Prop
  | cie c => c.WellFormed context ∧ FieldFits c.isWide (cieBytes context c).length
  | fde f =>
    ∃ target ∈ cies[f.cie]?, f.WellFormed target ∧
      FieldFits f.isWide (fdeBytes context offset target f).length ∧
      FieldFits f.isWide (referenceId context.kind (idOffset f.isWide offset) target.offset)
  | zeroLength _ => context.kind = .ehFrame

instance (context : FrameContext) (offset : Nat) (cies : List Cie) (item : FrameItem) :
    Decidable (item.WellFormed context offset cies) :=
  match item with
  | cie _ => inferInstanceAs (Decidable (_ ∧ _))
  | fde f => inferInstanceAs (Decidable (∃ target ∈ cies[f.cie]?, _))
  | zeroLength _ => inferInstanceAs (Decidable (context.kind = .ehFrame))

/-- Whether items can be written, the first at `offset`, behind the CIEs `cies`. -/
def WellFormedFrom (context : FrameContext) (offset : Nat) (cies : List Cie) :
    List FrameItem → Prop
  | [] => True
  | item :: items =>
    item.WellFormed context offset cies ∧
      WellFormedFrom context (offset + (item.bytes context offset cies).length)
        (item.ciesAfter context offset cies) items

/-- Whether items can be written is found out item by item. -/
def decideWellFormedFrom (context : FrameContext) (offset : Nat) (cies : List Cie) :
    (items : List FrameItem) → Decidable (WellFormedFrom context offset cies items)
  | [] => inferInstanceAs (Decidable True)
  | item :: items =>
    have := decideWellFormedFrom context (offset + (item.bytes context offset cies).length)
      (item.ciesAfter context offset cies) items
    inferInstanceAs (Decidable (_ ∧ _))

instance (context : FrameContext) (offset : Nat) (cies : List Cie) (items : List FrameItem) :
    Decidable (WellFormedFrom context offset cies items) :=
  decideWellFormedFrom context offset cies items

end FrameItem

end ElfUnwind
