import ElfUnwind.Proofs.FieldPositions

/-!
# Fields that were written

What the encoders of headers and table entries write is taken back by their decoders, whatever
follows, as long as the addresses, offsets and sizes fit the width of the class.
-/

namespace ElfUnwind

namespace Fields

variable {α β : Type} {f : Fields α} {g : α → Fields β} {front as bs : List UInt8} {a : α} {b : β}

/-- The decoder takes these bytes for the value `a`, whatever follows. -/
def Takes (f : Fields α) (front : List UInt8) (a : α) : Prop :=
  ∀ tail, f (front ++ tail) = some (a, tail)

theorem Takes.pure (a : α) : Takes (Pure.pure a) [] a := fun _ ↦ rfl

theorem Takes.bind (hf : f.Takes as a) (hg : (g a).Takes bs b) : (f >>= g).Takes (as ++ bs) b := by
  intro tail
  change (f (as ++ bs ++ tail)).bind (fun p ↦ g p.1 p.2) = _
  rw [List.append_assoc, hf (bs ++ tail)]
  exact hg tail

/-- What is made of the last field takes no more bytes. -/
theorem Takes.bind_pure (hf : f.Takes as a) (h : α → β) :
    (f >>= fun a ↦ Pure.pure (h a)).Takes as (h a) := by
  have htakes := hf.bind (g := fun a ↦ Pure.pure (h a)) (Takes.pure (h a))
  rwa [List.append_nil] at htakes

theorem Takes.map (hf : f.Takes as a) (h : α → β) : (h <$> f).Takes as (h a) := by
  intro tail
  change (f (as ++ tail)).bind (fun p ↦ some (h p.1, p.2)) = _
  rw [hf tail]
  rfl

theorem Takes.decode? (hf : f.Takes front a) (tail : List UInt8) :
    f.decode? (front ++ tail) = some a := by
  rw [Fields.decode?, hf tail]
  rfl

theorem takes_number {width n : Nat} (h : n < LittleEndian.capacity width) :
    (number width).Takes (LittleEndian.ofNat width n) n := by
  intro tail
  rw [number_append, Nat.mod_eq_of_lt h]

theorem takes_half (n : UInt16) : half.Takes (LittleEndian.ofNat 2 n.toNat) n := by
  have hlt : n.toNat < LittleEndian.capacity 2 := n.toNat_lt
  have h := (takes_number hlt).map UInt16.ofNat
  rwa [UInt16.ofNat_toNat] at h

theorem takes_word (n : UInt32) : word.Takes (LittleEndian.ofNat 4 n.toNat) n := by
  have hlt : n.toNat < LittleEndian.capacity 4 := n.toNat_lt
  have h := (takes_number hlt).map UInt32.ofNat
  rwa [UInt32.ofNat_toNat] at h

theorem takes_wide {width : Nat} {n : UInt64} (hn : n.toNat < LittleEndian.capacity width) :
    (wide width).Takes (LittleEndian.ofNat width n.toNat) n := by
  have h := (takes_number hn).map UInt64.ofNat
  rwa [UInt64.ofNat_toNat] at h

theorem takes_skip {width : Nat} (h : front.length = width) : (skip width).Takes front () := by
  intro tail
  change (number width (front ++ tail)).bind (fun p ↦ some ((), p.2)) = _
  rw [number_of_le (by rw [List.length_append]; omega), ← h, List.drop_left]
  rfl

end Fields

open Fields

/-- An address, offset or size fits the fields of a class. -/
def ElfClass.Holds (c : ElfClass) (n : UInt64) : Prop := n.toNat < LittleEndian.capacity c.wordSize

instance (c : ElfClass) (n : UInt64) : Decidable (c.Holds n) :=
  inferInstanceAs (Decidable (n.toNat < LittleEndian.capacity c.wordSize))

namespace FileHeader

theorem takes_fields {ident : List UInt8} {h : FileHeader} (version : UInt32)
    (hident : ident.length = ElfClass.identSize) (hentry : h.elfClass.Holds h.entry)
    (hsegments : h.elfClass.Holds h.segmentTable) (hsections : h.elfClass.Holds h.sectionTable) :
    (fields h.elfClass).Takes (encode ident version h) h := by
  simp only [fields, encode, List.append_assoc]
  refine (takes_skip hident).bind ?_
  refine (takes_half _).bind <| (takes_half _).bind ?_
  refine (takes_skip (LittleEndian.length_ofNat 4 _)).bind ?_
  refine (takes_wide hentry).bind <| (takes_wide hsegments).bind <| (takes_wide hsections).bind ?_
  refine (takes_word _).bind ?_
  refine (takes_half _).bind <| (takes_half _).bind <| (takes_half _).bind ?_
  refine (takes_half _).bind <| (takes_half _).bind ?_
  exact (takes_half _).bind_pure _

/-- A header that was written is read back. -/
theorem ofBytes_encode {ident : List UInt8} {h : FileHeader} (version : UInt32)
    (hident : ident.length = ElfClass.identSize) (hentry : h.elfClass.Holds h.entry)
    (hsegments : h.elfClass.Holds h.segmentTable) (hsections : h.elfClass.Holds h.sectionTable) :
    ofBytes h.elfClass (encode ident version h) = h := by
  have hdecode := (takes_fields version hident hentry hsegments hsections).decode? []
  rw [List.append_nil, ← decode?, decode?_eq (Nat.le_of_eq (length_encode hident version h).symm)]
    at hdecode
  exact Option.some.inj hdecode

end FileHeader

namespace SectionEntry

theorem takes_fields {c : ElfClass} {e : SectionEntry} (hflags : c.Holds e.flags)
    (haddress : c.Holds e.address) (hoffset : c.Holds e.offset) (hsize : c.Holds e.size) :
    (fields c).Takes (e.encode c) e := by
  simp only [fields, encode, List.append_assoc]
  refine (takes_word _).bind <| (takes_word _).bind ?_
  refine (takes_wide hflags).bind <| (takes_wide haddress).bind <| (takes_wide hoffset).bind ?_
  exact (takes_wide hsize).bind_pure _

end SectionEntry

namespace Segment

/-- The addresses, offsets and sizes of a segment fit the fields of a class. -/
structure Fits (c : ElfClass) (s : Segment) : Prop where
  /-- Its place in the image fits. -/
  offset : c.Holds s.offset
  /-- Its place in memory fits. -/
  virtualAddress : c.Holds s.virtualAddress
  /-- Its place in physical memory fits. -/
  physicalAddress : c.Holds s.physicalAddress
  /-- Its size in the image fits. -/
  fileSize : c.Holds s.fileSize
  /-- Its size in memory fits. -/
  memorySize : c.Holds s.memorySize
  /-- Its alignment fits. -/
  align : c.Holds s.align

theorem takes_fields {c : ElfClass} {s : Segment} (h : s.Fits c) :
    (fields c).Takes (s.encode c) s := by
  cases c with
  | elf32 =>
    simp only [fields, encode, List.append_assoc]
    refine (takes_word _).bind <| (takes_wide h.offset).bind ?_
    refine (takes_wide h.virtualAddress).bind <| (takes_wide h.physicalAddress).bind ?_
    refine (takes_wide h.fileSize).bind <| (takes_wide h.memorySize).bind ?_
    exact (takes_word _).bind <| (takes_wide h.align).bind_pure _
  | elf64 =>
    simp only [fields, encode, List.append_assoc]
    refine (takes_word _).bind <| (takes_word _).bind <| (takes_wide h.offset).bind ?_
    refine (takes_wide h.virtualAddress).bind <| (takes_wide h.physicalAddress).bind ?_
    refine (takes_wide h.fileSize).bind <| (takes_wide h.memorySize).bind ?_
    exact (takes_wide h.align).bind_pure _

/-- A segment that was written is read back. -/
theorem ofBytes_encode {c : ElfClass} {s : Segment} (h : s.Fits c) :
    ofBytes c (s.encode c) = s := by
  have hdecode := (takes_fields h).decode? []
  rw [List.append_nil, ← decode?, decode?_eq (Nat.le_of_eq (length_encode c s).symm)] at hdecode
  exact Option.some.inj hdecode

end Segment

end ElfUnwind
