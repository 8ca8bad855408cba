import ElfUnwind.Proofs.FieldRoundTrip

/-!
# Layouts of a fixed size

The file header and the entries of the two tables are rows of fields, and the size of a row is that
of its fields together: a decoder fails exactly on bytes that are fewer, and looks at no others
(`Fields.Sized`). With what the encoders write being taken back, a layout is settled for every
value and all bytes (`ElfClass.Lays`). The classes differ in the width of the addresses and in where
the rights of a segment stand; on values of 32 bits this makes no difference to what is decoded.
-/

namespace ElfUnwind

namespace Fields

variable {α β : Type} {f : Fields α} {g : α → Fields β} {m n : Nat}

/-- The decoder takes exactly `size` bytes, and fails exactly where there are fewer. -/
structure Sized (f : Fields α) (size : Nat) : Prop where
  none_of_lt : ∀ {bytes : List UInt8}, bytes.length < size → f bytes = none
  exists_takes : ∀ {front : List UInt8}, front.length = size → ∃ a, f.Takes front a

theorem Sized.pure (a : α) : Sized (Pure.pure a) 0 where
  none_of_lt h := absurd h (Nat.not_lt_zero _)
  exists_takes h := List.length_eq_zero_iff.mp h ▸ ⟨a, Takes.pure a⟩

theorem Sized.bind (hf : f.Sized m) (hg : ∀ a, (g a).Sized n) : (f >>= g).Sized (m + n) where
  none_of_lt {bytes} h := by
    change (f bytes).bind (fun p ↦ g p.1 p.2) = none
    rcases Nat.lt_or_ge bytes.length m with hlt | hle
    · rw [hf.none_of_lt hlt, Option.bind_none]
    · obtain ⟨a, ha⟩ := hf.exists_takes (List.length_take_of_le hle)
      have hbytes := ha (bytes.drop m)
      rw [List.take_append_drop] at hbytes
      rw [hbytes, Option.bind_some]
      exact (hg a).none_of_lt (by rw [List.length_drop]; omega)
  exists_takes {front} h := by
    obtain ⟨a, ha⟩ := hf.exists_takes (List.length_take_of_le (show m ≤ front.length by omega))
    have hrest : (front.drop m).length = n := by
      rw [List.length_drop]
      omega
    obtain ⟨b, hb⟩ := (hg a).exists_takes hrest
    exact ⟨b, List.take_append_drop m front ▸ ha.bind hb⟩

theorem Sized.map (hf : f.Sized m) (h : α → β) : (h <$> f).Sized m where
  none_of_lt {bytes} hlt := by
    change (f bytes).bind (fun p ↦ some (h p.1, p.2)) = none
    rw [hf.none_of_lt hlt, Option.bind_none]
  exists_takes hlength := by
    obtain ⟨a, ha⟩ := hf.exists_takes hlength
    exact ⟨h a, ha.map h⟩

theorem sized_number (width : Nat) : (number width).Sized width where
  none_of_lt h := number_eq_none_iff.mpr h
  exists_takes {front} h := by
    refine ⟨LittleEndian.toNat front, fun tail ↦ ?_⟩
    rw [number_of_le (by rw [List.length_append]; omega), ← h, List.take_left, List.drop_left]

theorem sized_half : half.Sized 2 := (sized_number 2).map _

theorem sized_word : word.Sized 4 := (sized_number 4).map _

theorem sized_wide (width : Nat) : (wide width).Sized width := (sized_number width).map _

theorem sized_skip (width : Nat) : (skip width).Sized width := (sized_number width).map _

/-- The value is `none` exactly where there are too few bytes. -/
theorem Sized.decode?_eq_none_iff (h : f.Sized n) {bytes : List UInt8} :
    f.decode? bytes = none ↔ bytes.length < n := by
  constructor
  · intro hnone
    refine Nat.lt_of_not_le fun hle ↦ ?_
    obtain ⟨a, ha⟩ := h.exists_takes (List.length_take_of_le hle)
    have hsome := ha.decode? (bytes.drop n)
    rw [List.take_append_drop, hnone] at hsome
    cases hsome
  · intro hlt
    rw [decode?, h.none_of_lt hlt, Option.map_none]

/-- Bytes behind those of the fields have no say. -/
theorem Sized.decode?_append (h : f.Sized n) {front : List UInt8} (hfront : front.length = n)
    (tail : List UInt8) : f.decode? (front ++ tail) = f.decode? front := by
  obtain ⟨a, ha⟩ := h.exists_takes hfront
  have hfront := ha.decode? []
  rw [List.append_nil] at hfront
  rw [ha.decode? tail, hfront]

end Fields

/-! ## The layouts have the sizes of their fields -/

open Fields

theorem FileHeader.sized_fields (c : ElfClass) : (fields c).Sized c.headerSize := by
  have hsize : c.headerSize = 16 + (2 + (2 + (4 + (c.wordSize + (c.wordSize + (c.wordSize +
      (4 + (2 + (2 + (2 + (2 + (2 + (2 + 0))))))))))))) := by
    cases c <;> rfl
  rw [hsize, fields]
  refine (sized_skip _).bind fun _ ↦ sized_half.bind fun _ ↦ sized_half.bind fun _ ↦ ?_
  refine (sized_skip _).bind fun _ ↦ (sized_wide _).bind fun _ ↦ (sized_wide _).bind fun _ ↦ ?_
  refine (sized_wide _).bind fun _ ↦ sized_word.bind fun _ ↦ sized_half.bind fun _ ↦ ?_
  refine sized_half.bind fun _ ↦ sized_half.bind fun _ ↦ sized_half.bind fun _ ↦ ?_
  exact sized_half.bind fun _ ↦ sized_half.bind fun _ ↦ Sized.pure _

theorem SectionEntry.sized_fields (c : ElfClass) : (fields c).Sized (8 + 4 * c.wordSize) := by
  have hsize : 8 + 4 * c.wordSize =
      4 + (4 + (c.wordSize + (c.wordSize + (c.wordSize + (c.wordSize + 0))))) := by
    omega
  rw [hsize, fields]
  refine sized_word.bind fun _ ↦ sized_word.bind fun _ ↦ (sized_wide _).bind fun _ ↦ ?_
  refine (sized_wide _).bind fun _ ↦ (sized_wide _).bind fun _ ↦ (sized_wide _).bind fun _ ↦ ?_
  exact Sized.pure _

theorem Segment.sized_fields (c : ElfClass) : (fields c).Sized c.segmentEntrySize := by
  cases c with
  | elf32 =>
    change Sized _ (4 + (4 + (4 + (4 + (4 + (4 + (4 + (4 + 0))))))))
    refine sized_word.bind fun _ ↦ (sized_wide _).bind fun _ ↦ (sized_wide _).bind fun _ ↦ ?_
    refine (sized_wide _).bind fun _ ↦ (sized_wide _).bind fun _ ↦ (sized_wide _).bind fun _ ↦ ?_
    exact sized_word.bind fun _ ↦ (sized_wide _).bind fun _ ↦ Sized.pure _
  | elf64 =>
    change Sized _ (4 + (4 + (8 + (8 + (8 + (8 + (8 + (8 + 0))))))))
    refine sized_word.bind fun _ ↦ sized_word.bind fun _ ↦ (sized_wide _).bind fun _ ↦ ?_
    refine (sized_wide _).bind fun _ ↦ (sized_wide _).bind fun _ ↦ (sized_wide _).bind fun _ ↦ ?_
    exact (sized_wide _).bind fun _ ↦ (sized_wide _).bind fun _ ↦ Sized.pure _

/-! ## What a layout is -/

/-- The addresses of a header of a class fit its fields. -/
structure FileHeader.Fits (c : ElfClass) (h : FileHeader) : Prop where
  /-- It is a header of that class. -/
  elfClass : h.elfClass = c
  entry : c.Holds h.entry
  segmentTable : c.Holds h.segmentTable
  sectionTable : c.Holds h.sectionTable

/-- The addresses, offsets and sizes of an entry fit the fields of a class. -/
structure SectionEntry.Fits (c : ElfClass) (e : SectionEntry) : Prop where
  flags : c.Holds e.flags
  address : c.Holds e.address
  offset : c.Holds e.offset
  size : c.Holds e.size

/-- An encoder and a decoder of values of a fixed size that belong together. -/
structure ElfClass.Lays {α : Type} (decode? : List UInt8 → Option α) (encode : α → List UInt8)
    (size : Nat) (Fits : α → Prop) : Prop where
  /-- A value is encoded in as many bytes. -/
  length_encode : ∀ a, Fits a → (encode a).length = size
  /-- What was encoded is decoded, whatever follows. -/
  decode?_encode : ∀ a tail, Fits a → decode? (encode a ++ tail) = some a
  /-- Only too few bytes are not decoded. -/
  decode?_eq_none_iff : ∀ bytes, decode? bytes = none ↔ bytes.length < size
  /-- Later bytes have no say. -/
  decode?_append : ∀ front tail, front.length = size → decode? (front ++ tail) = decode? front

namespace ElfClass

theorem lays_fileHeader (c : ElfClass) {ident : List UInt8} (hident : ident.length = identSize)
    (version : UInt32) :
    Lays (FileHeader.decode? c) (FileHeader.encode ident version) c.headerSize
      (FileHeader.Fits c) where
  length_encode h hfits := by
    rw [FileHeader.length_encode hident, hfits.elfClass]
  decode?_encode h tail hfits := by
    obtain ⟨rfl, hentry, hsegments, hsections⟩ := hfits
    exact (FileHeader.takes_fields version hident hentry hsegments hsections).decode? tail
  decode?_eq_none_iff _ := (FileHeader.sized_fields c).decode?_eq_none_iff
  decode?_append _ tail hfront := (FileHeader.sized_fields c).decode?_append hfront tail

theorem lays_sectionEntry (c : ElfClass) :
    Lays (SectionEntry.decode? c) (SectionEntry.encode c) (8 + 4 * c.wordSize)
      (SectionEntry.Fits c) where
  length_encode e _ := SectionEntry.length_encode c e
  decode?_encode _ tail h :=
    (SectionEntry.takes_fields h.flags h.address h.offset h.size).decode? tail
  decode?_eq_none_iff _ := (SectionEntry.sized_fields c).decode?_eq_none_iff
  decode?_append _ tail hfront := (SectionEntry.sized_fields c).decode?_append hfront tail

theorem lays_segment (c : ElfClass) :
    Lays (Segment.decode? c) (Segment.encode c) c.segmentEntrySize (Segment.Fits c) where
  length_encode s _ := Segment.length_encode c s
  decode?_encode _ tail h := (Segment.takes_fields h).decode? tail
  decode?_eq_none_iff _ := (Segment.sized_fields c).decode?_eq_none_iff
  decode?_append _ tail hfront := (Segment.sized_fields c).decode?_append hfront tail

/-! ## The two classes -/

/-- What the narrower fields hold, the wider ones hold. -/
theorem Holds.widen {n : UInt64} (h : elf32.Holds n) : elf64.Holds n :=
  Nat.lt_trans h (by decide)

end ElfClass

theorem SectionEntry.Fits.widen {e : SectionEntry} (h : e.Fits .elf32) : e.Fits .elf64 :=
  ⟨h.flags.widen, h.address.widen, h.offset.widen, h.size.widen⟩

theorem Segment.Fits.widen {s : Segment} (h : s.Fits .elf32) : s.Fits .elf64 :=
  ⟨h.offset.widen, h.virtualAddress.widen, h.physicalAddress.widen, h.fileSize.widen,
    h.memorySize.widen, h.align.widen⟩

/-- The same header in another class. -/
def FileHeader.inClass (c : ElfClass) (h : FileHeader) : FileHeader := { h with elfClass := c }

theorem FileHeader.Fits.widen {h : FileHeader} (hfits : (h.inClass .elf32).Fits .elf32) :
    (h.inClass .elf64).Fits .elf64 :=
  ⟨rfl, hfits.entry.widen, hfits.segmentTable.widen, hfits.sectionTable.widen⟩

/-- **Headers and the entries of tables.** In both classes the encoders and decoders of the file
header, of section entries and of segments belong together: fields that fit come back whatever
follows, only bytes that are too few are not decoded, and no later byte has a say. Fields of 32 bits
are decoded alike in both classes, but for the class itself. -/
theorem ElfClass.lays_headers :
    (∀ (c : ElfClass) (ident : List UInt8) (version : UInt32), ident.length = identSize →
      Lays (FileHeader.decode? c) (FileHeader.encode ident version) c.headerSize
        (FileHeader.Fits c)) ∧
      (∀ c : ElfClass, Lays (SectionEntry.decode? c) (SectionEntry.encode c)
        (8 + 4 * c.wordSize) (SectionEntry.Fits c)) ∧
      (∀ c : ElfClass, Lays (Segment.decode? c) (Segment.encode c) c.segmentEntrySize
        (Segment.Fits c)) ∧
      (∀ (ident : ElfClass → List UInt8) (version : UInt32) (h : FileHeader)
        (tail : ElfClass → List UInt8), (∀ c, (ident c).length = identSize) →
          (h.inClass .elf32).Fits .elf32 →
            let decoded (c : ElfClass) :=
              FileHeader.decode? c (FileHeader.encode (ident c) version (h.inClass c) ++ tail c)
            (decoded .elf32).map (FileHeader.inClass .elf64) = decoded .elf64) ∧
      (∀ (e : SectionEntry) (tail : ElfClass → List UInt8), e.Fits .elf32 →
        SectionEntry.decode? .elf32 (e.encode .elf32 ++ tail .elf32)
          = SectionEntry.decode? .elf64 (e.encode .elf64 ++ tail .elf64)) ∧
      ∀ (s : Segment) (tail : ElfClass → List UInt8), s.Fits .elf32 →
        Segment.decode? .elf32 (s.encode .elf32 ++ tail .elf32)
          = Segment.decode? .elf64 (s.encode .elf64 ++ tail .elf64) := by
  refine ⟨fun c _ version hident ↦ lays_fileHeader c hident version, lays_sectionEntry,
    lays_segment, ?headers, ?sections, ?segments⟩
  case headers =>
    intro ident version h tail hident hfits decoded
    have hnarrow : decoded .elf32 = some (h.inClass .elf32) :=
      (lays_fileHeader .elf32 (hident _) version).decode?_encode _ _ hfits
    have hwide : decoded .elf64 = some (h.inClass .elf64) :=
      (lays_fileHeader .elf64 (hident _) version).decode?_encode _ _ hfits.widen
    rw [hnarrow, hwide]
    rfl
  case sections =>
    intro e tail h
    rw [(lays_sectionEntry .elf32).decode?_encode _ _ h,
      (lays_sectionEntry .elf64).decode?_encode _ _ h.widen]
  case segments =>
    intro s tail h
    rw [(lays_segment .elf32).decode?_encode _ _ h,
      (lays_segment .elf64).decode?_encode _ _ h.widen]

/-- The header of an executable, one of its sections and one of its segments. -/
theorem ElfClass.lays_headers_executable :
    let ident (c : ElfClass) : List UInt8 :=
      [0x7f, 0x45, 0x4c, 0x46, if c = .elf32 then 1 else 2, 1, 1] ++ List.replicate 9 0
    let header : FileHeader := ⟨.elf32, 2, 3, 0x8049000, 52, 0x3000, 0, 52, 32, 2, 40, 5, 4⟩
    let decoded (c : ElfClass) :=
      FileHeader.decode? c (FileHeader.encode (ident c) 1 (header.inClass c) ++ [0xff])
    let text : SectionEntry := ⟨27, 1, 6, 0x8049000, 0x1000, 0x1b5⟩
    let code : Segment := ⟨1, 5, 0x1000, 0x8049000, 0x8049000, 0x1b5, 0x1b5, 0x1000⟩
    decoded .elf32 = some header ∧
      (decoded .elf32).map (FileHeader.inClass .elf64) = decoded .elf64 ∧
      SectionEntry.decode? .elf32 (text.encode .elf32 ++ [0xff]) = some text ∧
      SectionEntry.decode? .elf32 (text.encode .elf32 ++ [0xff]) =
        SectionEntry.decode? .elf64 (text.encode .elf64 ++ [0xff]) ∧
      Segment.decode? .elf32 (code.encode .elf32 ++ [0xff]) = some code ∧
      Segment.decode? .elf32 (code.encode .elf32 ++ [0xff]) =
        Segment.decode? .elf64 (code.encode .elf64 ++ [0xff]) := by
  intro ident header decoded text code
  obtain ⟨hheaders, hsections, hsegments, hheader, hsection, hsegment⟩ := lays_headers
  have hident : ∀ c, (ident c).length = identSize := by
    intro c
    cases c <;> rfl
  have hfits : (header.inClass .elf32).Fits .elf32 := ⟨rfl, by decide, by decide, by decide⟩
  have htext : text.Fits .elf32 := ⟨by decide, by decide, by decide, by decide⟩
  have hcode : code.Fits .elf32 :=
    ⟨by decide, by decide, by decide, by decide, by decide, by decide⟩
  exact ⟨(hheaders .elf32 _ 1 (hident _)).decode?_encode _ _ hfits,
    hheader ident 1 header (fun _ ↦ [0xff]) hident hfits,
    (hsections .elf32).decode?_encode _ _ htext, hsection text (fun _ ↦ [0xff]) htext,
    (hsegments .elf32).decode?_encode _ _ hcode, hsegment code (fun _ ↦ [0xff]) hcode⟩

end ElfUnwind
