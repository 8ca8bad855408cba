import ElfUnwind.Image.Writer
import ElfUnwind.Proofs.FieldRoundTrip
import ElfUnwind.Proofs.Opening
import ElfUnwind.Proofs.Utf8RoundTrip

/-!
# Images that were laid out

An image that was laid out from sections and segments opens, and what is found in it is what it was
laid out from (`ImageSource.read_bytes`). The proof first says where each piece of the layout
stands, then what the fields on disk hold, and only then that opening finds them.
-/

namespace ElfUnwind

open OnDisk

/-! ## Pieces one after the other -/

section Pieces

variable {α : Type} {bytes front piece tail : List UInt8} {pieces : List (List UInt8)}
  {xs : List α} {x : α} {write : α → List UInt8} {k position size width : Nat}

theorem slice_eq_of_append (h : bytes = front ++ (piece ++ tail))
    (hposition : position = front.length) (hsize : size = piece.length) :
    slice bytes position size = piece := by
  rw [h, hposition, hsize, slice, List.drop_left, List.take_left]

theorem flatten_eq_append (hk : pieces[k]? = some piece) :
    pieces.flatten = (pieces.take k).flatten ++ (piece ++ (pieces.drop (k + 1)).flatten) := by
  obtain ⟨hlt, rfl⟩ := List.getElem?_eq_some_iff.mp hk
  rw [← List.flatten_cons, List.getElem_cons_drop, ← List.flatten_append, List.take_append_drop]

/-- A piece stands behind those before it. -/
theorem slice_flatten (hk : pieces[k]? = some piece) (h : bytes = front ++ (pieces.flatten ++ tail))
    (hposition : position = front.length + (pieces.take k).flatten.length)
    (hsize : size = piece.length) : slice bytes position size = piece := by
  have hsplit : bytes = (front ++ (pieces.take k).flatten) ++
      (piece ++ ((pieces.drop (k + 1)).flatten ++ tail)) := by
    rw [h, flatten_eq_append hk]
    simp only [List.append_assoc]
  rw [← List.length_append] at hposition
  exact slice_eq_of_append hsplit hposition hsize

theorem length_flatMap_of_forall (hwidth : ∀ x, (write x).length = width) :
    (xs.flatMap write).length = xs.length * width := by
  induction xs with
  | nil => rw [List.flatMap_nil, List.length_nil, List.length_nil, Nat.zero_mul]
  | cons x xs ih =>
    rw [List.flatMap_cons, List.length_append, hwidth, ih, List.length_cons, Nat.succ_mul,
      Nat.add_comm]

/-- An entry of a table of equal entries stands at a multiple of their size. -/
theorem slice_flatMap (hk : xs[k]? = some x) (hwidth : ∀ x, (write x).length = width)
    (h : bytes = front ++ (xs.flatMap write ++ tail))
    (hposition : position = front.length + k * width) :
    slice bytes position width = write x := by
  obtain ⟨hlt, -⟩ := List.getElem?_eq_some_iff.mp hk
  have hbefore : ((xs.map write).take k).flatten.length = k * width := by
    rw [← List.map_take, ← List.flatMap_def, length_flatMap_of_forall hwidth, List.length_take,
      Nat.min_eq_left (Nat.le_of_lt hlt)]
  have hmap : (xs.map write)[k]? = some (write x) := by rw [List.getElem?_map, hk, Option.map_some]
  rw [List.flatMap_def] at h
  rw [← hbefore] at hposition
  exact slice_flatten hmap h hposition (hwidth x).symm

end Pieces

namespace ImageSource

/-! ## The layout -/

variable {i : ImageSource} {k : Nat}

/-- The sections that are laid out, that of the names last. -/
def sources (i : ImageSource) : List SectionSource := i.sections ++ [i.nameSource]

/-- Where the name of a section begins in the table of names. -/
def nameStart (i : ImageSource) (k : Nat) : Nat :=
  1 + ((i.names.map nameRecord).take k).flatten.length

/-- Where the contents of a section begin. -/
def contentStart (i : ImageSource) (k : Nat) : Nat :=
  i.contentsStart + (i.contents.take k).flatten.length

theorem names_eq (i : ImageSource) : i.names = i.sources.map SectionSource.name := by
  rw [names, sources, List.map_append]
  rfl

theorem contents_eq (i : ImageSource) : i.contents = i.sources.map SectionSource.contents := by
  rw [contents, sources, List.map_append]
  rfl

theorem length_sources (i : ImageSource) : i.sources.length = i.sections.length + 1 := by
  rw [sources, List.length_append]
  rfl

theorem getElem?_contents {source : SectionSource} (hk : i.sources[k]? = some source) :
    i.contents[k]? = some source.contents := by
  rw [contents_eq, List.getElem?_map, hk, Option.map_some]

theorem getElem?_offsets {start : Nat} {pieces : List (List UInt8)} (hk : k < pieces.length) :
    (offsets start pieces)[k]? = some (start + (pieces.take k).flatten.length) := by
  induction pieces generalizing start k with
  | nil => exact absurd hk (Nat.not_lt_zero k)
  | cons p ps ih =>
    cases k with
    | zero => rfl
    | succ k =>
      rw [offsets, List.getElem?_cons_succ, ih (Nat.lt_of_succ_lt_succ hk), List.take_succ_cons,
        List.flatten_cons, List.length_append, Nat.add_assoc]

theorem getElem?_entries {source : SectionSource} (hk : i.sources[k]? = some source) :
    i.entries[k]? = some (entryOf source (i.nameStart k) (i.contentStart k)) := by
  obtain ⟨hlt, -⟩ := List.getElem?_eq_some_iff.mp hk
  have hnames : k < (i.names.map nameRecord).length := by
    rwa [names_eq, List.length_map, List.length_map]
  have hcontents : k < i.contents.length := by rwa [contents_eq, List.length_map]
  have hzip : (i.sources.zip ((offsets 1 (i.names.map nameRecord)).zip
      (offsets i.contentsStart i.contents)))[k]? =
      some (source, i.nameStart k, i.contentStart k) := by
    rw [List.getElem?_zip_eq_some, List.getElem?_zip_eq_some]
    exact ⟨hk, getElem?_offsets hnames, getElem?_offsets hcontents⟩
  rw [entries]
  change (List.map _ (i.sources.zip _))[k]? = _
  rw [List.getElem?_map, hzip]
  rfl

theorem length_offsets (start : Nat) (pieces : List (List UInt8)) :
    (offsets start pieces).length = pieces.length := by
  induction pieces generalizing start with
  | nil => rfl
  | cons p ps ih => rw [offsets, List.length_cons, ih, List.length_cons]

theorem length_entries_eq (i : ImageSource) : i.entries.length = i.sources.length := by
  have hnames : i.names.length = i.sources.length := by rw [names_eq, List.length_map]
  have hcontents : i.contents.length = i.sources.length := by rw [contents_eq, List.length_map]
  rw [entries]
  change (List.map _ (i.sources.zip _)).length = _
  rw [List.length_map, List.length_zip, List.length_zip, length_offsets, length_offsets,
    List.length_map, hnames, hcontents, Nat.min_self, Nat.min_self]

theorem length_header (i : ImageSource) :
    (i.header.encode i.elfClass.ident 1).length = i.elfClass.headerSize := by
  refine FileHeader.length_encode ?_ 1 i.header
  cases i.elfClass <;> rfl

theorem length_front (i : ImageSource) :
    (i.header.encode i.elfClass.ident 1 ++ i.segments.flatMap (Segment.encode i.elfClass)).length =
      i.contentsStart := by
  rw [List.length_append, length_header, length_flatMap_of_forall (Segment.length_encode _)]
  rfl

theorem length_bytes (i : ImageSource) :
    i.bytes.length = i.sectionTable + (i.sources.length + 1) * i.elfClass.sectionEntrySize := by
  rw [bytes, List.length_append, List.length_append, length_front,
    length_flatMap_of_forall (length_sectionEntryBytes _), List.length_cons, length_entries_eq]
  rfl

/-! ### Where the pieces stand -/

theorem slice_header (i : ImageSource) :
    slice i.bytes 0 i.elfClass.headerSize = i.header.encode i.elfClass.ident 1 := by
  have h : i.bytes = [] ++ (i.header.encode i.elfClass.ident 1 ++
      (i.segments.flatMap (Segment.encode i.elfClass) ++ (i.contents.flatten ++
        (nullEntry :: i.entries).flatMap (sectionEntryBytes i.elfClass)))) := by
    simp only [bytes, List.append_assoc, List.nil_append]
  exact slice_eq_of_append h rfl (length_header i).symm

theorem slice_segment {s : Segment} (hk : i.segments[k]? = some s) :
    slice i.bytes (i.segmentTable + k * i.elfClass.segmentEntrySize) i.elfClass.segmentEntrySize =
      s.encode i.elfClass := by
  have h : i.bytes = i.header.encode i.elfClass.ident 1 ++
      (i.segments.flatMap (Segment.encode i.elfClass) ++ (i.contents.flatten ++
        (nullEntry :: i.entries).flatMap (sectionEntryBytes i.elfClass))) := by
    simp only [bytes, List.append_assoc]
  exact slice_flatMap hk (Segment.length_encode _) h (by rw [length_header, segmentTable])

theorem slice_contents {source : SectionSource} (hk : i.sources[k]? = some source) :
    slice i.bytes (i.contentStart k) source.contents.length = source.contents := by
  have h : i.bytes = (i.header.encode i.elfClass.ident 1 ++
      i.segments.flatMap (Segment.encode i.elfClass)) ++ (i.contents.flatten ++
        (nullEntry :: i.entries).flatMap (sectionEntryBytes i.elfClass)) := by
    simp only [bytes, List.append_assoc]
  exact slice_flatten (getElem?_contents hk) h (by rw [length_front, contentStart]) rfl

theorem slice_entry {e : SectionEntry} (hk : (nullEntry :: i.entries)[k]? = some e) :
    slice i.bytes (i.sectionTable + k * i.elfClass.sectionEntrySize) i.elfClass.sectionEntrySize =
      sectionEntryBytes i.elfClass e := by
  have h : i.bytes = (i.header.encode i.elfClass.ident 1 ++
      i.segments.flatMap (Segment.encode i.elfClass) ++ i.contents.flatten) ++
        ((nullEntry :: i.entries).flatMap (sectionEntryBytes i.elfClass) ++ []) := by
    rw [bytes, List.append_nil]
  refine slice_flatMap hk (length_sectionEntryBytes _) h ?_
  rw [List.length_append, length_front, sectionTable]

/-- An entry of the section table ends within the image. -/
theorem entry_end_le (hk : k < i.sources.length + 1) :
    i.sectionTable + k * i.elfClass.sectionEntrySize + i.elfClass.sectionEntrySize ≤
      i.bytes.length := by
  have hle : (k + 1) * i.elfClass.sectionEntrySize ≤
      (i.sources.length + 1) * i.elfClass.sectionEntrySize := Nat.mul_le_mul_right _ hk
  rw [Nat.succ_mul] at hle
  rw [length_bytes]
  omega

/-- An entry of the segment table ends before the contents. -/
theorem segment_end_le (hk : k < i.segments.length) :
    i.segmentTable + k * i.elfClass.segmentEntrySize + i.elfClass.segmentEntrySize ≤
      i.contentsStart := by
  have hle : (k + 1) * i.elfClass.segmentEntrySize ≤
      i.segments.length * i.elfClass.segmentEntrySize := Nat.mul_le_mul_right _ hk
  rw [Nat.succ_mul] at hle
  rw [contentsStart]
  omega

theorem contentsStart_le (i : ImageSource) : i.contentsStart ≤ i.sectionTable :=
  Nat.le_add_right _ _

theorem sectionTable_le (i : ImageSource) : i.sectionTable ≤ i.bytes.length := by
  rw [length_bytes]
  exact Nat.le_add_right _ _

/-- The contents of a section end before the section table. -/
theorem contentStart_add_le {source : SectionSource} (hk : i.sources[k]? = some source) :
    i.contentStart k + source.contents.length ≤ i.sectionTable := by
  rw [sectionTable, contentStart, flatten_eq_append (getElem?_contents hk), List.length_append,
    List.length_append]
  omega

/-! ### The table of names -/

theorem nameBytes_nameTable {source : SectionSource} (hk : i.sources[k]? = some source)
    (hname : '\x00' ∉ source.name.toList) (hsize : i.nameTable.length ≤ UInt32.size) :
    nameBytes i.nameTable (UInt32.ofNat (i.nameStart k)) = Text.Utf8.encode source.name.toList := by
  have hrecord : (i.names.map nameRecord)[k]? = some (nameRecord source.name) := by
    rw [names_eq, List.getElem?_map, List.getElem?_map, hk]
    rfl
  have htable : i.nameTable = ([0] ++ ((i.names.map nameRecord).take k).flatten) ++
      (nameRecord source.name ++ ((i.names.map nameRecord).drop (k + 1)).flatten) := by
    rw [nameTable, List.flatMap_def, flatten_eq_append hrecord]
    rfl
  have hstart : i.nameStart k = ([0] ++ ((i.names.map nameRecord).take k).flatten).length := by
    rw [List.length_append]
    rfl
  have hlt : i.nameStart k < UInt32.size := by
    refine Nat.lt_of_lt_of_le ?_ hsize
    rw [htable, List.length_append, ← hstart, List.length_append, nameRecord, List.length_append,
      List.length_singleton]
    omega
  rw [nameBytes, UInt32.toNat_ofNat_of_lt' hlt, htable, hstart, List.drop_left, nameRecord,
    List.append_assoc, List.takeWhile_append_of_pos]
  · simp [Text.Utf8.encode]
  · intro b hb
    exact decide_eq_true fun heq ↦ Text.Utf8.zero_notMem_encode hname (heq ▸ hb)

/-! ## What the fields on disk hold -/

/-- What can be laid out. The names tell the sections apart and can be written, there are not more
sections and segments than the header can count, and every number fits its field. -/
structure Fits (i : ImageSource) : Prop where
  /-- Names are neither empty nor cut off by a zero, and none is that of the table of names. -/
  named : ∀ s ∈ i.sections, s.name ≠ "" ∧ '\x00' ∉ s.name.toList ∧ s.name ≠ nameTableName
  /-- No two sections have the same name. -/
  distinct : (i.sections.map SectionSource.name).Nodup
  /-- The sections can be counted, with the first entry and the table of names. -/
  sectionCount : i.sections.length + 2 < UInt16.size
  /-- The segments can be counted. -/
  segmentCount : i.segments.length < UInt16.size
  /-- The address execution starts at fits. -/
  entry : i.elfClass.Holds i.entry
  /-- What is given for the sections fits. -/
  sectionValues : ∀ s ∈ i.sections, i.elfClass.Holds s.flags ∧ i.elfClass.Holds s.address
  /-- What is given for the segments fits. -/
  segmentValues : ∀ s ∈ i.segments, s.Fits i.elfClass
  /-- Where the section table begins fits, and so does all that lies before it. -/
  sectionTable : i.sectionTable < LittleEndian.capacity i.elfClass.wordSize
  /-- Where names begin fits. -/
  nameTable : i.nameTable.length ≤ UInt32.size
  /-- The image can be addressed. -/
  length : i.bytes.length ≤ UInt64.size

theorem capacity_wordSize_le (c : ElfClass) : LittleEndian.capacity c.wordSize ≤ UInt64.size := by
  cases c <;> decide

theorem toNat_ofNat_of_lt_capacity {c : ElfClass} {n : Nat}
    (h : n < LittleEndian.capacity c.wordSize) : (UInt64.ofNat n).toNat = n :=
  UInt64.toNat_ofNat_of_lt' (Nat.lt_of_lt_of_le h (capacity_wordSize_le c))

theorem holds_ofNat {c : ElfClass} {n : Nat} (h : n < LittleEndian.capacity c.wordSize) :
    c.Holds (UInt64.ofNat n) := by
  rwa [ElfClass.Holds, toNat_ofNat_of_lt_capacity h]

theorem holds_zero (c : ElfClass) : c.Holds 0 := by
  cases c <;> decide

theorem sectionEntry_ofBytes_sectionEntryBytes {c : ElfClass} {e : SectionEntry}
    (hflags : c.Holds e.flags) (haddress : c.Holds e.address) (hoffset : c.Holds e.offset)
    (hsize : c.Holds e.size) : SectionEntry.ofBytes c (sectionEntryBytes c e) = e := by
  have hdecode := (SectionEntry.takes_fields hflags haddress hoffset hsize).decode?
    (List.replicate (c.sectionEntrySize - (8 + 4 * c.wordSize)) 0)
  have hlength := Nat.le_of_eq (length_sectionEntryBytes c e).symm
  rw [← SectionEntry.decode?, ← sectionEntryBytes, SectionEntry.decode?_eq hlength] at hdecode
  exact Option.some.inj hdecode

theorem exists_bytes_eq_ident (i : ImageSource) : ∃ rest, i.bytes = i.elfClass.ident ++ rest := by
  simp only [bytes, FileHeader.encode, List.append_assoc]
  exact ⟨_, rfl⟩

theorem elfClass_bytes (i : ImageSource) : OnDisk.elfClass i.bytes = i.elfClass := by
  obtain ⟨rest, h⟩ := exists_bytes_eq_ident i
  rw [h, OnDisk.elfClass]
  cases i.elfClass <;> rfl

namespace Fits

variable {s : Segment} {e : SectionEntry} {source : SectionSource}

theorem segmentTable_lt (h : i.Fits) :
    i.segmentTable < LittleEndian.capacity i.elfClass.wordSize := by
  refine Nat.lt_of_le_of_lt ?_ h.sectionTable
  rw [ImageSource.sectionTable, contentsStart]
  omega

theorem header_bytes (h : i.Fits) : OnDisk.header i.bytes = i.header := by
  rw [OnDisk.header, elfClass_bytes, slice_header]
  refine FileHeader.ofBytes_encode (h := i.header) 1 ?_ h.entry ?_ ?_
  · cases i.elfClass <;> rfl
  · exact holds_ofNat h.segmentTable_lt
  · exact holds_ofNat h.sectionTable

theorem sectionPosition_bytes (h : i.Fits) (k : Nat) :
    sectionPosition i.bytes k = i.sectionTable + k * i.elfClass.sectionEntrySize := by
  have hsize : (UInt16.ofNat i.elfClass.sectionEntrySize).toNat = i.elfClass.sectionEntrySize := by
    cases i.elfClass <;> rfl
  rw [sectionPosition, h.header_bytes]
  simp only [ImageSource.header]
  rw [toNat_ofNat_of_lt_capacity h.sectionTable, hsize]

theorem segmentPosition_bytes (h : i.Fits) (k : Nat) :
    segmentPosition i.bytes k = i.segmentTable + k * i.elfClass.segmentEntrySize := by
  have hsize : (UInt16.ofNat i.elfClass.segmentEntrySize).toNat = i.elfClass.segmentEntrySize := by
    cases i.elfClass <;> rfl
  rw [segmentPosition, h.header_bytes]
  simp only [ImageSource.header]
  rw [toNat_ofNat_of_lt_capacity h.segmentTable_lt, hsize]

theorem sectionCount_bytes (h : i.Fits) :
    (OnDisk.header i.bytes).sectionCount.toNat = i.sources.length + 1 := by
  rw [h.header_bytes, length_sources]
  exact UInt16.toNat_ofNat_of_lt' h.sectionCount

theorem segmentCount_bytes (h : i.Fits) :
    (OnDisk.header i.bytes).segmentCount.toNat = i.segments.length := by
  rw [h.header_bytes]
  exact UInt16.toNat_ofNat_of_lt' h.segmentCount

theorem nameTableIndex_bytes (h : i.Fits) :
    (OnDisk.header i.bytes).nameTableIndex.toNat = i.sections.length + 1 := by
  rw [h.header_bytes]
  exact UInt16.toNat_ofNat_of_lt' (Nat.lt_of_succ_lt h.sectionCount)

/-- What is given for all sections fits, also for that of the names. -/
theorem values_of_mem (h : i.Fits) (hsource : source ∈ i.sources) :
    i.elfClass.Holds source.flags ∧ i.elfClass.Holds source.address := by
  rcases List.mem_append.mp hsource with hsource | hsource
  · exact h.sectionValues source hsource
  · rw [List.mem_singleton.mp hsource]
    exact ⟨holds_zero _, holds_zero _⟩

theorem named_of_mem (h : i.Fits) (hsource : source ∈ i.sources) :
    source.name ≠ "" ∧ '\x00' ∉ source.name.toList := by
  rcases List.mem_append.mp hsource with hsource | hsource
  · obtain ⟨hempty, hzero, -⟩ := h.named source hsource
    exact ⟨hempty, hzero⟩
  · have hname : nameTableName ≠ "" ∧ '\x00' ∉ nameTableName.toList := by decide
    rwa [List.mem_singleton.mp hsource]

theorem names_nodup (h : i.Fits) : i.names.Nodup := by
  refine List.nodup_append.mpr ⟨h.distinct, List.pairwise_singleton _ _, ?_⟩
  intro name hname other hother heq
  obtain ⟨source, hsource, rfl⟩ := List.mem_map.mp hname
  exact (h.named source hsource).2.2 (heq.trans (List.mem_singleton.mp hother))

theorem contentStart_lt (h : i.Fits) (hk : i.sources[k]? = some source) :
    i.contentStart k < LittleEndian.capacity i.elfClass.wordSize := by
  have hle := contentStart_add_le hk
  have hlt := h.sectionTable
  omega

theorem contents_lt (h : i.Fits) (hk : i.sources[k]? = some source) :
    source.contents.length < LittleEndian.capacity i.elfClass.wordSize := by
  have hle := contentStart_add_le hk
  have hlt := h.sectionTable
  omega

/-- The entry of a section is on disk. -/
theorem sectionEntry_bytes_succ (h : i.Fits) (hk : i.sources[k]? = some source) :
    sectionEntry i.bytes (k + 1) = entryOf source (i.nameStart k) (i.contentStart k) := by
  have hentry : (nullEntry :: i.entries)[k + 1]? =
      some (entryOf source (i.nameStart k) (i.contentStart k)) := getElem?_entries hk
  obtain ⟨hflags, haddress⟩ := h.values_of_mem (List.mem_of_getElem? hk)
  rw [sectionEntry, elfClass_bytes, h.sectionPosition_bytes, slice_entry hentry]
  exact sectionEntry_ofBytes_sectionEntryBytes hflags haddress (holds_ofNat (h.contentStart_lt hk))
    (holds_ofNat (h.contents_lt hk))

/-- The first entry on disk is the one without a name. -/
theorem sectionEntry_bytes_zero (h : i.Fits) : sectionEntry i.bytes 0 = nullEntry := by
  have hentry : (nullEntry :: i.entries)[0]? = some nullEntry := rfl
  rw [sectionEntry, elfClass_bytes, h.sectionPosition_bytes, slice_entry hentry]
  exact sectionEntry_ofBytes_sectionEntryBytes (holds_zero _) (holds_zero _) (holds_zero _)
    (holds_zero _)

/-- The table of names is the last section. -/
theorem getElem?_sources_last (i : ImageSource) :
    i.sources[i.sections.length]? = some i.nameSource := by
  rw [sources, List.getElem?_append_right (Nat.le_refl _), Nat.sub_self]
  rfl

theorem nameEntry_bytes (h : i.Fits) :
    OnDisk.nameEntry i.bytes = entryOf i.nameSource (i.nameStart i.sections.length)
      (i.contentStart i.sections.length) := by
  rw [OnDisk.nameEntry, h.nameTableIndex_bytes]
  exact h.sectionEntry_bytes_succ (getElem?_sources_last i)

theorem nameTable_bytes (h : i.Fits) : OnDisk.nameTable i.bytes = i.nameTable := by
  have hlast := getElem?_sources_last i
  rw [OnDisk.nameTable, h.nameEntry_bytes]
  simp only [entryOf]
  rw [toNat_ofNat_of_lt_capacity (h.contentStart_lt hlast),
    toNat_ofNat_of_lt_capacity (h.contents_lt hlast)]
  exact slice_contents hlast

theorem sectionName_bytes_succ (h : i.Fits) (hk : i.sources[k]? = some source) :
    sectionName i.bytes (k + 1) = source.name := by
  have hzero := (h.named_of_mem (List.mem_of_getElem? hk)).2
  rw [sectionName, rawName_eq, h.nameTable_bytes, h.sectionEntry_bytes_succ hk]
  simp only [entryOf]
  rw [nameBytes_nameTable hk hzero h.nameTable, Text.Utf8.decode, Text.Utf8.decodeFrom_encode,
    String.ofList_toList]

theorem sectionName_bytes_zero (h : i.Fits) : sectionName i.bytes 0 = "" := by
  rw [sectionName, rawName_eq, h.nameTable_bytes, h.sectionEntry_bytes_zero]
  rfl

/-- Each name stands in the entry of its own section only. -/
theorem lastNamed_bytes_iff (h : i.Fits) {name : String} {index : Nat} (hname : name ≠ "") :
    LastNamed i.bytes (i.sources.length + 1) name index ↔
      ∃ k source, i.sources[k]? = some source ∧ source.name = name ∧ index = k + 1 := by
  constructor
  · rintro ⟨hlt, heq, -⟩
    cases index with
    | zero => exact absurd (heq.symm.trans h.sectionName_bytes_zero) hname
    | succ k =>
      have hk := List.getElem?_eq_getElem (Nat.lt_of_succ_lt_succ hlt)
      exact ⟨k, _, hk, (h.sectionName_bytes_succ hk).symm.trans heq, rfl⟩
  · rintro ⟨k, source, hk, rfl, rfl⟩
    obtain ⟨hlt, -⟩ := List.getElem?_eq_some_iff.mp hk
    refine ⟨Nat.succ_lt_succ hlt, h.sectionName_bytes_succ hk, fun j hj hjlt heq ↦ ?_⟩
    obtain ⟨j, rfl⟩ : ∃ j', j = j' + 1 := ⟨j - 1, by omega⟩
    have hother := List.getElem?_eq_getElem (Nat.lt_of_succ_lt_succ hjlt)
    rw [h.sectionName_bytes_succ hother] at heq
    -- Two entries with one name would be two places of it among the names.
    have hnames : i.names[k]? = i.names[j]? := by
      rw [names_eq, List.getElem?_map, List.getElem?_map, hk, hother, Option.map_some,
        Option.map_some, heq]
    have hkj := (List.getElem?_inj (by rwa [names_eq, List.length_map]) h.names_nodup).mp hnames
    omega

theorem segments_bytes (h : i.Fits) : OnDisk.segments i.bytes = i.segments := by
  rw [OnDisk.segments, h.segmentCount_bytes]
  refine List.ext_getElem? fun k ↦ ?_
  rw [List.getElem?_map]
  by_cases hk : k < i.segments.length
  · have hs := List.getElem?_eq_getElem hk
    rw [List.getElem?_range hk, hs, Option.map_some, OnDisk.segment, elfClass_bytes,
      h.segmentPosition_bytes, slice_segment hs]
    rw [Segment.ofBytes_encode (h.segmentValues _ (List.getElem_mem hk))]
  · rw [List.getElem?_eq_none (by rw [List.length_range]; omega), Option.map_none,
      List.getElem?_eq_none (Nat.not_lt.mp hk)]

theorem inBounds_bytes (h : i.Fits) : InBounds i.bytes := by
  obtain ⟨rest, hident⟩ := exists_bytes_eq_ident i
  have hlength : i.elfClass.headerSize ≤ i.bytes.length :=
    Nat.le_trans (Nat.le_add_right _ _) (Nat.le_trans (contentsStart_le i) (sectionTable_le i))
  have hlast := getElem?_sources_last i
  constructor
  case ident => exact Nat.le_trans (by cases i.elfClass <;> decide) hlength
  case magic =>
    rw [hident]
    cases i.elfClass <;> rfl
  case dataEncoding =>
    rw [hident]
    cases i.elfClass <;> rfl
  case wordClass =>
    rw [hident]
    cases i.elfClass
    case elf32 => exact Or.inl rfl
    case elf64 => exact Or.inr rfl
  case header => rwa [elfClass_bytes]
  case named =>
    intro hzero
    have hindex := h.nameTableIndex_bytes
    rw [hzero] at hindex
    exact absurd hindex.symm (Nat.succ_ne_zero _)
  case nameEntry =>
    rw [h.nameTableIndex_bytes, h.sectionPosition_bytes, elfClass_bytes]
    exact entry_end_le (by rw [length_sources]; omega)
  case nameTable =>
    rw [h.nameEntry_bytes]
    simp only [entryOf]
    rw [toNat_ofNat_of_lt_capacity (h.contentStart_lt hlast),
      toNat_ofNat_of_lt_capacity (h.contents_lt hlast)]
    exact Nat.le_trans (contentStart_add_le hlast) (sectionTable_le i)
  case sections =>
    intro k hk
    rw [h.sectionCount_bytes] at hk
    rw [h.sectionPosition_bytes, elfClass_bytes]
    exact entry_end_le hk
  case segments =>
    intro k hk
    rw [h.segmentCount_bytes] at hk
    rw [h.segmentPosition_bytes, elfClass_bytes]
    exact Nat.le_trans (segment_end_le hk) (Nat.le_trans (contentsStart_le i) (sectionTable_le i))

end Fits

end ImageSource

/-! ## The lowest executable address -/

namespace Segment

variable {segments : List Segment} {address : UInt64}

/-- It is mapped and may be executed. -/
def IsMappedCode (s : Segment) : Prop := s.kind = 1 ∧ s.flags &&& 1 ≠ 0

theorem mem_filter_isMappedCode {s : Segment} :
    s ∈ segments.filter (fun s ↦ s.isLoad && s.isExecutable) ↔ s ∈ segments ∧ s.IsMappedCode := by
  rw [List.mem_filter, Bool.and_eq_true, isLoad, isExecutable, decide_eq_true_eq, bne_iff_ne]
  rfl

theorem lowestExecutable?_eq_some_iff :
    lowestExecutable? segments = some address ↔
      (∃ s ∈ segments, s.IsMappedCode ∧ s.virtualAddress = address) ∧
        ∀ s ∈ segments, s.IsMappedCode → address ≤ s.virtualAddress := by
  rw [lowestExecutable?, List.min?_eq_some_iff, List.mem_map, List.forall_mem_map]
  simp only [mem_filter_isMappedCode, and_assoc, and_imp]

theorem lowestExecutable?_eq_none_iff :
    lowestExecutable? segments = none ↔ ∀ s ∈ segments, ¬s.IsMappedCode := by
  rw [lowestExecutable?, List.min?_eq_none_iff, List.map_eq_nil_iff, List.eq_nil_iff_forall_not_mem]
  simp only [mem_filter_isMappedCode, not_and]

end Segment

/-! ## The round trip -/

/-- The section that is laid out with its contents at an offset. -/
def SectionSource.at (source : SectionSource) (offset : Nat) : Section where
  name := source.name
  kind := source.kind
  flags := source.flags
  address := source.address
  offset := UInt64.ofNat offset
  size := UInt64.ofNat source.contents.length

/-- A section without its place in the image. -/
def Section.unplaced (s : Section) : Section := { s with offset := 0 }

namespace Image

variable {σ : Type}

/-- An open image holds what an image was laid out from, and nothing else. -/
structure IsReadFrom (opened : Image σ) (i : ImageSource) : Prop where
  /-- The header was written so. -/
  header : opened.header = i.header
  /-- The sections are those that were laid out, that of the names among them. -/
  sections : ∀ name found, opened.section? name = some found ↔
    ∃ (k : Nat) (source : SectionSource), i.sources[k]? = some source ∧ source.name = name ∧
      found = source.at (i.contentStart k)
  /-- Under each name are the contents that were given. -/
  contents : ∀ source ∈ i.sources, ∀ s,
    (opened.sectionData source.name).ends s = (.ok source.contents, s)
  /-- The segments are those that were given, in their order. -/
  segments : opened.segments = i.segments
  /-- The lowest executable address is that of a segment, and none is below it. -/
  lowest : ∀ address, opened.lowestExecutable? = some address ↔
    (∃ s ∈ i.segments, s.IsMappedCode ∧ s.virtualAddress = address) ∧
      ∀ s ∈ i.segments, s.IsMappedCode → address ≤ s.virtualAddress
  /-- There is no lowest executable address only if no segment is mapped and executable. -/
  lowest_none : opened.lowestExecutable? = none ↔ ∀ s ∈ i.segments, ¬s.IsMappedCode

/-- Two open images hold the same, apart from where it lies in them. -/
structure HoldsSame (opened other : Image σ) : Prop where
  /-- Under each name both have a section or neither has, and what they say of it is the same. -/
  sections : ∀ name,
    (opened.section? name).map Section.unplaced = (other.section? name).map Section.unplaced
  /-- Under each name are the same contents, or none for the same cause. -/
  contents : ∀ name s, (opened.sectionData name).ends s = (other.sectionData name).ends s
  /-- The segments are the same. -/
  segments : opened.segments = other.segments
  /-- The lowest executable address is the same. -/
  lowest : opened.lowestExecutable? = other.lowestExecutable?

end Image

namespace ImageSource

variable {i j : ImageSource} {σ : Type}

theorem sources_eq_of_sections_eq (h : i.sections = j.sections) : i.sources = j.sources := by
  have hname : i.nameSource = j.nameSource := by rw [nameSource, nameTable, names, h]; rfl
  rw [sources, sources, h, hname]

namespace Fits

theorem namedSection_bytes_succ (h : i.Fits) {k : Nat} {source : SectionSource}
    (hk : i.sources[k]? = some source) :
    namedSection i.bytes (k + 1) = source.at (i.contentStart k) := by
  rw [namedSection, h.sectionName_bytes_succ hk, h.sectionEntry_bytes_succ hk]
  rfl

theorem section?_image_iff (h : i.Fits) (path name : String) (found : Section) :
    (image path i.bytes : Image σ).section? name = some found ↔
      ∃ (k : Nat) (source : SectionSource), i.sources[k]? = some source ∧ source.name = name ∧
        found = source.at (i.contentStart k) := by
  rw [section?_image, get?_sectionsUpTo_eq_some_iff, h.sectionCount_bytes]
  constructor
  · rintro ⟨hname, index, hlast, rfl⟩
    obtain ⟨k, source, hk, heq, rfl⟩ := (h.lastNamed_bytes_iff hname).mp hlast
    exact ⟨k, source, hk, heq, h.namedSection_bytes_succ hk⟩
  · rintro ⟨k, source, hk, rfl, rfl⟩
    have hname := (h.named_of_mem (List.mem_of_getElem? hk)).1
    have hlast := (h.lastNamed_bytes_iff hname).mpr ⟨k, source, hk, rfl, rfl⟩
    exact ⟨hname, k + 1, hlast, (h.namedSection_bytes_succ hk).symm⟩

theorem ends_sectionData_image (h : i.Fits) (path : String) {source : SectionSource}
    (hsource : source ∈ i.sources) (s : σ) :
    ((image path i.bytes : Image σ).sectionData source.name).ends s = (.ok source.contents, s) := by
  obtain ⟨k, hk⟩ := List.mem_iff_getElem?.mp hsource
  have hfound := (h.section?_image_iff path source.name _ (σ := σ)).mpr ⟨k, source, hk, rfl, rfl⟩
  have hread := makes_readRange i.bytes (source.at (i.contentStart k)).size
    (source.at (i.contentStart k)).offset s
  have hoffset : (source.at (i.contentStart k)).offset.toNat = i.contentStart k :=
    toNat_ofNat_of_lt_capacity (h.contentStart_lt hk)
  have hsize : (source.at (i.contentStart k)).size.toNat = source.contents.length :=
    toNat_ofNat_of_lt_capacity (h.contents_lt hk)
  have hle := Nat.le_trans (contentStart_add_le hk) (sectionTable_le i)
  rw [hoffset, hsize, slice_contents hk,
    Check.run_cons_of_holds (rangeCheck_holds_iff.mpr hle)] at hread
  rw [Image.sectionData, hfound]
  exact hread

/-- What is on disk is what was laid out. -/
theorem isReadFrom_image (h : i.Fits) (path : String) :
    (image path i.bytes : Image σ).IsReadFrom i where
  header := by rw [header_image, h.header_bytes]
  sections := h.section?_image_iff path
  contents _ hsource s := h.ends_sectionData_image path hsource s
  segments := by rw [segments_image, h.segments_bytes]
  lowest address := by
    rw [Image.lowestExecutable?, segments_image, h.segments_bytes,
      Segment.lowestExecutable?_eq_some_iff]
  lowest_none := by
    rw [Image.lowestExecutable?, segments_image, h.segments_bytes,
      Segment.lowestExecutable?_eq_none_iff]

end Fits

section Classes

variable {opened other : Image σ}

/-- A section that one of two such images has is also in the other, at its own place. -/
theorem exists_section?_of_sources_eq (hi : opened.IsReadFrom i) (hj : other.IsReadFrom j)
    (hsources : i.sources = j.sources) {name : String} {found : Section}
    (h : opened.section? name = some found) :
    ∃ source ∈ i.sources, source.name = name ∧
      ∃ found', other.section? name = some found' ∧ found.unplaced = found'.unplaced := by
  obtain ⟨k, source, hk, hname, rfl⟩ := (hi.sections name found).mp h
  refine ⟨source, List.mem_of_getElem? hk, hname, source.at (j.contentStart k), ?_, rfl⟩
  exact (hj.sections name _).mpr ⟨k, source, hsources ▸ hk, hname, rfl⟩

theorem eq_none_of_sources_eq (hi : opened.IsReadFrom i) (hj : other.IsReadFrom j)
    (hsources : i.sources = j.sources) {name : String} (h : opened.section? name = none) :
    other.section? name = none := by
  refine Option.eq_none_iff_forall_ne_some.mpr fun found hfound ↦ ?_
  obtain ⟨-, -, -, found', hfound', -⟩ :=
    exists_section?_of_sources_eq hj hi hsources.symm hfound
  rw [h] at hfound'
  cases hfound'

/-- Images laid out from the same sections and segments hold the same, whatever their class. -/
theorem holdsSame_of_isReadFrom (hi : opened.IsReadFrom i) (hj : other.IsReadFrom j)
    (hsections : i.sections = j.sections) (hsegments : i.segments = j.segments) :
    opened.HoldsSame other := by
  have hsources := sources_eq_of_sections_eq hsections
  have hopened : opened.segments = other.segments := by rw [hi.segments, hj.segments, hsegments]
  constructor
  case sections =>
    intro name
    cases h : opened.section? name with
    | none => rw [eq_none_of_sources_eq hi hj hsources h]
    | some found =>
      obtain ⟨-, -, -, found', hfound', heq⟩ := exists_section?_of_sources_eq hi hj hsources h
      rw [hfound', Option.map_some, Option.map_some, heq]
  case contents =>
    intro name s
    cases h : opened.section? name with
    | none =>
      rw [Image.sectionData, Image.sectionData, h,
        eq_none_of_sources_eq hi hj hsources h]
    | some found =>
      obtain ⟨source, hsource, rfl, -⟩ := exists_section?_of_sources_eq hi hj hsources h
      rw [hi.contents source hsource, hj.contents source (hsources ▸ hsource)]
  case segments => exact hopened
  case lowest => rw [Image.lowestExecutable?, Image.lowestExecutable?, hopened]

end Classes

/-- **The round trip of an image.** An image that was laid out opens, and holds what it was laid out
from. One of any class that was laid out from the same sections and segments holds the same. -/
theorem read_bytes (h : i.Fits) (path : String) (s : σ) :
    ∃ opened, ((Image.read path (Medium.ofBytes i.bytes)).ends s).1 = .ok opened ∧
      opened.IsReadFrom i ∧
      ∀ j : ImageSource, j.Fits → i.sections = j.sections → i.segments = j.segments →
        ∃ other, ((Image.read path (Medium.ofBytes j.bytes)).ends s).1 = .ok other ∧
          other.IsReadFrom j ∧ opened.HoldsSame other := by
  have hopens {i : ImageSource} (h : i.Fits) :
      ((Image.read path (Medium.ofBytes i.bytes)).ends s).1 = .ok (image path i.bytes) :=
    (makes_read_image path i.bytes).eq_ok_iff.mpr
      ⟨(checks_hold_iff h.length).mpr h.inBounds_bytes, rfl⟩
  refine ⟨_, hopens h, h.isReadFrom_image path, fun j hj hsections hsegments ↦ ?_⟩
  refine ⟨_, hopens hj, hj.isReadFrom_image path, ?_⟩
  exact holdsSame_of_isReadFrom (h.isReadFrom_image path) (hj.isReadFrom_image path) hsections
    hsegments

/-- Two sections and three segments, of which the last is the lowest that is executable. -/
def sample (c : ElfClass) : ImageSource where
  elfClass := c
  objectType := 2
  machine := 62
  entry := 0x401000
  flags := 0
  sections :=
    [⟨".text", 1, 6, 0x401000, [0x55, 0xc3, 0x90]⟩, ⟨".données", 1, 2, 0x402000, [0, 1, 2, 3]⟩]
  segments :=
    [⟨1, 4, 0, 0x1000, 0x1000, 0x40, 0x40, 0x1000⟩, ⟨1, 5, 0, 0x402000, 0x402000, 3, 3, 0x1000⟩,
     ⟨1, 5, 0, 0x401000, 0x401000, 3, 3, 0x1000⟩]

theorem fits_sample (c : ElfClass) : (sample c).Fits where
  named := by cases c <;> decide
  distinct := by cases c <;> decide
  sectionCount := by cases c <;> decide
  segmentCount := by cases c <;> decide
  entry := by cases c <;> decide
  sectionValues := by cases c <;> decide
  segmentValues := by
    have hfits : ∀ s ∈ (sample c).segments, c.Holds s.offset ∧ c.Holds s.virtualAddress ∧
        c.Holds s.physicalAddress ∧ c.Holds s.fileSize ∧ c.Holds s.memorySize ∧
        c.Holds s.align := by
      cases c <;> decide
    intro s hs
    obtain ⟨hoffset, hvirtual, hphysical, hfile, hmemory, halign⟩ := hfits s hs
    exact ⟨hoffset, hvirtual, hphysical, hfile, hmemory, halign⟩
  sectionTable := by cases c <;> decide +kernel
  nameTable := by cases c <;> decide +kernel
  length := by cases c <;> decide +kernel

/-- The images of both classes are opened, and hold the same. -/
theorem read_bytes_sample :
    ∃ opened : Image Unit,
      ((Image.read "image.elf" (Medium.ofBytes (sample .elf32).bytes)).ends ()).1 = .ok opened ∧
      opened.IsReadFrom (sample .elf32) ∧
      ∃ other : Image Unit,
        ((Image.read "image.elf" (Medium.ofBytes (sample .elf64).bytes)).ends ()).1 = .ok other ∧
        other.IsReadFrom (sample .elf64) ∧ opened.HoldsSame other := by
  obtain ⟨opened, hopened, hread, hclasses⟩ := read_bytes (fits_sample .elf32) "image.elf" ()
  exact ⟨opened, hopened, hread, hclasses (sample .elf64) (fits_sample .elf64) rfl rfl⟩

end ImageSource

end ElfUnwind
