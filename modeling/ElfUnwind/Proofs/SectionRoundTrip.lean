import ElfUnwind.Proofs.RecordRoundTrip

/-!
# Written sections are read back

Decoding a written section gives back its entries: every CIE at the offset of its record, and for
every start the last FDE written with it (`FrameIndex.decodeInto_write`).

## The invariant

Behind some items the index holds exactly their entries, and all CIEs lie before the next record
(`FrameIndex.Holds`). The bound is what keeps the CIEs in the order they were written in, and what
makes the reference of a later FDE lead back to its CIE. One item is one step of the pass
(`FrameItem.exists_decodeFrom_bytes`); the items of a section are an induction over the steps.
-/

namespace ElfUnwind

namespace FrameIndex

variable {context : FrameContext} {offset offset' : Nat} {cies : List Cie} {fdes : List Fde}
  {index : FrameIndex}

/-- The index holds exactly these entries, whose records lie before `offset`. -/
structure Holds (context : FrameContext) (offset : Nat) (cies : List Cie) (fdes : List Fde)
    (index : FrameIndex) : Prop where
  /-- It is the index of the section. -/
  kind_eq : index.kind = context.kind
  /-- The CIEs stand in the order they were written in. -/
  entries_cies : index.cies.entries = cies.map fun c ↦ (c.offset, c)
  /-- They lie before `offset`. -/
  offset_lt : ∀ c ∈ cies, c.offset < offset
  /-- Of the FDEs with one start the last is there. -/
  fde?_eq : ∀ start, index.fde? start = (fdes.filter (·.start = start)).getLast?

namespace Holds

theorem empty (context : FrameContext) (offset : Nat) :
    Holds context offset [] [] (FrameIndex.empty context.kind) where
  kind_eq := rfl
  entries_cies := rfl
  offset_lt := by simp
  fde?_eq := by simp

theorem mono (h : Holds context offset cies fdes index) (hle : offset ≤ offset') :
    Holds context offset' cies fdes index :=
  { h with offset_lt := fun c hc ↦ Nat.lt_of_lt_of_le (h.offset_lt c hc) hle }

theorem cie?_eq (h : Holds context offset cies fdes index) {c : Cie} (hc : c ∈ cies) :
    index.cie? c.offset = some c := by
  rw [cie?, SortedMap.get?_eq_some_iff, h.entries_cies]
  exact List.mem_map.mpr ⟨c, hc, rfl⟩

/-- A CIE at `offset` comes after all others. -/
theorem insertCie (h : Holds context offset cies fdes index) {c : Cie} (hc : c.offset = offset)
    (hlt : offset < offset') : Holds context offset' (cies ++ [c]) fdes (index.insertCie c) where
  kind_eq := h.kind_eq
  entries_cies := by
    have hbelow : ∀ e ∈ index.cies.entries, e.1 < c.offset := by
      intro e he
      rw [h.entries_cies] at he
      obtain ⟨d, hd, rfl⟩ := List.mem_map.mp he
      rw [hc]
      exact h.offset_lt d hd
    rw [FrameIndex.insertCie, SortedMap.entries_insert_of_forall_lt c hbelow, h.entries_cies,
      List.map_append, List.map_singleton]
  offset_lt := by
    intro d hd
    rcases List.mem_append.mp hd with hd | hd
    · exact Nat.lt_trans (h.offset_lt d hd) hlt
    · rw [List.mem_singleton.mp hd, hc]
      exact hlt
  fde?_eq start := h.fde?_eq start

/-- An FDE takes the place of those with its start. -/
theorem insertFde (h : Holds context offset cies fdes index) (f : Fde) :
    Holds context offset cies (fdes ++ [f]) (index.insertFde f) where
  kind_eq := h.kind_eq
  entries_cies := h.entries_cies
  offset_lt := h.offset_lt
  fde?_eq := by
    intro start
    rw [List.filter_append, List.getLast?_append]
    by_cases hstart : start = f.start
    · subst hstart
      rw [fde?_insertFde_self, List.filter_singleton, decide_eq_true rfl]
      rfl
    · rw [fde?_insertFde_of_ne hstart, h.fde?_eq start, List.filter_singleton,
        decide_eq_false (Ne.symm hstart)]
      rfl

end Holds

end FrameIndex

open FrameIndex (Holds)

namespace FrameItem

variable {context : FrameContext} {offset : Nat} {cies : List Cie} {fdes : List Fde}
  {index : FrameIndex}

/-! ## One item -/

theorem idOffset_le (isWide : Bool) (offset : Nat) (body : List UInt8) :
    idOffset isWide offset ≤ offset + (frame isWide body).length := by
  rw [idOffset, frame, List.length_append, length_lengthField]
  omega

theorem idField_append_ne_nil (isWide : Bool) (id : Nat) (tail : List UInt8) :
    idField isWide id ++ tail ≠ [] := by
  intro hnil
  have hlen := congrArg List.length hnil
  rw [List.length_append, idField, LittleEndian.length_ofNat, List.length_nil] at hlen
  split at hlen <;> omega

theorem length_frame_pos (isWide : Bool) (body : List UInt8) :
    0 < (frame isWide body).length := by
  rw [frame, List.length_append, length_lengthField]
  split <;> omega

/-- **One item is one step**, and the index behind it holds its entry too. -/
theorem exists_decodeFrom_bytes {item : FrameItem} (h : item.WellFormed context offset cies)
    (hholds : Holds context offset cies fdes index)
    (hend : offset + (item.bytes context offset cies).length < 2 ^ 64) (tail : List UInt8) :
    ∃ grown, Holds context (offset + (item.bytes context offset cies).length)
        (item.ciesAfter context offset cies) (fdes ++ (item.fde? context offset cies).toList)
        grown ∧
      (index.decodeFrom context ⟨offset, item.bytes context offset cies ++ tail⟩).value =
        (grown.decodeFrom context
          ⟨offset + (item.bytes context offset cies).length, tail⟩).value := by
  cases item with
  | cie c =>
    obtain ⟨hc, hfits⟩ := h
    have hne : cieBytes context c ≠ [] := idField_append_ne_nil _ _ _
    have hlt := Nat.lt_add_of_pos_right (n := offset)
      (length_frame_pos c.isWide (cieBytes context c))
    refine ⟨index.insertCie (c.entry context offset), ?_, ?_⟩
    · rw [show (cie c).fde? context offset cies = none from rfl, Option.toList_none,
        List.append_nil]
      exact hholds.insertCie rfl hlt
    · exact FrameIndex.decodeFrom_record (next_frame hne hfits offset tail)
        (outcome_cie hc hfits index offset _)
  | fde f =>
    obtain ⟨target, htarget, hf, hfits, hid⟩ := h
    have hmem := List.mem_of_getElem? htarget
    have hbytes : (fde f).bytes context offset cies
        = frame f.isWide (fdeBytes context offset target f) := by
      simp only [bytes, Option.mem_def.mp htarget]
    rw [hbytes] at hend ⊢
    have hne : fdeBytes context offset target f ≠ [] := idField_append_ne_nil _ _ _
    have hidEnd := Nat.lt_of_le_of_lt (idOffset_le f.isWide offset _) hend
    refine ⟨index.insertFde (f.entry context offset target), ?_, ?_⟩
    · rw [show (fde f).fde? context offset cies = some (f.entry context offset target) by
        rw [fde?, htarget, Option.map_some], Option.toList_some]
      exact (hholds.insertFde _).mono (Nat.le_add_right _ _)
    · exact FrameIndex.decodeFrom_record (next_frame hne hfits offset tail)
        (outcome_fde hf hfits hid (hholds.cie?_eq hmem) (hholds.offset_lt _ hmem) hidEnd)
  | zeroLength isWide =>
    refine ⟨index, ?_, ?_⟩
    · rw [show (zeroLength isWide).fde? context offset cies = none from rfl, Option.toList_none,
        List.append_nil]
      exact hholds.mono (Nat.le_add_right _ _)
    · exact FrameIndex.decodeFrom_zeroLength index (next_zeroLength isWide offset tail) h

/-! ## A section -/

/-- The items of a section, step by step. -/
theorem exists_decodeFrom_writeFrom {items : List FrameItem}
    (h : WellFormedFrom context offset cies items) (hholds : Holds context offset cies fdes index)
    (hend : offset + (writeFrom context offset cies items).length < 2 ^ 64) :
    ∃ grown, (index.decodeFrom context ⟨offset, writeFrom context offset cies items⟩).value
        = (.ok (), grown) ∧
      Holds context (offset + (writeFrom context offset cies items).length)
        (ciesFrom context offset cies items) (fdes ++ fdesFrom context offset cies items)
        grown := by
  induction items generalizing offset cies fdes index with
  | nil =>
    refine ⟨index, FrameIndex.decodeFrom_finished index (Framing.next_of_nil rfl), ?_⟩
    rw [fdesFrom, List.append_nil]
    exact hholds
  | cons item items ih =>
    obtain ⟨hitem, hitems⟩ := h
    rw [writeFrom, List.length_append, ← Nat.add_assoc] at hend ⊢
    obtain ⟨grown, hgrown, hstep⟩ := exists_decodeFrom_bytes hitem hholds (by omega)
      (writeFrom context (offset + (item.bytes context offset cies).length)
        (item.ciesAfter context offset cies) items)
    obtain ⟨final, hfinal, hheld⟩ := ih hitems hgrown hend
    refine ⟨final, hstep.trans hfinal, ?_⟩
    rw [ciesFrom, fdesFrom, ← List.append_assoc]
    exact hheld

end FrameItem

/-- **Decoding undoes writing.** -/
theorem FrameIndex.decodeInto_write {context : FrameContext} {items : List FrameItem}
    (h : FrameItem.WellFormedFrom context 0 [] items)
    (hlen : (FrameItem.write context items).length < 2 ^ 64) :
    ∃ index, ((FrameIndex.empty context.kind).decodeInto context
          (FrameItem.write context items)).value = (.ok (), index) ∧
      index.kind = context.kind ∧
      index.cies.entries = (FrameItem.cies context items).map (fun c ↦ (c.offset, c)) ∧
      ∀ start, index.fde? start =
        ((FrameItem.fdes context items).filter (·.start = start)).getLast? := by
  have hlen' : 0 + (FrameItem.writeFrom context 0 [] items).length < 2 ^ 64 := by
    rw [Nat.zero_add]
    exact hlen
  obtain ⟨index, hvalue, hheld⟩ :=
    FrameItem.exists_decodeFrom_writeFrom h (Holds.empty context 0) hlen'
  rw [List.nil_append] at hheld
  exact ⟨index, hvalue, hheld.kind_eq, hheld.entries_cies, hheld.fde?_eq⟩

/-! ### A section of all shapes

Both length forms, a length of zero in between, a relative address stored as four signed bytes and
a pointer to language-specific data behind an omitted personality routine. -/

namespace FrameItem

/-- The section lies at `0x4000`. -/
def sampleContext : FrameContext := ⟨.ehFrame, 0x4000, 8⟩

/-- A CIE in the long form. -/
def sampleCie : CieFields where
  isWide := true
  version := 4
  augmentation := some [.personality .omitted 0, .address ⟨0x1b⟩, .lsda ⟨0x0c⟩]
  addressSize := 8
  segmentSize := 0
  codeAlignment := 1
  dataAlignment := -8
  returnRegister := 300
  instructions := [0x0c, 7, 8]

/-- An FDE of it in the short form; its location is four below where it is stored. -/
def sampleFde : FdeFields where
  isWide := false
  cie := 0
  location := -4
  length := 0x20
  lsda := 5
  instructions := [0]

/-- The section. -/
def sample : List FrameItem := [.cie sampleCie, .zeroLength true, .fde sampleFde]

end FrameItem

open FrameItem in
theorem FrameIndex.decodeInto_write_sample :
    WellFormedFrom sampleContext 0 [] sample ∧ (write sampleContext sample).length < 2 ^ 64 ∧
      ∃ index, ((FrameIndex.empty sampleContext.kind).decodeInto sampleContext
            (write sampleContext sample)).value = (.ok (), index) ∧
        index.kind = sampleContext.kind ∧
        index.cies.entries = (FrameItem.cies sampleContext sample).map (fun c ↦ (c.offset, c)) ∧
        ∀ start, index.fde? start =
          ((FrameItem.fdes sampleContext sample).filter (·.start = start)).getLast? := by
  have hitems : WellFormedFrom sampleContext 0 [] sample := by decide +kernel
  have hlen : (write sampleContext sample).length < 2 ^ 64 := by decide +kernel
  exact ⟨hitems, hlen, FrameIndex.decodeInto_write hitems hlen⟩

end ElfUnwind
