import ElfUnwind.Proofs.BackReferences
import ElfUnwind.Proofs.JoinedSections

/-!
# The transcript of a pass

A pass is told by the entries it decodes, in their order, and by how it ends: adding the entries one
after the other to the index it began with gives the index it leaves
(`FrameIndex.value_decodeFrom_eq`). So what an index holds under a key is what came last in the
transcript, and statements about two passes are statements about two lists.

## What an entry is decoded with

The CIE of an FDE is looked up in the index of that moment. A transcript does not hold that index,
as it can be told from the entries before (`DecodedRecord.Follow.entry_eq`).
-/

namespace ElfUnwind

/-! ## Entries by their keys -/

namespace FrameEntry

/-- Where the record of the entry begins. -/
def offset : FrameEntry → Nat
  | cie c => c.offset
  | fde f => f.offset

/-- The CIE that it is, if it stands at an offset. -/
def cieAt? (offset : Nat) : FrameEntry → Option Cie
  | cie c => if c.offset = offset then some c else none
  | fde _ => none

/-- The FDE that it is, if its range begins at an address. -/
def fdeAt? (start : UInt64) : FrameEntry → Option Fde
  | cie _ => none
  | fde f => if f.start = start then some f else none

/-- The last CIE at an offset among entries. -/
def lastCie? (offset : Nat) (es : List FrameEntry) : Option Cie :=
  (es.filterMap (cieAt? offset)).getLast?

/-- The last FDE among entries whose range begins at an address. -/
def lastFde? (start : UInt64) (es : List FrameEntry) : Option Fde :=
  (es.filterMap (fdeAt? start)).getLast?

variable {offset : Nat} {start : UInt64} {es : List FrameEntry} {e : FrameEntry} {c : Cie} {f : Fde}

theorem cieAt?_eq_some_iff : e.cieAt? offset = some c ↔ e = .cie c ∧ c.offset = offset := by
  cases e with
  | cie c' =>
    rw [cieAt?, Option.ite_none_right_eq_some, FrameEntry.cie.injEq, Option.some.injEq, and_comm]
    exact and_congr_right fun heq ↦ by rw [heq]
  | fde f => simp [cieAt?]

theorem fdeAt?_eq_some_iff : e.fdeAt? start = some f ↔ e = .fde f ∧ f.start = start := by
  cases e with
  | cie c => simp [fdeAt?]
  | fde f' =>
    rw [fdeAt?, Option.ite_none_right_eq_some, FrameEntry.fde.injEq, Option.some.injEq, and_comm]
    exact and_congr_right fun heq ↦ by rw [heq]

theorem mem_of_lastCie? (h : lastCie? offset es = some c) : .cie c ∈ es ∧ c.offset = offset := by
  obtain ⟨e, he, hc⟩ := List.mem_filterMap.mp (List.mem_of_getLast? h)
  obtain ⟨rfl, hoffset⟩ := cieAt?_eq_some_iff.mp hc
  exact ⟨he, hoffset⟩

theorem mem_of_lastFde? (h : lastFde? start es = some f) : .fde f ∈ es ∧ f.start = start := by
  obtain ⟨e, he, hf⟩ := List.mem_filterMap.mp (List.mem_of_getLast? h)
  obtain ⟨rfl, hstart⟩ := fdeAt?_eq_some_iff.mp hf
  exact ⟨he, hstart⟩

theorem lastCie?_concat :
    lastCie? offset (es ++ [e]) = (e.cieAt? offset).or (lastCie? offset es) := by
  rw [lastCie?, lastCie?, List.filterMap_append]
  cases h : e.cieAt? offset <;> simp [h]

theorem lastFde?_concat :
    lastFde? start (es ++ [e]) = (e.fdeAt? start).or (lastFde? start es) := by
  rw [lastFde?, lastFde?, List.filterMap_append]
  cases h : e.fdeAt? start <;> simp [h]

end FrameEntry

/-! ## Adding entries -/

namespace FrameIndex

variable {index : FrameIndex} {offset : Nat} {start : UInt64} {es fs : List FrameEntry}

/-- Adds entries in their order. -/
def addAll (index : FrameIndex) (es : List FrameEntry) : FrameIndex := es.foldl add index

theorem addAll_cons (e : FrameEntry) : index.addAll (e :: es) = (index.add e).addAll es := rfl

theorem addAll_append : index.addAll (es ++ fs) = (index.addAll es).addAll fs := List.foldl_append

theorem addAll_concat (e : FrameEntry) : index.addAll (es ++ [e]) = (index.addAll es).add e :=
  addAll_append

theorem cie?_add (e : FrameEntry) :
    (index.add e).cie? offset = (e.cieAt? offset).or (index.cie? offset) := by
  cases e with
  | cie c =>
    rw [add, FrameEntry.cieAt?]
    split
    · rename_i heq
      rw [← heq, cie?_insertCie_self, Option.some_or]
    · rename_i hne
      rw [cie?_insertCie_of_ne (Ne.symm hne), Option.none_or]
  | fde f => rfl

theorem fde?_add (e : FrameEntry) :
    (index.add e).fde? start = (e.fdeAt? start).or (index.fde? start) := by
  cases e with
  | cie c => rfl
  | fde f =>
    rw [add, FrameEntry.fdeAt?]
    split
    · rename_i heq
      rw [← heq, fde?_insertFde_self, Option.some_or]
    · rename_i hne
      rw [fde?_insertFde_of_ne (Ne.symm hne), Option.none_or]

/-- **The last CIE at an offset counts.** -/
theorem cie?_addAll (es : List FrameEntry) :
    (index.addAll es).cie? offset = (FrameEntry.lastCie? offset es).or (index.cie? offset) := by
  induction es using List.reverseRecOn with
  | nil => rfl
  | append_singleton es e ih =>
    rw [addAll_concat, cie?_add, ih, FrameEntry.lastCie?_concat, Option.or_assoc]

/-- **The last FDE with a start counts.** -/
theorem fde?_addAll (es : List FrameEntry) :
    (index.addAll es).fde? start = (FrameEntry.lastFde? start es).or (index.fde? start) := by
  induction es using List.reverseRecOn with
  | nil => rfl
  | append_singleton es e ih =>
    rw [addAll_concat, fde?_add, ih, FrameEntry.lastFde?_concat, Option.or_assoc]

/-- Entries say nothing about the section of an index, nor whether it has all of its entries. -/
theorem addAll_eq (es : List FrameEntry) :
    (index.addAll es).kind = index.kind ∧ (index.addAll es).isComplete = index.isComplete := by
  induction es using List.reverseRecOn with
  | nil => exact ⟨rfl, rfl⟩
  | append_singleton es e ih =>
    rw [addAll_concat]
    cases e with
    | cie c => exact ih
    | fde f => exact ih

end FrameIndex

/-! ## The entry of a record -/

namespace RawRecord

variable {context : FrameContext} {index : FrameIndex} {r : RawRecord} {e : FrameEntry} {f : Fde}

theorem offset_of_entry (h : r.entry context index = .ok e) : e.offset = r.offset := by
  obtain ⟨id, s, -, ⟨-, head, t, hfields, rfl⟩ | ⟨-, cie, head, t, -, hfields, rfl⟩⟩ :=
    entry_eq_ok_iff.mp h
  · exact Cie.yields_fields s t head hfields
  · exact Fde.yields_fields cie s t head hfields

/-- **What an FDE is decoded with** is the CIE of the index that its record refers to. -/
theorem refersTo_of_entry (h : r.entry context index = .ok (.fde f)) :
    ∃ target, r.RefersTo context target ∧ index.cie? target.toNat = some f.cie := by
  obtain ⟨id, s, hid, ⟨-, head, t, -, hsort⟩ | ⟨hne, cie, head, t, hfound, hfields, hsort⟩⟩ :=
    entry_eq_ok_iff.mp h
  · cases hsort
  · cases hsort
    obtain ⟨rfl, -⟩ := Fde.yields_fields_isDefined cie s t head hfields
    exact ⟨_, ⟨id, s, hid, hne, rfl⟩, hfound⟩

end RawRecord

/-! ## Records one after the other -/

/-- A record and the entry it was decoded to. -/
structure DecodedRecord where
  /-- What the decoding depended on besides the bytes. -/
  context : FrameContext
  /-- The record. -/
  record : RawRecord
  /-- Its entry. -/
  entry : FrameEntry

namespace DecodedRecord

/-- The entries of records. -/
def entries (ds : List DecodedRecord) : List FrameEntry := ds.map entry

/-- Each record is decoded to its entry with the index that those before it have left. -/
inductive Follow : FrameIndex → List DecodedRecord → Prop where
  | nil (index : FrameIndex) : Follow index []
  | cons {index : FrameIndex} {d : DecodedRecord} {ds : List DecodedRecord} :
      d.record.entry d.context index = .ok d.entry → Follow (index.add d.entry) ds →
      Follow index (d :: ds)

variable {index : FrameIndex} {d : DecodedRecord} {ds es front back : List DecodedRecord}

theorem entries_append : entries (ds ++ es) = entries ds ++ entries es := List.map_append

theorem Follow.append (h : Follow index ds) (hes : Follow (index.addAll (entries ds)) es) :
    Follow index (ds ++ es) := by
  induction h with
  | nil index => exact hes
  | cons hd _ ih => exact .cons hd (ih hes)

/-- **The moment of a record**: what it was decoded with is what the records before it have left. -/
theorem Follow.entry_eq (h : Follow index (front ++ d :: back)) :
    d.record.entry d.context (index.addAll (entries front)) = .ok d.entry := by
  induction front generalizing index with
  | nil =>
    cases h
    assumption
  | cons c front ih =>
    cases h with
    | cons _ hrest => exact ih hrest

/-- **The CIE of an FDE** is the one that stood at its reference when it was decoded. -/
theorem Follow.exists_reference {f : Fde} (h : Follow index ds) (hf : .fde f ∈ entries ds) :
    ∃ front d back target, ds = front ++ d :: back ∧ d.entry = .fde f ∧
      d.record.RefersTo d.context target ∧
      (index.addAll (entries front)).cie? target.toNat = some f.cie := by
  obtain ⟨d, hd, hentry⟩ := List.mem_map.mp hf
  obtain ⟨front, back, rfl⟩ := List.append_of_mem hd
  have hdecode := h.entry_eq
  rw [hentry] at hdecode
  obtain ⟨target, hrefers, hfound⟩ := RawRecord.refersTo_of_entry hdecode
  exact ⟨front, d, back, target, rfl, hentry, hrefers, hfound⟩

end DecodedRecord

/-! ## Passes -/

/-- What a pass decodes, and how it ends. -/
structure Transcript where
  /-- The records it decoded, in their order. -/
  records : List DecodedRecord
  /-- How it ends. -/
  ending : Except Error Unit

namespace Framing

variable {s rest : Span} {r : RawRecord}

theorem offset_of_next_record (h : next s = .record r rest) : r.offset = s.offset := by
  rcases next_cases s with hnil | ⟨e, he⟩ | ⟨front, length, isWide, tail, hspan, htakes⟩
  · rw [next_of_nil hnil] at h
    cases h
  · rw [he] at h
    cases h
  · rw [hspan, next_of_takes htakes] at h
    split at h
    · cases h
    · split at h
      · cases h
        rfl
      · cases h

/-- A record lies between where it begins and what follows it. -/
theorem offset_lt_of_next_record (h : next s = .record r rest) : s.offset < rest.offset := by
  have hstop := stop_of_next (Or.inr ⟨r, h⟩)
  have hlength := length_lt_of_next_record h
  simp only [Span.stop] at hstop
  omega

theorem offset_lt_of_next_zeroLength {offset : Nat} (h : next s = .zeroLength offset rest) :
    s.offset < rest.offset := by
  have hstop := stop_of_next (Or.inl ⟨offset, h⟩)
  have hlength := length_lt_of_next_zeroLength h
  simp only [Span.stop] at hstop
  omega

end Framing

namespace Transcript

/-- The entries of the records. -/
def entries (t : Transcript) : List FrameEntry := DecodedRecord.entries t.records

/-- The transcript with one more record before it. -/
def behind (d : DecodedRecord) (t : Transcript) : Transcript := ⟨d :: t.records, t.ending⟩

/-- The transcript of the rest of a section that is decoded into an index. -/
def ofSpan (context : FrameContext) (s : Span) (index : FrameIndex) : Transcript :=
  match _h : Framing.next s with
  | .finished => ⟨[], .ok ()⟩
  | .invalid cause => ⟨[], .error cause⟩
  | .zeroLength _ rest =>
    match context.kind with
    | .ehFrame => ofSpan context rest index
    | .debugFrame => ⟨[], .ok ()⟩
  | .record r rest =>
    match r.entry context index with
    | .error cause => ⟨[], .error cause⟩
    | .ok entry => (ofSpan context rest (index.add entry)).behind ⟨context, r, entry⟩
termination_by s.bytes.length
decreasing_by
  · exact Framing.length_lt_of_next_zeroLength ‹_›
  · exact Framing.length_lt_of_next_record ‹_›

/-- The transcript of a section that is decoded into an index. -/
def ofSection (context : FrameContext) (bytes : List UInt8) (index : FrameIndex) : Transcript :=
  ofSpan context ⟨0, bytes⟩ index

/-- The transcript, step by step. -/
theorem ofSpan_eq (context : FrameContext) (s : Span) (index : FrameIndex) :
    ofSpan context s index =
      match Framing.next s with
      | .finished => ⟨[], .ok ()⟩
      | .invalid cause => ⟨[], .error cause⟩
      | .zeroLength _ rest =>
        match context.kind with
        | .ehFrame => ofSpan context rest index
        | .debugFrame => ⟨[], .ok ()⟩
      | .record r rest =>
        match r.entry context index with
        | .error cause => ⟨[], .error cause⟩
        | .ok entry => (ofSpan context rest (index.add entry)).behind ⟨context, r, entry⟩ := by
  rw [ofSpan]
  split <;> rename_i h <;> rw [h]

variable {context : FrameContext} {s : Span} {index : FrameIndex}

/-- **Transcripts, by cases.** What holds where a pass stops, and is kept by a length of zero that
is passed over and by a record that is decoded, holds of every transcript. -/
theorem ofSpan_induction {motive : Span → FrameIndex → Transcript → Prop}
    (stops : ∀ s index ending, motive s index ⟨[], ending⟩)
    (skips : ∀ s index offset rest, Framing.next s = .zeroLength offset rest →
      motive rest index (ofSpan context rest index) → motive s index (ofSpan context rest index))
    (record : ∀ s index r rest entry, Framing.next s = .record r rest →
      r.entry context index = .ok entry →
      motive rest (index.add entry) (ofSpan context rest (index.add entry)) →
      motive s index ((ofSpan context rest (index.add entry)).behind ⟨context, r, entry⟩))
    (s : Span) (index : FrameIndex) : motive s index (ofSpan context s index) := by
  induction s, index using ofSpan.induct context with
  | case1 s index hnext =>
    rw [ofSpan_eq, hnext]
    exact stops s index _
  | case2 s index cause hnext =>
    rw [ofSpan_eq, hnext]
    exact stops s index _
  | case3 s index offset rest hnext hkind ih =>
    rw [ofSpan_eq, hnext]
    simp only [hkind]
    exact skips s index offset rest hnext ih
  | case4 s index offset rest hnext hkind =>
    rw [ofSpan_eq, hnext]
    simp only [hkind]
    exact stops s index _
  | case5 s index r rest hnext cause hentry =>
    rw [ofSpan_eq, hnext]
    simp only [hentry]
    exact stops s index _
  | case6 s index r rest hnext entry hentry ih =>
    rw [ofSpan_eq, hnext]
    simp only [hentry]
    exact record s index r rest entry hnext hentry ih

/-- The records of a pass follow each other. -/
theorem follow_ofSpan (context : FrameContext) (s : Span) (index : FrameIndex) :
    DecodedRecord.Follow index (ofSpan context s index).records := by
  refine ofSpan_induction (motive := fun _ index t ↦ DecodedRecord.Follow index t.records)
    ?stops ?skips ?record s index
  case stops =>
    intro _ index _
    exact .nil index
  case skips =>
    intro _ _ _ _ _ ih
    exact ih
  case record =>
    intro _ _ _ _ _ _ hentry ih
    exact .cons hentry ih

/-- **The entries of a pass ascend**: they are those of different records of the section. -/
theorem ascending_ofSpan (context : FrameContext) (s : Span) (index : FrameIndex) :
    (∀ e ∈ (ofSpan context s index).entries, s.offset ≤ e.offset ∧ e.offset < s.stop) ∧
      (ofSpan context s index).entries.Pairwise fun a b ↦ a.offset < b.offset := by
  refine ofSpan_induction (motive := fun s _ t ↦
    (∀ e ∈ t.entries, s.offset ≤ e.offset ∧ e.offset < s.stop) ∧
      t.entries.Pairwise fun a b ↦ a.offset < b.offset) ?stops ?skips ?record s index
  case stops =>
    intro s _ _
    exact ⟨fun e he ↦ absurd he List.not_mem_nil, List.Pairwise.nil⟩
  case skips =>
    rintro s _ offset rest hnext ⟨hbounds, hpairwise⟩
    have hlt := Framing.offset_lt_of_next_zeroLength hnext
    have hstop := Framing.stop_of_next (Or.inl ⟨offset, hnext⟩)
    refine ⟨fun e he ↦ ?_, hpairwise⟩
    have := hbounds e he
    omega
  case record =>
    rintro s _ r rest entry hnext hentry ⟨hbounds, hpairwise⟩
    have hlt := Framing.offset_lt_of_next_record hnext
    have hstop := Framing.stop_of_next (Or.inr ⟨r, hnext⟩)
    have hrest : rest.offset ≤ rest.stop := Nat.le_add_right _ _
    have hself : entry.offset = s.offset :=
      (RawRecord.offset_of_entry hentry).trans (Framing.offset_of_next_record hnext)
    constructor
    · intro e he
      rcases List.mem_cons.mp he with rfl | he
      · omega
      · have := hbounds e he
        omega
    · refine List.pairwise_cons.mpr ⟨fun e he ↦ ?_, hpairwise⟩
      have := hbounds e he
      dsimp only
      omega

end Transcript

namespace FrameIndex

/-- **A pass adds the entries of its transcript** and ends as it says. -/
theorem value_decodeFrom_eq (context : FrameContext) (s : Span) (index : FrameIndex) :
    (index.decodeFrom context s).value =
      ((Transcript.ofSpan context s index).ending,
        index.addAll (Transcript.ofSpan context s index).entries) := by
  induction s, index using Transcript.ofSpan.induct context with
  | case1 s index hnext =>
    rw [value_decodeFrom, Transcript.ofSpan_eq, hnext]
    rfl
  | case2 s index cause hnext =>
    rw [value_decodeFrom, Transcript.ofSpan_eq, hnext]
    rfl
  | case3 s index offset rest hnext hkind ih =>
    rw [value_decodeFrom, Transcript.ofSpan_eq, hnext]
    simp only [hkind]
    exact ih
  | case4 s index offset rest hnext hkind =>
    rw [value_decodeFrom, Transcript.ofSpan_eq, hnext]
    simp only [hkind]
    rfl
  | case5 s index r rest hnext cause hentry =>
    rw [value_decodeFrom, Transcript.ofSpan_eq, hnext]
    simp only [RawRecord.outcome_eq, hentry]
    rfl
  | case6 s index r rest hnext entry hentry ih =>
    rw [value_decodeFrom, Transcript.ofSpan_eq, hnext]
    simp only [RawRecord.outcome_eq, hentry]
    exact ih

theorem value_decodeInto_eq (context : FrameContext) (bytes : List UInt8) (index : FrameIndex) :
    (index.decodeInto context bytes).value =
      ((Transcript.ofSection context bytes index).ending,
        index.addAll (Transcript.ofSection context bytes index).entries) :=
  value_decodeFrom_eq context ⟨0, bytes⟩ index

end FrameIndex

end ElfUnwind
