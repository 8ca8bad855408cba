import ElfUnwind.Proofs.BodyNarration
import ElfUnwind.Proofs.Relocation
import ElfUnwind.Proofs.TwoStages

/-!
# What pieces tell

What a pass over a section tells is put together of what its pieces tell, in their order
(`FrameIndex.events_decodeInto`). Between what is told and the index stand the entries that were
decoded: an entry has one line and, if it is an FDE, one range (`FrameEntry.AreTold`). What the
index makes of entries is settled by these: CIEs ascend and stay apart, while an FDE may be put in
the place of one with the same start.
-/

namespace ElfUnwind

open BodyDecoder

/-! ## Keys of entries -/

namespace SortedMap

variable {κ β : Type} [LT κ] [DecidableLT κ] [StrictTotal κ] {m : SortedMap κ β} {k k' : κ} {v : β}

theorem mem_keys_insert : k' ∈ (m.insert k v).keys ↔ k' = k ∨ k' ∈ m.keys := by
  simp only [keys, List.mem_map, mem_entries_insert]
  constructor
  · rintro ⟨e, rfl | ⟨he, -⟩, rfl⟩
    · exact Or.inl rfl
    · exact Or.inr ⟨e, he, rfl⟩
  · rintro (rfl | ⟨e, he, rfl⟩)
    · exact ⟨(k', v), Or.inl rfl, rfl⟩
    · by_cases heq : e.1 = k
      · exact ⟨(k, v), Or.inl rfl, heq.symm⟩
      · exact ⟨e, Or.inr ⟨he, heq⟩, rfl⟩

/-- A key above all others goes to the end. -/
theorem keys_insert_of_forall_lt (v : β) (h : ∀ k' ∈ m.keys, k' < k) :
    (m.insert k v).keys = m.keys ++ [k] := by
  rw [keys, entries_insert_of_forall_lt v fun e he ↦ h e.1 (List.mem_map_of_mem he),
    List.map_append]
  rfl

end SortedMap

namespace FrameEntry

/-- Where it begins, if it is a CIE. -/
def cieOffset? : FrameEntry → Option ℕ
  | cie c => some c.offset
  | fde _ => none

/-- Where it begins, if it is an FDE. -/
def fdeOffset? : FrameEntry → Option ℕ
  | cie _ => none
  | fde f => some f.offset

/-- An FDE has a start. -/
theorem length_filterMap_start? (es : List FrameEntry) :
    (es.filterMap start?).length = (es.filterMap fdeOffset?).length := by
  rw [List.length_filterMap_eq_countP, List.length_filterMap_eq_countP]
  refine List.countP_congr fun e _ ↦ ?_
  cases e <;> rfl

/-- Lines and starts are told of entries: one line each, and one start for an FDE. -/
structure AreTold (es : List FrameEntry) (lines : List Mark) (starts : List UInt64) : Prop where
  /-- The lines of CIEs. -/
  cies : lines.filterMap Mark.cieOffset? = es.filterMap cieOffset?
  /-- The lines of FDEs. -/
  fdes : lines.filterMap Mark.fdeOffset? = es.filterMap fdeOffset?
  /-- The starts of FDEs. -/
  starts : starts = es.filterMap start?

variable {es : List FrameEntry} {lines : List Mark} {starts : List UInt64}

theorem AreTold.nil : AreTold [] [] [] := ⟨rfl, rfl, rfl⟩

theorem AreTold.zeroLength (h : AreTold es lines starts) (offset : ℕ) :
    AreTold es (.zeroLength offset :: lines) starts := ⟨h.cies, h.fdes, h.starts⟩

/-- One entry more. -/
theorem AreTold.cons (h : AreTold es lines starts) (e : FrameEntry) (id : UInt64) :
    AreTold (e :: es) (.record e.offset id e.isCie :: lines) (e.start?.toList ++ starts) := by
  cases e with
  | cie c => exact ⟨congrArg (c.offset :: ·) h.cies, h.fdes, h.starts⟩
  | fde f => exact ⟨h.cies, congrArg (f.offset :: ·) h.fdes, congrArg (f.start :: ·) h.starts⟩

end FrameEntry

/-! ## The index of entries -/

namespace FrameIndex

open FrameEntry

variable {kind : FrameSection} {es : List FrameEntry}

/-- The CIEs of an index are those of the entries, if these ascend. -/
theorem keys_cies_addAll (kind : FrameSection)
    (h : (es.filterMap cieOffset?).Pairwise (· < ·)) :
    ((empty kind).addAll es).cies.keys = es.filterMap cieOffset? := by
  induction es using List.reverseRecOn with
  | nil => rfl
  | append_singleton es e ih =>
    rw [List.filterMap_append] at h ⊢
    obtain ⟨hfront, -, hlast⟩ := List.pairwise_append.mp h
    rw [addAll_concat]
    cases e with
    | cie c =>
      have hbelow : ∀ offset ∈ ((empty kind).addAll es).cies.keys, offset < c.offset := by
        rw [ih hfront]
        exact fun offset hoffset ↦ hlast offset hoffset c.offset (List.mem_singleton_self _)
      exact (SortedMap.keys_insert_of_forall_lt c hbelow).trans
        (congrArg (· ++ [c.offset]) (ih hfront))
    | fde f => exact (ih hfront).trans (List.append_nil _).symm

/-- An address is a key if it is the start of one of the entries. -/
theorem mem_keys_fdes_addAll (kind : FrameSection) (es : List FrameEntry) (start : UInt64) :
    start ∈ ((empty kind).addAll es).fdes.keys ↔ start ∈ es.filterMap start? := by
  induction es using List.reverseRecOn with
  | nil => rfl
  | append_singleton es e ih =>
    rw [addAll_concat, List.filterMap_append, List.mem_append, ← ih]
    cases e with
    | cie c => simp [add, insertCie, start?]
    | fde f =>
      change start ∈ (SortedMap.insert f.start f _).keys ↔ _
      rw [SortedMap.mem_keys_insert, or_comm]
      simp [start?]

/-- **One FDE a start.** -/
theorem size_fdes_addAll (kind : FrameSection) (es : List FrameEntry) :
    ((empty kind).addAll es).fdes.size = (es.filterMap start?).dedup.length := by
  have hperm : ((empty kind).addAll es).fdes.keys.Perm (es.filterMap start?).dedup := by
    refine (List.perm_ext_iff_of_nodup (SortedMap.nodup_keys _) (List.nodup_dedup _)).mpr ?_
    intro start
    rw [mem_keys_fdes_addAll, List.mem_dedup]
  rw [← hperm.length_eq, SortedMap.keys, List.length_map, SortedMap.length_entries]

/-- An FDE of the index is one of the entries. -/
theorem mem_of_mem_fdes_addAll {f : Fde} (h : f ∈ ((empty kind).addAll es).fdes.values) :
    .fde f ∈ es := by
  obtain ⟨e, he, rfl⟩ := List.mem_map.mp h
  have hfound : ((empty kind).addAll es).fde? e.1 = some e.2 := SortedMap.get?_eq_some_iff.mpr he
  rw [fde?_addAll, fde?_empty, Option.or_none] at hfound
  exact (mem_of_lastFde? hfound).1

end FrameIndex

/-! ## What pieces tell -/

namespace FrameSection

/-- The number that stands for "this is a CIE": zero in `.eh_frame`, and sixty-four ones in
`.debug_frame`. -/
def cieNumber : FrameSection → ℕ
  | ehFrame => 0
  | debugFrame => 2 ^ 64 - 1

theorem ofNat_eq_cieId_iff (kind : FrameSection) {n : ℕ} (hn : n < 2 ^ 64) :
    UInt64.ofNat n = kind.cieId ↔ n = kind.cieNumber := by
  have hnumber : kind.cieId.toNat = kind.cieNumber := by cases kind <;> rfl
  rw [← UInt64.toNat_inj, UInt64.toNat_ofNat_of_lt' hn, hnumber]

end FrameSection

namespace Piece

open Layout

variable {context : FrameContext} {bytes : List UInt8} {p : Piece} {m : Mark}

/-- The identifier at the front of a body, in eight bytes or in four as its length has them. Four
bytes of ones are as good as eight. -/
def identifier (bytes : List UInt8) (p : Piece) : Except Error ℕ :=
  if p.isWide then numberAt (bytes.take p.stop) 8 p.start
  else (numberAt (bytes.take p.stop) 4 p.start).map fun n ↦
    if n = 2 ^ 32 - 1 then 2 ^ 64 - 1 else n

/-- The mark of a piece: that of a length of zero, or that of a record if its identifier can be
read. -/
def mark? (context : FrameContext) (bytes : List UInt8) (p : Piece) : Option Mark :=
  if p.start = p.stop then some (.zeroLength p.offset)
  else match p.identifier bytes with
    | .ok id => some (.record p.offset (UInt64.ofNat id) (id = context.kind.cieNumber))
    | .error _ => none

theorem identifier_lt {n : ℕ} (h : p.identifier bytes = .ok n) : n < 2 ^ 64 := by
  rw [identifier] at h
  split at h
  · exact (numberAt_eq_ok h).2
  · cases hshort : numberAt (bytes.take p.stop) 4 p.start with
    | error e =>
      rw [hshort] at h
      cases h
    | ok stored =>
      have hlt : stored < 2 ^ 32 := (numberAt_eq_ok hshort).2
      rw [hshort] at h
      injection h with h
      dsimp only at h
      split at h <;> omega

/-- What begins with a number at the front of a record goes on with the number that stands there. -/
theorem bind_unsigned_record {α : Type} {width : UInt8} (hw : Read.isWidth width = true)
    (f : UInt64 → Read α) (bytes : List UInt8) (p : Piece) :
    (Read.unsigned width >>= f) (p.record bytes).body =
      numberAt (bytes.take p.stop) width.toNat p.start >>= fun n ↦
        f (UInt64.ofNat n) ((p.record bytes).body.drop width.toNat) := by
  have hread : Read.unsigned width (p.record bytes).body = _ :=
    unsigned_drop hw (bytes.take p.stop) p.start
  have hrest : (p.record bytes).body.drop width.toNat =
      ⟨p.start + width.toNat, (bytes.take p.stop).drop (p.start + width.toNat)⟩ :=
    congrArg (Span.mk _) List.drop_drop
  rw [hrest]
  cases hnumber : numberAt (bytes.take p.stop) width.toNat p.start with
  | error e =>
    rw [hnumber] at hread
    exact Read.bind_of_error hread f
  | ok n =>
    rw [hnumber] at hread
    exact Read.bind_of_ok hread f

/-- The identifier of a record is read from where it stands. -/
theorem readId_record (bytes : List UInt8) (p : Piece) :
    RawRecord.readId p.isWide (p.record bytes).body =
      (p.identifier bytes).map fun n ↦ (UInt64.ofNat n, (p.record bytes).afterId) := by
  rw [RawRecord.afterId, show (p.record bytes).isWide = p.isWide from rfl, identifier]
  cases p.isWide with
  | true =>
    refine (bind_unsigned_record Read.isWidth_eight _ bytes p).trans ?_
    rw [if_pos rfl]
    rfl
  | false =>
    refine (bind_unsigned_record Read.isWidth_four _ bytes p).trans ?_
    rw [if_neg Bool.false_ne_true]
    change numberAt (bytes.take p.stop) 4 p.start >>= _ = _
    cases hnumber : numberAt (bytes.take p.stop) 4 p.start with
    | error e => rfl
    | ok n =>
      have hlt : n < 2 ^ 32 := (numberAt_eq_ok hnumber).2
      have hones : UInt64.ofNat n = 0xffffffff ↔ n = 2 ^ 32 - 1 := by
        rw [← UInt64.toNat_inj, UInt64.toNat_ofNat_of_lt' (hlt.trans (by decide))]
        rfl
      change (pure _ : Read UInt64) _ = _
      simp only [Bool.not_false, Bool.true_and, decide_eq_true_eq, hones, Except.map]
      split <;> rfl

/-- Where the identifier of a record cannot be read, its bytes are cut off. -/
theorem identifier_eq_error {e : Error}
    (h : RawRecord.readId p.isWide (p.record bytes).body = .error e) :
    p.identifier bytes = .error e := by
  rw [readId_record] at h
  cases hid : p.identifier bytes with
  | error e' =>
    rw [hid] at h
    cases h
    rfl
  | ok n =>
    rw [hid] at h
    cases h

theorem mark?_of_isEmpty (h : p.isEmpty) : p.mark? context bytes = some (.zeroLength p.offset) :=
  if_pos (isEmpty_iff.mp h)

theorem mark?_of_not_isEmpty (h : ¬p.isEmpty) :
    p.mark? context bytes = (p.record bytes).mark? context := by
  have hread : RawRecord.readId (p.record bytes).isWide (p.record bytes).body = _ :=
    readId_record bytes p
  rw [mark?, if_neg fun hstop ↦ h (isEmpty_iff.mpr hstop), RawRecord.mark?, hread]
  cases hid : p.identifier bytes with
  | error e => rfl
  | ok n =>
    simp only [Except.map, FrameSection.ofNat_eq_cieId_iff _ (identifier_lt hid)]
    rfl

theorem offset_of_mark? (h : p.mark? context bytes = some m) : m.offset = p.offset := by
  rw [mark?] at h
  split at h
  · cases h
    rfl
  · split at h
    · cases h
      rfl
    · cases h

end Piece

namespace Layout.Tiles

/-- Pieces that lie end to end ascend. -/
theorem pairwise {pos stop : ℕ} {ps : List Piece} (h : Tiles pos ps stop) :
    ps.Pairwise fun p q ↦ p.offset < q.offset := by
  induction h with
  | nil pos => exact List.Pairwise.nil
  | cons hlt hle hrest ih =>
    refine List.pairwise_cons.mpr ⟨fun q hq ↦ ?_, ih⟩
    obtain ⟨hstop, -⟩ := hrest.le_of_mem hq
    omega

end Layout.Tiles

namespace FrameIndex

open FrameEntry

variable {context : FrameContext} {bytes : List UInt8} {p : Piece} {ps front back : List Piece}
  {index grown : FrameIndex} {e : Error}

/-- What is told while pieces are decoded in their order. -/
def narratePieces (context : FrameContext) (bytes : List UInt8) :
    List Piece → FrameIndex → List Event
  | [], _ => []
  | p :: ps, index =>
    if p.isEmpty then .frame (.zeroLength p.offset) :: narratePieces context bytes ps index
    else
      narration ((p.record bytes).decode context index) (p.record bytes).body ++
        match (p.record bytes).outcome context index with
        | .error _ => []
        | .ok grown => narratePieces context bytes ps grown

theorem narratePieces_of_isEmpty (h : p.isEmpty) :
    narratePieces context bytes (p :: ps) index =
      .frame (.zeroLength p.offset) :: narratePieces context bytes ps index := by
  rw [narratePieces, if_pos h]

theorem narratePieces_of_error (h : ¬p.isEmpty)
    (hr : (p.record bytes).outcome context index = .error e) :
    narratePieces context bytes (p :: ps) index =
      narration ((p.record bytes).decode context index) (p.record bytes).body := by
  rw [narratePieces, if_neg h, hr, List.append_nil]

theorem narratePieces_of_ok (h : ¬p.isEmpty)
    (hr : (p.record bytes).outcome context index = .ok grown) :
    narratePieces context bytes (p :: ps) index =
      narration ((p.record bytes).decode context index) (p.record bytes).body ++
        narratePieces context bytes ps grown := by
  rw [narratePieces, if_neg h, hr]

theorem narratePieces_append (h : decodePieces context bytes front index = (.ok (), grown)) :
    narratePieces context bytes (front ++ back) index =
      narratePieces context bytes front index ++ narratePieces context bytes back grown := by
  induction front generalizing index with
  | nil =>
    cases h
    rfl
  | cons p front ih =>
    by_cases hempty : p.isEmpty = true
    · rw [decodePieces_of_isEmpty hempty] at h
      rw [List.cons_append, narratePieces_of_isEmpty hempty, narratePieces_of_isEmpty hempty, ih h,
        List.cons_append]
    · cases hr : (p.record bytes).outcome context index with
      | error e =>
        rw [decodePieces_of_error hempty hr] at h
        cases h
      | ok next =>
        rw [decodePieces_of_ok hempty hr] at h
        rw [List.cons_append, narratePieces_of_ok hempty hr, narratePieces_of_ok hempty hr, ih h,
          List.append_assoc]

/-- What a pass tells, step by step. -/
theorem events_decodeFrom (context : FrameContext) (s : Span) (index : FrameIndex) :
    (index.decodeFrom context s).events =
      match Framing.next s with
      | .finished => []
      | .invalid _ => []
      | .zeroLength place rest =>
        .frame (.zeroLength place) ::
          match context.kind with
          | .ehFrame => (index.decodeFrom context rest).events
          | .debugFrame => []
      | .record r rest =>
        narration (r.decode context index) r.body ++
          match r.outcome context index with
          | .error _ => []
          | .ok grown => (grown.decodeFrom context rest).events := by
  rw [decodeFrom]
  split
  · rename_i h
    rw [h]
    rfl
  · rename_i h
    rw [h]
    rfl
  · rename_i h
    rw [h, Told.events_bind]
    cases context.kind <;> rfl
  · rename_i r rest h
    rw [h, Told.events_bind, events_runOn]
    simp only [RawRecord.outcome]
    cases ((r.decode context index).runOn r.body).run.value with
    | error cause => rfl
    | ok grown => rfl

/-- What is told of a section from a position on is told of its pieces from there. -/
theorem events_decodeFrom_drop (context : FrameContext) (bytes : List UInt8) (pos : ℕ)
    (index : FrameIndex) :
    (index.decodeFrom context ⟨pos, bytes.drop pos⟩).events =
      narratePieces context bytes (Layout.ofSectionFrom context.kind bytes pos).pieces index := by
  revert index
  refine Layout.ofSectionFrom_induction (motive := fun pos l ↦ ∀ index,
    (decodeFrom context ⟨pos, bytes.drop pos⟩ index).events =
      narratePieces context bytes l.pieces index) ?ends ?cut ?overrun ?stops ?piece pos
  case ends =>
    intro pos hge index
    have hnext : Framing.next ⟨pos, bytes.drop pos⟩ = .finished :=
      Framing.next_of_nil (List.drop_eq_nil_of_le hge)
    rw [events_decodeFrom, hnext]
    rfl
  case cut =>
    intro pos e hpos herror index
    rw [events_decodeFrom, Layout.next_drop_of_error hpos herror]
    rfl
  case overrun =>
    intro pos p hpos hok _ hlt index
    rw [events_decodeFrom, Layout.next_drop_of_overrun hpos hok hlt]
    rfl
  case stops =>
    intro pos p hpos hok hempty hkind index
    obtain ⟨hoffset, -⟩ := Layout.pieceAt_bounds hok
    have hnext := Layout.next_drop_of_ok hpos hok
    rw [if_pos hempty] at hnext
    rw [events_decodeFrom, hnext, narratePieces_of_isEmpty hempty, hoffset]
    simp only [hkind]
    rfl
  case piece =>
    intro pos p hpos hok hgoes hle ih index
    obtain ⟨hoffset, -⟩ := Layout.pieceAt_bounds hok
    have hnext := Layout.next_drop_of_ok hpos hok
    by_cases hempty : p.isEmpty = true
    · have hkind : context.kind = .ehFrame := by
        cases hkind : context.kind with
        | ehFrame => rfl
        | debugFrame => exact absurd ⟨hempty, hkind⟩ hgoes
      rw [if_pos hempty] at hnext
      rw [events_decodeFrom, hnext, Layout.behind, narratePieces_of_isEmpty hempty, hoffset, ← ih]
      simp only [hkind]
    · rw [if_neg hempty, if_pos hle] at hnext
      cases hr : (p.record bytes).outcome context index with
      | error e =>
        rw [events_decodeFrom, hnext, Layout.behind, narratePieces_of_error hempty hr]
        simp only [hr, List.append_nil]
      | ok grown =>
        rw [events_decodeFrom, hnext, Layout.behind, narratePieces_of_ok hempty hr, ← ih]
        simp only [hr]

/-- A pass tells what its pieces tell. -/
theorem events_decodeInto (context : FrameContext) (bytes : List UInt8) (index : FrameIndex) :
    (index.decodeInto context bytes).events =
      narratePieces context bytes (Layout.ofSection context.kind bytes).pieces index :=
  events_decodeFrom_drop context bytes 0 index

/-! ## Pieces that are decoded -/

/-- **Pieces that are decoded** add entries, and tell one line each: besides those of lengths of
zero, the lines of the entries. -/
theorem told_of_decodePieces (h : decodePieces context bytes ps index = (.ok (), grown)) :
    Event.marks (narratePieces context bytes ps index) = ps.filterMap (Piece.mark? context bytes) ∧
      ∃ es, grown = index.addAll es ∧
        AreTold es (ps.filterMap (Piece.mark? context bytes))
          (Event.starts (narratePieces context bytes ps index)) := by
  induction ps generalizing index with
  | nil =>
    cases h
    exact ⟨rfl, [], rfl, .nil⟩
  | cons p ps ih =>
    by_cases hempty : p.isEmpty = true
    · rw [decodePieces_of_isEmpty hempty] at h
      obtain ⟨hmarks, es, hgrown, htold⟩ := ih h
      rw [narratePieces_of_isEmpty hempty,
        List.filterMap_cons_some (Piece.mark?_of_isEmpty hempty)]
      exact ⟨congrArg _ hmarks, es, hgrown, htold.zeroLength p.offset⟩
    · cases hr : (p.record bytes).outcome context index with
      | error e =>
        rw [decodePieces_of_error hempty hr] at h
        cases h
      | ok next =>
        obtain ⟨entry, hentry, rfl⟩ := RawRecord.exists_entry_of_outcome hr
        rw [decodePieces_of_ok hempty hr] at h
        obtain ⟨hmarks, es, hgrown, htold⟩ := ih h
        obtain ⟨id, hmark⟩ := RawRecord.mark?_of_entry hentry
        have hoffset : entry.offset = p.offset := RawRecord.offset_of_entry hentry
        have hpiece : p.mark? context bytes = some (.record entry.offset id entry.isCie) := by
          rw [Piece.mark?_of_not_isEmpty hempty, hmark, hoffset]
          rfl
        rw [narratePieces_of_ok hempty hr, Event.marks_append, Event.starts_append,
          RawRecord.marks_decode, RawRecord.starts_decode hentry, hmarks,
          ← Piece.mark?_of_not_isEmpty hempty, hpiece, List.filterMap_cons_some hpiece]
        exact ⟨rfl, entry :: es, hgrown, htold.cons entry id⟩

/-! ## Lines that ascend -/

/-- The lines of pieces that lie end to end ascend. -/
theorem pairwise_offsets (context : FrameContext) (bytes : List UInt8) {pos stop : ℕ}
    (h : Layout.Tiles pos ps stop) :
    ((ps.filterMap (Piece.mark? context bytes)).map Mark.offset).Pairwise (· < ·) := by
  rw [List.pairwise_map, List.pairwise_filterMap]
  refine h.pairwise.imp fun hlt m hm n hn ↦ ?_
  rwa [Piece.offset_of_mark? hm, Piece.offset_of_mark? hn]

end FrameIndex

end ElfUnwind
