import ElfUnwind.Proofs.SectionLayout

/-!
# Decoding in two stages

A pass over a section reads lengths and decodes bodies in turns. It does the same as splitting the
section by its length fields first and decoding the bodies afterwards, each from the bytes before
its own end (`FrameIndex.value_decodeInto`). A record's content therefore cannot move what follows
it, and nothing behind a record can change what it is decoded to.
-/

namespace ElfUnwind

/-! ## Splitting at a position -/

namespace Layout

variable {bytes : List UInt8} {pos : Nat} {p : Piece}

theorem unsigned_drop {width : UInt8} (hw : Read.isWidth width = true) (bytes : List UInt8)
    (pos : Nat) :
    Read.unsigned width ⟨pos, bytes.drop pos⟩ =
      (numberAt bytes width.toNat pos).map fun n ↦
        (UInt64.ofNat n, ⟨pos + width.toNat, bytes.drop (pos + width.toNat)⟩) := by
  have hpos := Read.isWidth_pos hw
  have hlen : (⟨pos, bytes.drop pos⟩ : Span).bytes.length = bytes.length - pos := List.length_drop
  rw [Read.unsigned, if_pos hw, numberAt]
  by_cases hle : pos + width.toNat ≤ bytes.length
  · have hread : Read.bytes width.toNat ⟨pos, bytes.drop pos⟩ = _ := Read.bytes_of_le (by omega)
    rw [if_pos hle, Read.bind_of_ok hread, Span.drop, List.drop_drop]
    rfl
  · have hread : Read.bytes width.toNat ⟨pos, bytes.drop pos⟩ = _ := Read.bytes_of_gt (by omega)
    rw [if_neg hle, Read.bind_of_error hread]
    rfl

/-- The length field at a position announces the piece there. -/
theorem lengthField_drop (bytes : List UInt8) (pos : Nat) :
    Framing.lengthField ⟨pos, bytes.drop pos⟩ = (pieceAt bytes pos).map fun p ↦
      ((UInt64.ofNat (p.stop - p.start), p.isWide), ⟨p.start, bytes.drop p.start⟩) := by
  have hshort : Read.unsigned 4 ⟨pos, bytes.drop pos⟩ = (numberAt bytes 4 pos).map fun n ↦
    (UInt64.ofNat n, ⟨pos + 4, bytes.drop (pos + 4)⟩) := unsigned_drop Read.isWidth_four bytes pos
  have hlong : Read.unsigned 8 ⟨pos + 4, bytes.drop (pos + 4)⟩ =
    (numberAt bytes 8 (pos + 4)).map fun n ↦ (UInt64.ofNat n, ⟨pos + 12, bytes.drop (pos + 12)⟩) :=
      unsigned_drop Read.isWidth_eight bytes (pos + 4)
  rw [Framing.lengthField, pieceAt]
  cases hn : numberAt bytes 4 pos with
  | error e =>
    rw [hn] at hshort
    rw [Read.bind_of_error hshort]
    rfl
  | ok n =>
    rw [hn] at hshort
    rw [Read.bind_of_ok hshort]
    by_cases hescape : n = 0xffffffff
    · subst hescape
      rw [if_pos (by decide)]
      dsimp only
      rw [if_pos rfl]
      cases hnumber : numberAt bytes 8 (pos + 4) with
      | error e =>
        rw [hnumber] at hlong
        rw [Read.bind_of_error hlong]
        rfl
      | ok long =>
        rw [hnumber] at hlong
        rw [Read.bind_of_ok hlong]
        simp only [Except.map, Nat.add_sub_cancel_left]
        rfl
    · have hne : UInt64.ofNat n ≠ Framing.escape := by
        intro heq
        obtain ⟨-, hlt⟩ := numberAt_eq_ok hn
        have hsmall : n < 2 ^ 64 := Nat.lt_trans hlt (by decide)
        have htoNat := congrArg UInt64.toNat heq
        rw [UInt64.toNat_ofNat_of_lt' hsmall] at htoNat
        exact hescape htoNat
      rw [if_neg hne]
      dsimp only
      rw [if_neg hescape]
      simp only [Except.map, Nat.add_sub_cancel_left]
      rfl

/-- Splitting off at a position is splitting off the piece there. -/
theorem next_drop_of_error {e : Error} (hpos : pos < bytes.length)
    (h : pieceAt bytes pos = .error e) : Framing.next ⟨pos, bytes.drop pos⟩ = .invalid e := by
  have hne : bytes.drop pos ≠ [] := by
    rw [Ne, List.drop_eq_nil_iff]
    omega
  refine Framing.next_of_error hne ?_
  rw [lengthField_drop, h]
  rfl

theorem next_drop_of_ok (hpos : pos < bytes.length) (h : pieceAt bytes pos = .ok p) :
    Framing.next ⟨pos, bytes.drop pos⟩ =
      if p.isEmpty then .zeroLength pos ⟨p.stop, bytes.drop p.stop⟩
      else if p.stop ≤ bytes.length then .record (p.record bytes) ⟨p.stop, bytes.drop p.stop⟩
      else .invalid (.recordOverrun pos) := by
  obtain ⟨hoffset, -, hle, hstart⟩ := pieceAt_bounds h
  have hne : ¬(bytes.drop pos).isEmpty = true := by
    rw [List.isEmpty_iff, List.drop_eq_nil_iff]
    omega
  have hlength : (UInt64.ofNat (p.stop - p.start)).toNat = p.stop - p.start :=
    UInt64.toNat_ofNat_of_lt' (length_lt_of_pieceAt h)
  rw [Framing.next, if_neg hne, lengthField_drop, h]
  simp only [Except.map]
  by_cases hempty : p.isEmpty = true
  · have heq := Piece.isEmpty_iff.mp hempty
    have hzero : UInt64.ofNat (p.stop - p.start) = 0 := by
      rw [heq, Nat.sub_self]
      rfl
    rw [if_pos hzero, if_pos hempty, heq]
  · have hzero : UInt64.ofNat (p.stop - p.start) ≠ 0 := by
      intro heq
      have hsub := congrArg UInt64.toNat heq
      rw [hlength, UInt64.toNat_zero] at hsub
      exact hempty (Piece.isEmpty_iff.mpr (by omega))
    rw [if_neg hzero, if_neg hempty, hlength]
    simp only [Span.take, Span.drop, List.length_take, List.length_drop, List.drop_drop]
    rw [show p.start + (p.stop - p.start) = p.stop by omega]
    by_cases hstop : p.stop ≤ bytes.length
    · rw [if_pos (by omega), if_pos hstop, Piece.record, Piece.body, List.drop_take, hoffset]
    · rw [if_neg (by omega), if_neg hstop]

theorem next_drop_of_overrun (hpos : pos < bytes.length) (h : pieceAt bytes pos = .ok p)
    (hlt : bytes.length < p.stop) :
    Framing.next ⟨pos, bytes.drop pos⟩ = .invalid (.recordOverrun pos) := by
  obtain ⟨-, -, -, hstart⟩ := pieceAt_bounds h
  have hempty : ¬p.isEmpty = true := by
    rw [Piece.isEmpty_iff]
    omega
  rw [next_drop_of_ok hpos h, if_neg hempty, if_neg (Nat.not_le.mpr hlt)]

end Layout

/-! ## The second stage -/

namespace FrameIndex

variable {context : FrameContext} {bytes : List UInt8} {pos : Nat} {p : Piece} {ps : List Piece}
  {index grown : FrameIndex} {e : Error}

/-- Decodes pieces in their order, each from its own bytes. A length of zero is passed over, and
the first failure ends it. -/
def decodePieces (context : FrameContext) (bytes : List UInt8) :
    List Piece → FrameIndex → Except Error Unit × FrameIndex
  | [], index => (.ok (), index)
  | p :: ps, index =>
    if p.isEmpty then decodePieces context bytes ps index
    else
      match (p.record bytes).outcome context index with
      | .error e => (.error e, index)
      | .ok grown => decodePieces context bytes ps grown

/-- Decodes the pieces of a layout; only then it matters how they end. -/
def decodeLayout (context : FrameContext) (bytes : List UInt8) (l : Layout) (index : FrameIndex) :
    Except Error Unit × FrameIndex :=
  match decodePieces context bytes l.pieces index with
  | (.error e, grown) => (.error e, grown)
  | (.ok (), grown) => (l.ending, grown)

theorem decodePieces_of_isEmpty (h : p.isEmpty) :
    decodePieces context bytes (p :: ps) index = decodePieces context bytes ps index := by
  rw [decodePieces, if_pos h]

theorem decodePieces_of_error (h : ¬p.isEmpty)
    (hr : (p.record bytes).outcome context index = .error e) :
    decodePieces context bytes (p :: ps) index = (.error e, index) := by
  rw [decodePieces, if_neg h, hr]

theorem decodePieces_of_ok (h : ¬p.isEmpty)
    (hr : (p.record bytes).outcome context index = .ok grown) :
    decodePieces context bytes (p :: ps) index = decodePieces context bytes ps grown := by
  rw [decodePieces, if_neg h, hr]

theorem decodePieces_append {front back : List Piece}
    (h : decodePieces context bytes front index = (.ok (), grown)) :
    decodePieces context bytes (front ++ back) index = decodePieces context bytes back grown := by
  induction front generalizing index with
  | nil =>
    cases h
    rfl
  | cons p front ih =>
    by_cases hempty : p.isEmpty = true
    · rw [decodePieces_of_isEmpty hempty] at h
      rw [List.cons_append, decodePieces_of_isEmpty hempty, ih h]
    · cases hr : (p.record bytes).outcome context index with
      | error e =>
        rw [decodePieces_of_error hempty hr] at h
        cases h
      | ok next =>
        rw [decodePieces_of_ok hempty hr] at h
        rw [List.cons_append, decodePieces_of_ok hempty hr, ih h]

/-- **What every record keeps, a run over pieces keeps**, also where a record fails. -/
theorem decodePieces_keeps {motive : FrameIndex → Prop}
    (hstep : ∀ p ∈ ps, ∀ index grown, (p.record bytes).outcome context index = .ok grown →
      motive index → motive grown) (h : motive index) :
    motive (decodePieces context bytes ps index).2 := by
  induction ps generalizing index with
  | nil => exact h
  | cons p ps ih =>
    have hrest := fun q hq ↦ hstep q (List.mem_cons_of_mem p hq)
    by_cases hempty : p.isEmpty = true
    · rw [decodePieces_of_isEmpty hempty]
      exact ih hrest h
    · cases hr : (p.record bytes).outcome context index with
      | error e =>
        rw [decodePieces_of_error hempty hr]
        exact h
      | ok grown =>
        rw [decodePieces_of_ok hempty hr]
        exact ih hrest (hstep p List.mem_cons_self index grown hr h)

/-- Going through a section from a position is decoding its layout from there. -/
theorem value_decodeFrom_drop (context : FrameContext) (bytes : List UInt8) (pos : Nat)
    (index : FrameIndex) :
    (index.decodeFrom context ⟨pos, bytes.drop pos⟩).value =
      decodeLayout context bytes (Layout.ofSectionFrom context.kind bytes pos) index := by
  revert index
  refine Layout.ofSectionFrom_induction (motive := fun pos l ↦ ∀ index,
    (decodeFrom context ⟨pos, bytes.drop pos⟩ index).value = decodeLayout context bytes l index)
    ?ends ?cut ?overrun ?stops ?piece pos
  case ends =>
    intro pos hge index
    exact decodeFrom_finished index (Framing.next_of_nil (List.drop_eq_nil_of_le hge))
  case cut =>
    intro pos e hpos herror index
    exact decodeFrom_invalid index (Layout.next_drop_of_error hpos herror)
  case overrun =>
    intro pos p hpos hok _ hlt index
    exact decodeFrom_invalid index (Layout.next_drop_of_overrun hpos hok hlt)
  case stops =>
    intro pos p hpos hok hempty hkind index
    have hnext := Layout.next_drop_of_ok hpos hok
    rw [if_pos hempty] at hnext
    rw [value_decodeFrom, hnext, decodeLayout, decodePieces_of_isEmpty hempty]
    simp only [hkind]
    rfl
  case piece =>
    intro pos p hpos hok hgoes hle ih index
    have hnext := Layout.next_drop_of_ok hpos hok
    by_cases hempty : p.isEmpty = true
    · have hkind : context.kind = .ehFrame := by
        cases hkind : context.kind with
        | ehFrame => rfl
        | debugFrame => exact absurd ⟨hempty, hkind⟩ hgoes
      rw [if_pos hempty] at hnext
      rw [decodeFrom_zeroLength index hnext hkind, ih, decodeLayout, decodeLayout, Layout.behind,
        decodePieces_of_isEmpty hempty]
    · rw [if_neg hempty, if_pos hle] at hnext
      cases hr : (p.record bytes).outcome context index with
      | error e =>
        rw [value_decodeFrom, hnext, decodeLayout, Layout.behind, decodePieces_of_error hempty hr]
        simp only [hr]
      | ok grown =>
        rw [decodeFrom_record hnext hr, ih, decodeLayout, decodeLayout, Layout.behind,
          decodePieces_of_ok hempty hr]

/-- A pass is decoding the layout of its section. -/
theorem value_decodeInto (context : FrameContext) (bytes : List UInt8) (index : FrameIndex) :
    (index.decodeInto context bytes).value =
      decodeLayout context bytes (Layout.ofSection context.kind bytes) index :=
  value_decodeFrom_drop context bytes 0 index

/-! ## Cutting behind a record -/

/-- Pieces are decoded the same where the section is cut behind them. -/
theorem decodePieces_take {stop : Nat} (h : ∀ p ∈ ps, p.stop ≤ stop) (index : FrameIndex) :
    decodePieces context (bytes.take stop) ps index = decodePieces context bytes ps index := by
  induction ps generalizing index with
  | nil => rfl
  | cons p ps ih =>
    have hps : ∀ q ∈ ps, q.stop ≤ stop := fun q hq ↦ h q (List.mem_cons_of_mem p hq)
    have hbody : p.record (bytes.take stop) = p.record bytes := by
      rw [Piece.record, Piece.record, Piece.body, Piece.body, List.take_take,
        Nat.min_eq_left (h p List.mem_cons_self)]
    rw [decodePieces, decodePieces, hbody, ih hps]
    simp only [ih hps]

/-- **Nothing behind a record matters to it**: decoding a section that is cut where some of its
pieces end does just what these do in the whole section. -/
theorem decodeInto_take {front back : List Piece} {stop : Nat}
    (h : (Layout.ofSection context.kind bytes).pieces = front ++ back)
    (htiles : Layout.Tiles 0 front stop) (hstop : stop ≤ bytes.length) (index : FrameIndex) :
    (index.decodeInto context (bytes.take stop)).value =
      decodePieces context bytes front index := by
  rw [value_decodeInto, Layout.ofSection, Layout.ofSectionFrom_take h htiles hstop, decodeLayout,
    decodePieces_take fun p hp ↦ (htiles.le_of_mem hp).2.2.2]
  generalize decodePieces context bytes front index = final
  obtain ⟨_ | _, grown⟩ := final <;> rfl

/-! ## Where entries come from -/

/-- An entry that was not there before is that of a record among the pieces, and its instructions
are the end of the body of that record. -/
structure GrowsFrom (bytes : List UInt8) (ps : List Piece) (index final : FrameIndex) : Prop where
  /-- The CIEs. -/
  cies : ∀ offset cie, final.cie? offset = some cie → index.cie? offset = some cie ∨
    ∃ p ∈ ps, ¬p.isEmpty ∧ offset = p.offset ∧ cie.offset = p.offset ∧
      cie.instructions <:+ p.body bytes
  /-- The FDEs. -/
  fdes : ∀ start fde, final.fde? start = some fde → index.fde? start = some fde ∨
    ∃ p ∈ ps, ¬p.isEmpty ∧ start = fde.start ∧ fde.offset = p.offset ∧
      fde.instructions <:+ p.body bytes

theorem GrowsFrom.refl (bytes : List UInt8) (ps : List Piece) (index : FrameIndex) :
    GrowsFrom bytes ps index index where
  cies _ _ h := Or.inl h
  fdes _ _ h := Or.inl h

theorem GrowsFrom.cons {final : FrameIndex} (h : GrowsFrom bytes ps index final) (p : Piece) :
    GrowsFrom bytes (p :: ps) index final where
  cies := by
    intro offset cie hcie
    rcases h.cies offset cie hcie with hold | ⟨q, hq, hrest⟩
    · exact Or.inl hold
    · exact Or.inr ⟨q, List.mem_cons_of_mem p hq, hrest⟩
  fdes := by
    intro start fde hfde
    rcases h.fdes start fde hfde with hold | ⟨q, hq, hrest⟩
    · exact Or.inl hold
    · exact Or.inr ⟨q, List.mem_cons_of_mem p hq, hrest⟩

/-- The entry of one record more. -/
theorem GrowsFrom.cons_of_outcome {final : FrameIndex} (h : GrowsFrom bytes ps grown final)
    (hempty : ¬p.isEmpty) (hr : (p.record bytes).outcome context index = .ok grown) :
    GrowsFrom bytes (p :: ps) index final where
  cies := by
    intro offset cie hcie
    rcases (h.cons p).cies offset cie hcie with hgrown | hpiece
    · rcases RawRecord.added_of_outcome hr with ⟨c, hc, hsuffix, rfl⟩ | ⟨f, -, -, rfl⟩
      · by_cases hoffset : offset = c.offset
        · subst hoffset
          rw [cie?_insertCie_self] at hgrown
          injection hgrown with hgrown
          subst hgrown
          exact Or.inr ⟨p, List.mem_cons_self, hempty, hc, hc, hsuffix⟩
        · rw [cie?_insertCie_of_ne hoffset] at hgrown
          exact Or.inl hgrown
      · exact Or.inl hgrown
    · exact Or.inr hpiece
  fdes := by
    intro start fde hfde
    rcases (h.cons p).fdes start fde hfde with hgrown | hpiece
    · rcases RawRecord.added_of_outcome hr with ⟨c, -, -, rfl⟩ | ⟨f, hf, hsuffix, rfl⟩
      · exact Or.inl hgrown
      · by_cases hstart : start = f.start
        · subst hstart
          rw [fde?_insertFde_self] at hgrown
          injection hgrown with hgrown
          subst hgrown
          exact Or.inr ⟨p, List.mem_cons_self, hempty, rfl, hf, hsuffix⟩
        · rw [fde?_insertFde_of_ne hstart] at hgrown
          exact Or.inl hgrown
    · exact Or.inr hpiece

theorem growsFrom_decodePieces (context : FrameContext) (bytes : List UInt8) (ps : List Piece)
    (index : FrameIndex) : GrowsFrom bytes ps index (decodePieces context bytes ps index).2 := by
  induction ps generalizing index with
  | nil => exact GrowsFrom.refl bytes [] index
  | cons p ps ih =>
    by_cases hempty : p.isEmpty = true
    · rw [decodePieces_of_isEmpty hempty]
      exact (ih index).cons p
    · cases hr : (p.record bytes).outcome context index with
      | error e =>
        rw [decodePieces_of_error hempty hr]
        exact GrowsFrom.refl bytes (p :: ps) index
      | ok grown =>
        rw [decodePieces_of_ok hempty hr]
        exact (ih grown).cons_of_outcome hempty hr

/-- Decoding says nothing about whether all records were decoded. -/
theorem isComplete_decodePieces (context : FrameContext) (bytes : List UInt8) (ps : List Piece)
    (index : FrameIndex) :
    (decodePieces context bytes ps index).2.isComplete = index.isComplete := by
  refine decodePieces_keeps (motive := fun final ↦ final.isComplete = index.isComplete) ?_ rfl
  intro p _ before grown hr hbefore
  rcases RawRecord.added_of_outcome hr with ⟨cie, -, -, rfl⟩ | ⟨fde, -, -, rfl⟩
  · exact hbefore
  · exact hbefore

theorem decodeLayout_snd (context : FrameContext) (bytes : List UInt8) (l : Layout)
    (index : FrameIndex) : (decodeLayout context bytes l index).2 =
      (decodePieces context bytes l.pieces index).2 := by
  rw [decodeLayout]
  generalize decodePieces context bytes l.pieces index = final
  obtain ⟨_ | _, grown⟩ := final <;> rfl

theorem isComplete_decodeInto (context : FrameContext) (bytes : List UInt8) (index : FrameIndex) :
    (index.decodeInto context bytes).value.2.isComplete = index.isComplete := by
  rw [value_decodeInto, decodeLayout_snd, isComplete_decodePieces]

/-- **A pass is two stages.** Its outcome is that of splitting the section by its length fields and
then decoding the pieces. The pieces lie end to end up to where nothing more can be split off, and
no byte of a body has an influence on them. What some pieces in front are decoded to is settled by
the bytes up to their end, and the instructions of an entry are the end of its record. -/
theorem decodeInto_twoStages (context : FrameContext) (bytes : List UInt8) (index : FrameIndex) :
    (index.decodeInto context bytes).value =
        decodeLayout context bytes (Layout.ofSection context.kind bytes) index ∧
      (∃ stop, Layout.Tiles 0 (Layout.ofSection context.kind bytes).pieces stop ∧
        stop ≤ bytes.length ∧
        Layout.EndsAt context.kind bytes (Layout.ofSection context.kind bytes).pieces stop
          (Layout.ofSection context.kind bytes).ending) ∧
      (∀ other : List UInt8, other.length = bytes.length →
        (∀ i, (∀ p ∈ (Layout.ofSection context.kind bytes).pieces, ¬(p.start ≤ i ∧ i < p.stop)) →
          other[i]? = bytes[i]?) →
        Layout.ofSection context.kind other = Layout.ofSection context.kind bytes) ∧
      (∀ front back, (Layout.ofSection context.kind bytes).pieces = front ++ back →
        ∃ stop, Layout.Tiles 0 front stop ∧
          (index.decodeInto context (bytes.take stop)).value =
            decodePieces context bytes front index) ∧
      GrowsFrom bytes (Layout.ofSection context.kind bytes).pieces index
        (index.decodeInto context bytes).value.2 := by
  have hvalue : (index.decodeInto context bytes).value =
      decodeLayout context bytes (Layout.ofSection context.kind bytes) index :=
    value_decodeFrom_drop context bytes 0 index
  have htiles := Layout.tiles_ofSectionFrom context.kind (Nat.zero_le bytes.length)
  refine ⟨hvalue, htiles, ?_, ?_, ?_⟩
  · intro other hlen hagree
    exact Layout.ofSectionFrom_congr hlen 0 fun i _ hout ↦ hagree i hout
  · intro front back hpieces
    obtain ⟨stop, hall, hstop, -⟩ := htiles
    rw [← Layout.ofSection, hpieces] at hall
    obtain ⟨middle, hfront, hback⟩ := hall.of_append
    exact ⟨middle, hfront, decodeInto_take hpieces hfront (hback.le.trans hstop) index⟩
  · rw [hvalue, decodeLayout_snd]
    exact growsFrom_decodePieces context bytes _ index

end FrameIndex

end ElfUnwind
