import ElfUnwind.Proofs.TwoStages

/-!
# What a failed pass leaves

A pass that fails leaves the index of the well-formed part of its section: decoding the bytes in
front of the record that failed succeeds and gives the same index, so the failing record left no
trace and none before it was lost. The failure names that record
(`FrameIndex.decodeInto_take_of_error`).
-/

namespace ElfUnwind

/-- The failure can be one of the record at `r`. Those of reads may lie further on, those of values
say nothing of a place. -/
def Error.Identifies (r : Nat) : Error → Prop
  | truncatedRead place _ => r ≤ place
  | recordOverrun place => place = r
  | unknownCie place _ => place = r
  | malformedAugmentation place _ => place = r
  | invalidPointerEncoding _ => True
  | unsupportedWidth _ => True
  | _ => False

theorem Error.InRecord.identifies {r offset : Nat} {e : Error} (h : e.InRecord r offset)
    (hle : r ≤ offset) : e.Identifies r := by
  cases e with
  | truncatedRead place length => exact Nat.le_trans hle h
  | unknownCie place cieOffset => exact h
  | malformedAugmentation place augmentation => exact h
  | invalidPointerEncoding byte => trivial
  | unsupportedWidth width => trivial
  | _ => exact absurd h id

namespace FrameIndex

variable {context : FrameContext} {bytes : List UInt8} {ps : List Piece} {index final : FrameIndex}
  {e : Error}

/-- What stands at `r` cannot be decoded into the index: it is no record, or its body is wrong. -/
def FailsAt (context : FrameContext) (bytes : List UInt8) (index : FrameIndex) (r : Nat)
    (e : Error) : Prop :=
  Framing.next ⟨r, bytes.drop r⟩ = .invalid e ∨
    ∃ record rest, Framing.next ⟨r, bytes.drop r⟩ = .record record rest ∧
      record.outcome context index = .error e

/-- Of pieces that fail one is the first to do so. -/
theorem exists_of_decodePieces_error (h : decodePieces context bytes ps index = (.error e, final)) :
    ∃ front p back, ps = front ++ p :: back ∧ ¬p.isEmpty ∧
      decodePieces context bytes front index = (.ok (), final) ∧
      (p.record bytes).outcome context final = .error e := by
  induction ps generalizing index with
  | nil => cases h
  | cons q ps ih =>
    by_cases hempty : q.isEmpty = true
    · rw [decodePieces_of_isEmpty hempty] at h
      obtain ⟨front, p, back, rfl, hp, hfront, hfails⟩ := ih h
      refine ⟨q :: front, p, back, rfl, hp, ?_, hfails⟩
      rw [decodePieces_of_isEmpty hempty, hfront]
    · cases hr : (q.record bytes).outcome context index with
      | error e' =>
        rw [decodePieces_of_error hempty hr] at h
        cases h
        exact ⟨[], q, ps, rfl, hempty, rfl, hr⟩
      | ok grown =>
        rw [decodePieces_of_ok hempty hr] at h
        obtain ⟨front, p, back, rfl, hp, hfront, hfails⟩ := ih h
        refine ⟨q :: front, p, back, rfl, hp, ?_, hfails⟩
        rw [decodePieces_of_ok hempty hr, hfront]

theorem decodeLayout_eq_error_iff {l : Layout} :
    decodeLayout context bytes l index = (.error e, final) ↔
      decodePieces context bytes l.pieces index = (.error e, final) ∨
        (decodePieces context bytes l.pieces index = (.ok (), final) ∧ l.ending = .error e) := by
  rw [decodeLayout]
  generalize decodePieces context bytes l.pieces index = result
  obtain ⟨_ | _, grown⟩ := result
  · simp
  · simp [and_comm]

/-- **A pass fails behind some pieces** that it has decoded, at what stands where they end. -/
theorem exists_failsAt (h : (index.decodeInto context bytes).value = (.error e, final)) :
    ∃ front back r, (Layout.ofSection context.kind bytes).pieces = front ++ back ∧
      Layout.Tiles 0 front r ∧ r < bytes.length ∧
      decodePieces context bytes front index = (.ok (), final) ∧
      FailsAt context bytes final r e ∧ e.Identifies r := by
  obtain ⟨stop, htiles, hstop, hends⟩ := Layout.tiles_ofSection context.kind bytes
  rw [value_decodeInto] at h
  rcases decodeLayout_eq_error_iff.mp h with hpieces | ⟨hpieces, hending⟩
  · -- A record of the section has a body that cannot be decoded.
    obtain ⟨front, p, back, heq, hempty, hfront, hfails⟩ := exists_of_decodePieces_error hpieces
    rw [heq] at htiles
    obtain ⟨r, hfrontTiles, -⟩ := htiles.of_append
    obtain ⟨hr, hpiece, hcase⟩ :=
      Layout.of_pieces_eq_cons (Layout.pieces_of_append heq hfrontTiles)
    obtain ⟨hoffset, hstart, -, -⟩ := Layout.pieceAt_bounds hpiece
    have hle : p.stop ≤ bytes.length := by
      rcases hcase with ⟨hzero, -, -⟩ | ⟨-, hle, -⟩
      · exact absurd hzero hempty
      · exact hle
    have hnext := Layout.next_drop_of_ok hr hpiece
    rw [if_neg hempty, if_pos hle] at hnext
    have hin := RawRecord.inRecord_of_outcome hfails
    rw [show (p.record bytes).offset = r from hoffset] at hin
    have hbehind : r ≤ (p.record bytes).body.offset := (Nat.le_add_right r 4).trans hstart
    exact ⟨front, p :: back, r, heq, hfrontTiles, hr, hfront,
      Or.inr ⟨_, _, hnext, hfails⟩, hin.identifies hbehind⟩
  · -- All records are decoded, and what follows them is none.
    rw [hending] at hends
    rcases hends with _ | _ | ⟨hlt, hpiece⟩ | ⟨hlt, hpiece, hover⟩
    · have hnext := Layout.next_drop_of_error hlt hpiece
      obtain ⟨place, width, rfl, hplace⟩ := Layout.pieceAt_eq_error hpiece
      exact ⟨_, [], stop, (List.append_nil _).symm, htiles, hlt, hpieces, Or.inl hnext, hplace⟩
    · have hnext := Layout.next_drop_of_overrun hlt hpiece hover
      exact ⟨_, [], stop, (List.append_nil _).symm, htiles, hlt, hpieces, Or.inl hnext, rfl⟩

/-- **A failed pass leaves the index of the well-formed part.** -/
theorem decodeInto_take_of_error (h : (index.decodeInto context bytes).value.1 = .error e) :
    ∃ r, r < bytes.length ∧
      FailsAt context bytes (index.decodeInto context bytes).value.2 r e ∧ e.Identifies r ∧
      (index.decodeInto context (bytes.take r)).value =
        (.ok (), (index.decodeInto context bytes).value.2) := by
  have hvalue : (index.decodeInto context bytes).value =
      (.error e, (index.decodeInto context bytes).value.2) := Prod.ext h rfl
  obtain ⟨front, back, r, heq, htiles, hr, hfront, hfails, hidentifies⟩ := exists_failsAt hvalue
  refine ⟨r, hr, hfails, hidentifies, ?_⟩
  rw [decodeInto_take heq htiles (Nat.le_of_lt hr), hfront]

/-- A CIE of `.eh_frame`, and behind it an FDE that refers to an offset at which there is none. -/
def damaged : List UInt8 :=
  [9, 0, 0, 0, 0, 0, 0, 0, 1, 0, 1, 0x78, 16, 4, 0, 0, 0, 9, 0, 0, 0]

theorem decodeInto_take_of_error_damaged :
    ((empty .ehFrame).decodeInto ⟨.ehFrame, 0, 8⟩ damaged).value.1 =
        .error (.unknownCie 13 8) ∧
      ∃ r, r < damaged.length ∧
        FailsAt ⟨.ehFrame, 0, 8⟩ damaged
          ((empty .ehFrame).decodeInto ⟨.ehFrame, 0, 8⟩ damaged).value.2 r (.unknownCie 13 8) ∧
        (Error.unknownCie 13 8).Identifies r ∧
        ((empty .ehFrame).decodeInto ⟨.ehFrame, 0, 8⟩ (damaged.take r)).value =
          (.ok (), ((empty .ehFrame).decodeInto ⟨.ehFrame, 0, 8⟩ damaged).value.2) := by
  have hfails : ((empty .ehFrame).decodeInto ⟨.ehFrame, 0, 8⟩ damaged).value.1 =
      .error (.unknownCie 13 8) := by cbv
  exact ⟨hfails, decodeInto_take_of_error hfails⟩

end FrameIndex

end ElfUnwind
