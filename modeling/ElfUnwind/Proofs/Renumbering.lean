import ElfUnwind.Proofs.BackReferences
import ElfUnwind.Proofs.RecordRoundTrip

/-!
# The same records in the other section

The two sections differ in the identifiers of their records alone. A section of `.eh_frame` without
lengths of zero, with the identifiers replaced in place by those of `.debug_frame`, is decoded to
the same entries (`FrameIndex.decodeInto_renumber`).

## Why offsets are bounded

A short identifier of all ones means a CIE, so an FDE cannot refer to the offset `0xffffffff` in the
short form. Below it every offset fits both forms and is that of no CIE.
-/

namespace ElfUnwind

open BodyDecoder

/-! ## Replacing a field -/

/-- The bytes with a field in place of those that stand at `pos`. -/
def overwrite (bytes : List UInt8) (pos : Nat) (field : List UInt8) : List UInt8 :=
  bytes.take pos ++ field ++ bytes.drop (pos + field.length)

section Overwrite

variable {bytes field : List UInt8} {pos i : Nat}

theorem length_overwrite (h : pos + field.length ≤ bytes.length) :
    (overwrite bytes pos field).length = bytes.length := by
  simp only [overwrite, List.length_append, List.length_take, List.length_drop]
  omega

/-- Where the field begins it stands in front of what was behind its place. -/
theorem drop_overwrite (h : pos ≤ bytes.length) :
    (overwrite bytes pos field).drop pos = field ++ bytes.drop (pos + field.length) := by
  have hlen : (bytes.take pos).length = pos := by rw [List.length_take, Nat.min_eq_left h]
  rw [overwrite, List.append_assoc, List.drop_append_of_le_length (Nat.le_of_eq hlen.symm),
    List.drop_of_length_le (Nat.le_of_eq hlen), List.nil_append]

/-- Outside the field nothing changes. -/
theorem getElem?_overwrite_of_outside (h : pos + field.length ≤ bytes.length)
    (hi : ¬(pos ≤ i ∧ i < pos + field.length)) :
    (overwrite bytes pos field)[i]? = bytes[i]? := by
  have hlen : (bytes.take pos).length = pos := by
    rw [List.length_take, Nat.min_eq_left (by omega)]
  rw [overwrite, List.append_assoc]
  by_cases hlt : i < pos
  · rw [List.getElem?_append_left (by omega), List.getElem?_take_of_lt hlt]
  · rw [List.getElem?_append_right (by omega), List.getElem?_append_right (by omega),
      List.getElem?_drop, hlen]
    congr 1
    omega

end Overwrite

/-! ## Replacing a field of every record -/

namespace Piece

variable {bytes other field : List UInt8} {p : Piece}

theorem length_body (h : p.stop ≤ bytes.length) : (p.body bytes).length = p.stop - p.start := by
  rw [body, List.length_drop, List.length_take, Nat.min_eq_left h]

/-- A body is its own bytes. -/
theorem body_congr (h : ∀ i, p.start ≤ i → i < p.stop → other[i]? = bytes[i]?) :
    p.body other = p.body bytes := by
  apply List.ext_getElem?
  intro j
  rw [body, body, List.getElem?_drop, List.getElem?_drop]
  by_cases hj : p.start + j < p.stop
  · rw [List.getElem?_take_of_lt hj, List.getElem?_take_of_lt hj,
      h _ (Nat.le_add_right _ _) hj]
  · rw [List.getElem?_take, List.getElem?_take, if_neg hj, if_neg hj]

theorem body_overwrite (hfield : p.start + field.length ≤ p.stop) (hstop : p.stop ≤ bytes.length) :
    p.body (overwrite bytes p.start field) = field ++ (p.body bytes).drop field.length := by
  rw [body, body, List.drop_take, drop_overwrite (by omega), List.drop_take, List.drop_take,
    List.take_append, List.take_of_length_le (by omega), List.drop_drop]

end Piece

namespace Layout

variable {bytes : List UInt8} {field : Piece → List UInt8} {ps : List Piece} {p : Piece}
  {pos stop i : Nat}

/-- The bytes with a field in place of the front of the body of every piece. -/
def replaceFronts (field : Piece → List UInt8) (ps : List Piece) (bytes : List UInt8) :
    List UInt8 :=
  ps.foldl (fun out p ↦ overwrite out p.start (field p)) bytes

theorem replaceFronts_cons (p : Piece) (ps : List Piece) :
    replaceFronts field (p :: ps) bytes =
      replaceFronts field ps (overwrite bytes p.start (field p)) := rfl

theorem length_replaceFronts (hstop : ∀ p ∈ ps, p.stop ≤ bytes.length)
    (hfield : ∀ p ∈ ps, p.start + (field p).length ≤ p.stop) :
    (replaceFronts field ps bytes).length = bytes.length := by
  induction ps generalizing bytes with
  | nil => rfl
  | cons p ps ih =>
    have hlen : (overwrite bytes p.start (field p)).length = bytes.length :=
      length_overwrite ((hfield p List.mem_cons_self).trans (hstop p List.mem_cons_self))
    rw [replaceFronts_cons, ← hlen]
    refine ih (fun q hq ↦ ?_) fun q hq ↦ hfield q (List.mem_cons_of_mem p hq)
    rw [hlen]
    exact hstop q (List.mem_cons_of_mem p hq)

/-- Outside the fields nothing changes. -/
theorem getElem?_replaceFronts (hstop : ∀ p ∈ ps, p.stop ≤ bytes.length)
    (hfield : ∀ p ∈ ps, p.start + (field p).length ≤ p.stop)
    (hi : ∀ p ∈ ps, ¬(p.start ≤ i ∧ i < p.stop)) :
    (replaceFronts field ps bytes)[i]? = bytes[i]? := by
  induction ps generalizing bytes with
  | nil => rfl
  | cons p ps ih =>
    have hfieldHead := hfield p List.mem_cons_self
    have hle := hfieldHead.trans (hstop p List.mem_cons_self)
    have hout := hi p List.mem_cons_self
    rw [replaceFronts_cons, ← getElem?_overwrite_of_outside hle (i := i) (by omega)]
    refine ih (fun q hq ↦ ?_) (fun q hq ↦ hfield q (List.mem_cons_of_mem p hq))
      fun q hq ↦ hi q (List.mem_cons_of_mem p hq)
    rw [length_overwrite hle]
    exact hstop q (List.mem_cons_of_mem p hq)

/-- **Every body gets its own field**, since no other reaches into it. -/
theorem body_replaceFronts (htiles : Tiles pos ps stop) (hstop : stop ≤ bytes.length)
    (hfield : ∀ p ∈ ps, p.start + (field p).length ≤ p.stop) (hp : p ∈ ps) :
    p.body (replaceFronts field ps bytes) = field p ++ (p.body bytes).drop (field p).length := by
  induction htiles generalizing bytes with
  | nil pos => exact absurd hp List.not_mem_nil
  | @cons q ps stop hlt hle htiles ih =>
    have hbehind : ∀ r ∈ ps, q.stop < r.start := by
      intro r hr
      obtain ⟨hoffset, hstart, -⟩ := htiles.le_of_mem hr
      omega
    have hqField := hfield q List.mem_cons_self
    have hqStop : q.stop ≤ bytes.length := htiles.le.trans hstop
    have hlen := length_overwrite (hqField.trans hqStop)
    rcases List.mem_cons.mp hp with rfl | hp
    · rw [replaceFronts_cons, ← Piece.body_overwrite hqField hqStop]
      refine Piece.body_congr fun i _ hi ↦ ?_
      refine getElem?_replaceFronts (fun r hr ↦ ?_) (fun r hr ↦ ?_) fun r hr ↦ ?_
      · rw [hlen]
        exact (htiles.le_of_mem hr).2.2.2.trans hstop
      · exact hfield r (List.mem_cons_of_mem _ hr)
      · have := hbehind r hr
        omega
    · have hrest := ih (hstop.trans_eq hlen.symm)
        (fun r hr ↦ hfield r (List.mem_cons_of_mem q hr)) hp
      have hsame : p.body (overwrite bytes q.start (field q)) = p.body bytes := by
        refine Piece.body_congr fun i hi _ ↦ ?_
        have := hbehind p hp
        exact getElem?_overwrite_of_outside (hqField.trans hqStop) (by omega)
      rw [replaceFronts_cons, hrest, hsame]

end Layout

/-! ## The identifiers of the other section -/

namespace FrameSection

/-- The identifier in `.debug_frame` of a record that in `.eh_frame` has `id` at `idOffset`: that
of a CIE, or the offset of the CIE that the FDE refers to. -/
def debugId (idOffset : Nat) (id : UInt64) : Nat :=
  if id = ehFrame.cieId then debugFrame.cieId.toNat else (ehFrame.cieOffset idOffset id).toNat

end FrameSection

namespace Piece

/-- The identifier field of a record of `.eh_frame` as it stands in `.debug_frame`; nothing if
there is no identifier. -/
def debugIdField (bytes : List UInt8) (p : Piece) : List UInt8 :=
  match RawRecord.readId p.isWide (p.record bytes).body with
  | .ok (id, _) => FrameItem.idField p.isWide (FrameSection.debugId p.start id)
  | .error _ => []

variable {bytes : List UInt8} {p : Piece}

theorem start_add_length_debugIdField (hstart : p.start ≤ p.stop) (hstop : p.stop ≤ bytes.length) :
    p.start + (p.debugIdField bytes).length ≤ p.stop := by
  rw [debugIdField]
  split
  · rename_i id s hid
    obtain ⟨hle, -⟩ := RawRecord.drop_of_readId hid
    have hlen : (p.record bytes).body.bytes.length = p.stop - p.start := length_body hstop
    rw [FrameItem.length_idField]
    omega
  · exact hstart

end Piece

namespace Layout

variable {bytes : List UInt8} {p : Piece}

/-- A section of `.eh_frame` with the identifiers of `.debug_frame`, each in its place. -/
def renumber (bytes : List UInt8) : List UInt8 :=
  replaceFronts (Piece.debugIdField bytes) (ofSection .ehFrame bytes).pieces bytes

theorem mem_bounds {kind : FrameSection} (hp : p ∈ (ofSection kind bytes).pieces) :
    p.start ≤ p.stop ∧ p.stop ≤ bytes.length := by
  obtain ⟨stop, htiles, hstop, -⟩ := tiles_ofSection kind bytes
  obtain ⟨-, -, hle, hend⟩ := htiles.le_of_mem hp
  exact ⟨hle, hend.trans hstop⟩

theorem start_add_length_of_mem (hp : p ∈ (ofSection .ehFrame bytes).pieces) :
    p.start + (p.debugIdField bytes).length ≤ p.stop :=
  Piece.start_add_length_debugIdField (mem_bounds hp).1 (mem_bounds hp).2

theorem length_renumber (bytes : List UInt8) : (renumber bytes).length = bytes.length :=
  length_replaceFronts (fun _ hp ↦ (mem_bounds hp).2) fun _ hp ↦ start_add_length_of_mem hp

/-- Outside the bodies nothing changes. -/
theorem getElem?_renumber {i : Nat}
    (hi : ∀ p ∈ (ofSection .ehFrame bytes).pieces, ¬(p.start ≤ i ∧ i < p.stop)) :
    (renumber bytes)[i]? = bytes[i]? :=
  getElem?_replaceFronts (fun _ hp ↦ (mem_bounds hp).2) (fun _ hp ↦ start_add_length_of_mem hp) hi

/-- Every body has its new identifier in front, and is the same behind it. -/
theorem body_renumber (hp : p ∈ (ofSection .ehFrame bytes).pieces) :
    p.body (renumber bytes) =
      p.debugIdField bytes ++ (p.body bytes).drop (p.debugIdField bytes).length := by
  obtain ⟨stop, htiles, hstop, -⟩ := tiles_ofSection .ehFrame bytes
  exact body_replaceFronts htiles hstop (fun _ hq ↦ start_add_length_of_mem hq) hp

/-- Without lengths of zero the two sections are split the same way. -/
theorem ofSectionFrom_debugFrame (pos : Nat)
    (h : ∀ p ∈ (ofSectionFrom .ehFrame bytes pos).pieces, ¬p.isEmpty) :
    ofSectionFrom .debugFrame bytes pos = ofSectionFrom .ehFrame bytes pos := by
  revert h
  refine ofSectionFrom_induction (motive := fun pos l ↦ (∀ p ∈ l.pieces, ¬p.isEmpty) →
    ofSectionFrom .debugFrame bytes pos = l) ?ends ?cut ?overrun ?stops ?piece pos
  case ends =>
    intro pos hge _
    exact ofSectionFrom_of_le hge
  case cut =>
    intro pos e hpos herror _
    exact ofSectionFrom_of_error hpos herror
  case overrun =>
    intro pos p hpos hok _ hlt _
    -- A length of zero reaches past nothing.
    obtain ⟨-, -, -, hstart⟩ := pieceAt_bounds hok
    have hempty : ¬p.isEmpty = true := by
      rw [Piece.isEmpty_iff]
      omega
    rw [ofSectionFrom_of_ok hpos hok, if_neg fun hstop ↦ hempty hstop.1,
      if_neg (Nat.not_le.mpr hlt)]
  case stops =>
    intro pos p _ _ _ hkind
    cases hkind
  case piece =>
    intro pos p hpos hok _ hle ih h
    have hempty := h p List.mem_cons_self
    rw [ofSectionFrom_of_ok hpos hok, if_neg fun hstop ↦ hempty hstop.1, if_pos hle,
      ih fun q hq ↦ h q (List.mem_cons_of_mem p hq)]

theorem ofSection_renumber (h : ∀ p ∈ (ofSection .ehFrame bytes).pieces, ¬p.isEmpty) :
    ofSection .debugFrame (renumber bytes) = ofSection .ehFrame bytes := by
  have hsame : ofSection .ehFrame (renumber bytes) = ofSection .ehFrame bytes :=
    ofSectionFrom_congr (length_renumber bytes) 0 fun i _ hi ↦ getElem?_renumber hi
  rw [← hsame] at h ⊢
  exact ofSectionFrom_debugFrame 0 h

end Layout

/-! ## The entries of a renumbered section -/

namespace FrameIndex

/-- The index as that of `.debug_frame`. -/
def asDebugFrame (index : FrameIndex) : FrameIndex := { index with kind := .debugFrame }

end FrameIndex

namespace RawRecord

variable {base : UInt64} {addressSize : UInt8} {index grown : FrameIndex} {bytes other : List UInt8}
  {p : Piece}

/-- The identifier of the other section is read from the field that replaces the old one. -/
theorem takes_debugId (isWide : Bool) {place : Nat} {id : UInt64}
    (h : id = FrameSection.ehFrame.cieId ∨
      (FrameSection.ehFrame.cieOffset place id).toNat < 0xffffffff) :
    (readId isWide).Takes place (FrameItem.idField isWide (FrameSection.debugId place id))
      (UInt64.ofNat (FrameSection.debugId place id)) := by
  by_cases hcie : id = FrameSection.ehFrame.cieId
  · rw [FrameSection.debugId, if_pos hcie, UInt64.ofNat_toNat]
    exact FrameItem.takes_cieId .debugFrame isWide place
  · rw [FrameSection.debugId, if_neg hcie]
    refine FrameItem.takes_idField ?_ place
    cases isWide with
    | true => exact UInt64.toNat_lt _
    | false => exact h.resolve_left hcie

/-- **One record is decoded the same** with the identifier of the other section. -/
theorem outcome_renumber
    (hbody : p.body other =
      p.debugIdField bytes ++ (p.body bytes).drop (p.debugIdField bytes).length)
    (hsmall : ∀ offset cie, index.cie? offset = some cie → offset < 0xffffffff)
    (h : (p.record bytes).outcome ⟨.ehFrame, base, addressSize⟩ index = .ok grown) :
    (p.record other).outcome ⟨.debugFrame, base, addressSize⟩ index.asDebugFrame =
      .ok grown.asDebugFrame := by
  obtain ⟨id, s, hid, hentry⟩ := outcome_eq_ok_iff.mp h
  have hfield : p.debugIdField bytes =
      FrameItem.idField p.isWide (FrameSection.debugId p.start id) := by
    change readId p.isWide (p.record bytes).body = .ok (id, s) at hid
    rw [Piece.debugIdField, hid]
  have hrefers : id = FrameSection.ehFrame.cieId ∨
      (FrameSection.ehFrame.cieOffset p.start id).toNat < 0xffffffff := by
    rcases hentry with ⟨hcie, -⟩ | ⟨-, cie, head, t, hfound, -⟩
    · exact Or.inl hcie
    · exact Or.inr (hsmall _ cie hfound)
  -- The new identifier ends where the old one did, so the same bytes follow.
  have hread : readId p.isWide (p.record other).body =
      .ok (UInt64.ofNat (FrameSection.debugId p.start id), s) := by
    have htakes := takes_debugId p.isWide hrefers
    rw [(drop_of_readId hid).2, Piece.record, hbody, hfield, htakes, FrameItem.length_idField]
    rfl
  refine outcome_eq_ok_iff.mpr ⟨_, s, hread, ?_⟩
  rcases hentry with ⟨hcie, head, t, hfields, rfl⟩ | ⟨hne, cie, head, t, hfound, hfields, rfl⟩
  · left
    rw [FrameSection.debugId, if_pos hcie, UInt64.ofNat_toNat]
    exact ⟨rfl, head, t, hfields, rfl⟩
  · right
    rw [FrameSection.debugId, if_neg hne, UInt64.ofNat_toNat]
    refine ⟨?_, cie, head, t, hfound, hfields, rfl⟩
    -- The identifier of a CIE is no offset of one.
    intro (heq : FrameSection.ehFrame.cieOffset p.start id = FrameSection.debugFrame.cieId)
    have hlt := hrefers.resolve_left hne
    rw [heq] at hlt
    exact absurd hlt (by decide)

end RawRecord

namespace FrameIndex

variable {context : FrameContext} {base : UInt64} {addressSize : UInt8} {index grown : FrameIndex}
  {bytes other : List UInt8} {ps : List Piece}

/-- No record takes a CIE away. -/
theorem exists_cie?_of_outcome {r : RawRecord} (h : r.outcome context index = .ok grown)
    {offset : Nat} {cie : Cie} (hcie : index.cie? offset = some cie) :
    ∃ cie, grown.cie? offset = some cie := by
  rcases RawRecord.added_of_outcome h with ⟨c, -, -, rfl⟩ | ⟨f, -, -, rfl⟩
  · by_cases heq : offset = c.offset
    · exact ⟨c, heq ▸ cie?_insertCie_self c index⟩
    · exact ⟨cie, (cie?_insertCie_of_ne heq).trans hcie⟩
  · exact ⟨cie, hcie⟩

theorem exists_cie?_decodePieces (context : FrameContext) (bytes : List UInt8) (ps : List Piece)
    {offset : Nat} {cie : Cie} (hcie : index.cie? offset = some cie) :
    ∃ cie, (decodePieces context bytes ps index).2.cie? offset = some cie := by
  refine decodePieces_keeps (motive := fun final ↦ ∃ cie, final.cie? offset = some cie) ?_
    ⟨cie, hcie⟩
  rintro p _ before grown hr ⟨c, hc⟩
  exact exists_cie?_of_outcome hr hc

/-- **A run over pieces comes to the same entries** with the identifiers of the other section. -/
theorem decodePieces_renumber
    (hbody : ∀ p ∈ ps, p.body other =
      p.debugIdField bytes ++ (p.body bytes).drop (p.debugIdField bytes).length)
    (hsmall : ∀ offset cie, grown.cie? offset = some cie → offset < 0xffffffff)
    (h : decodePieces ⟨.ehFrame, base, addressSize⟩ bytes ps index = (.ok (), grown)) :
    decodePieces ⟨.debugFrame, base, addressSize⟩ other ps index.asDebugFrame =
      (.ok (), grown.asDebugFrame) := by
  induction ps generalizing index with
  | nil =>
    cases h
    rfl
  | cons p ps ih =>
    have hrest : ∀ q ∈ ps, _ := fun q hq ↦ hbody q (List.mem_cons_of_mem p hq)
    by_cases hempty : p.isEmpty = true
    · rw [decodePieces_of_isEmpty hempty] at h ⊢
      exact ih hrest h
    · cases hr : (p.record bytes).outcome ⟨.ehFrame, base, addressSize⟩ index with
      | error e =>
        rw [decodePieces_of_error hempty hr] at h
        cases h
      | ok next =>
        have hbefore : ∀ offset cie, index.cie? offset = some cie → offset < 0xffffffff := by
          intro offset cie hcie
          obtain ⟨c, hc⟩ :=
            exists_cie?_decodePieces ⟨.ehFrame, base, addressSize⟩ bytes (p :: ps) hcie
          rw [h] at hc
          exact hsmall offset c hc
        rw [decodePieces_of_ok hempty hr] at h
        rw [decodePieces_of_ok hempty
          (RawRecord.outcome_renumber (hbody p List.mem_cons_self) hbefore hr)]
        exact ih hrest h

theorem decodeLayout_eq_ok_iff {l : Layout} :
    decodeLayout context bytes l index = (.ok (), grown) ↔
      decodePieces context bytes l.pieces index = (.ok (), grown) ∧ l.ending = .ok () := by
  rw [decodeLayout]
  cases decodePieces context bytes l.pieces index with
  | mk ending final =>
    cases ending with
    | error e => simp
    | ok u => simp [and_comm]

/-- **Both sections say the same.** If a section of `.eh_frame` without lengths of zero is decoded
to its end, then with the identifiers of `.debug_frame` in their places it is decoded to the same
entries as that section. -/
theorem decodeInto_renumber
    (h : ((empty .ehFrame).decodeInto ⟨.ehFrame, base, addressSize⟩ bytes).value = (.ok (), index))
    (hrecords : ∀ p ∈ (Layout.ofSection .ehFrame bytes).pieces, ¬p.isEmpty)
    (hsmall : ∀ offset cie, index.cie? offset = some cie → offset < 0xffffffff) :
    ((empty .debugFrame).decodeInto ⟨.debugFrame, base, addressSize⟩
        (Layout.renumber bytes)).value = (.ok (), index.asDebugFrame) := by
  rw [value_decodeInto] at h
  rw [value_decodeInto, Layout.ofSection_renumber hrecords]
  obtain ⟨hpieces, hending⟩ := decodeLayout_eq_ok_iff.mp h
  refine decodeLayout_eq_ok_iff.mpr ⟨?_, hending⟩
  exact decodePieces_renumber (fun p hp ↦ Layout.body_renumber hp) hsmall hpieces

/-- A CIE in the long form and an FDE in the short one, and the other way round. -/
def bothForms : List UInt8 :=
  FrameItem.frame true (FrameItem.idField true 0 ++ [1, 0, 1, 0x78, 16, 12, 7, 8]) ++
    FrameItem.frame false
      (FrameItem.idField false 32 ++ LittleEndian.ofNat 8 0x4000 ++ LittleEndian.ofNat 8 0x20) ++
    FrameItem.frame false (FrameItem.idField false 0 ++ [1, 0, 1, 0x78, 16]) ++
    FrameItem.frame true
      (FrameItem.idField true 25 ++ LittleEndian.ofNat 8 0x4020 ++ LittleEndian.ofNat 8 0x20)

theorem decodeInto_renumber_bothForms :
    ∃ index : FrameIndex, index.fdes.entries.map Prod.fst = [0x4000, 0x4020] ∧
      ((empty .ehFrame).decodeInto ⟨.ehFrame, 0x1000, 8⟩ bothForms).value = (.ok (), index) ∧
      (∀ p ∈ (Layout.ofSection .ehFrame bothForms).pieces, ¬p.isEmpty) ∧
      (∀ offset cie, index.cie? offset = some cie → offset < 0xffffffff) ∧
      ((empty .debugFrame).decodeInto ⟨.debugFrame, 0x1000, 8⟩
          (Layout.renumber bothForms)).value = (.ok (), index.asDebugFrame) := by
  have hdecoded : ((empty .ehFrame).decodeInto ⟨.ehFrame, 0x1000, 8⟩ bothForms).value.1 =
      .ok () := by cbv
  have hfdes : ((empty .ehFrame).decodeInto ⟨.ehFrame, 0x1000, 8⟩
      bothForms).value.2.fdes.entries.map Prod.fst = [0x4000, 0x4020] := by cbv
  have hcies : ((empty .ehFrame).decodeInto ⟨.ehFrame, 0x1000, 8⟩
      bothForms).value.2.cies.entries.map Prod.fst = [0, 52] := by cbv
  have hpieces : (Layout.ofSection .ehFrame bothForms).pieces =
      [⟨0, 12, 28, true⟩, ⟨28, 32, 52, false⟩, ⟨52, 56, 65, false⟩, ⟨65, 77, 101, true⟩] := by cbv
  have hrecords : ∀ p ∈ (Layout.ofSection .ehFrame bothForms).pieces, ¬p.isEmpty := by
    rw [hpieces]
    decide
  have hsmall : ∀ offset cie, ((empty .ehFrame).decodeInto ⟨.ehFrame, 0x1000, 8⟩
      bothForms).value.2.cie? offset = some cie → offset < 0xffffffff := by
    intro offset cie hcie
    have hmem := List.mem_map_of_mem (f := Prod.fst) (SortedMap.get?_eq_some_iff.mp hcie)
    rw [hcies] at hmem
    exact (by decide : ∀ n ∈ [0, 52], n < 0xffffffff) offset hmem
  exact ⟨_, hfdes, Prod.ext hdecoded rfl, hrecords, hsmall,
    decodeInto_renumber (Prod.ext hdecoded rfl) hrecords hsmall⟩

end FrameIndex

end ElfUnwind
