import ElfUnwind.Proofs.RecordDecoding

/-!
# The layout of a section

Where the records of a section stand, read off the length fields alone and in absolute positions.
A record and a length of zero are the same kind of piece here: the second has no body. The pieces
lie end to end from the start of the section (`Layout.tiles_ofSection`), and no byte of a body has
any influence on them (`Layout.ofSectionFrom_congr`).
-/

namespace ElfUnwind

/-- A record of a section, or a length of zero. -/
structure Piece where
  /-- Where it begins. -/
  offset : Nat
  /-- Where its body begins, behind the length. -/
  start : Nat
  /-- Where it ends. -/
  stop : Nat
  /-- Whether the length has the long form. -/
  isWide : Bool
  deriving DecidableEq, Repr

namespace Piece

/-- Whether it is a length of zero. -/
def isEmpty (p : Piece) : Bool := p.start = p.stop

theorem isEmpty_iff {p : Piece} : p.isEmpty = true ↔ p.start = p.stop := decide_eq_true_iff

/-- The bytes of its body in a section. -/
def body (bytes : List UInt8) (p : Piece) : List UInt8 := (bytes.take p.stop).drop p.start

/-- The piece as a record that is not decoded yet. -/
def record (bytes : List UInt8) (p : Piece) : RawRecord :=
  ⟨p.offset, p.isWide, ⟨p.start, p.body bytes⟩⟩

end Piece

/-- The pieces of a section, and how they end. -/
structure Layout where
  /-- The pieces in their order. -/
  pieces : List Piece
  /-- Whether what follows the last of them is no piece. -/
  ending : Except Error Unit

namespace Layout

/-! ## Splitting a section -/

/-- The number in `width` bytes at `pos`. -/
def numberAt (bytes : List UInt8) (width pos : Nat) : Except Error Nat :=
  if pos + width ≤ bytes.length then
    .ok (LittleEndian.toNat ((bytes.drop pos).take width))
  else .error (.truncatedRead pos width)

/-- The piece that the length field at `pos` announces, whether the section holds it or not. -/
def pieceAt (bytes : List UInt8) (pos : Nat) : Except Error Piece :=
  match numberAt bytes 4 pos with
  | .error e => .error e
  | .ok length =>
    if length = 0xffffffff then
      (numberAt bytes 8 (pos + 4)).map fun long ↦ ⟨pos, pos + 12, pos + 12 + long, true⟩
    else .ok ⟨pos, pos + 4, pos + 4 + length, false⟩

theorem numberAt_eq_ok {bytes : List UInt8} {width pos n : Nat}
    (h : numberAt bytes width pos = .ok n) :
    pos + width ≤ bytes.length ∧ n < LittleEndian.capacity width := by
  rw [numberAt] at h
  by_cases hle : pos + width ≤ bytes.length
  · rw [if_pos hle] at h
    injection h with h
    have hlen : ((bytes.drop pos).take width).length = width := by
      rw [List.length_take, List.length_drop]
      omega
    have hlt := LittleEndian.toNat_lt ((bytes.drop pos).take width)
    rw [hlen, h] at hlt
    exact ⟨hle, hlt⟩
  · rw [if_neg hle] at h
    cases h

/-- A piece has one of the two forms of the length. -/
theorem pieceAt_eq_ok_iff {bytes : List UInt8} {pos : Nat} {p : Piece} :
    pieceAt bytes pos = .ok p ↔
      (∃ n, numberAt bytes 4 pos = .ok n ∧ n ≠ 0xffffffff ∧
        p = ⟨pos, pos + 4, pos + 4 + n, false⟩) ∨
      (numberAt bytes 4 pos = .ok 0xffffffff ∧ ∃ n, numberAt bytes 8 (pos + 4) = .ok n ∧
        p = ⟨pos, pos + 12, pos + 12 + n, true⟩) := by
  rw [pieceAt]
  constructor
  · intro h
    split at h
    · cases h
    · rename_i n hn
      by_cases hlong : n = 0xffffffff
      · subst hlong
        rw [if_pos rfl] at h
        cases hnumber : numberAt bytes 8 (pos + 4) with
        | error e =>
          rw [hnumber] at h
          cases h
        | ok n =>
          rw [hnumber] at h
          injection h with h
          exact Or.inr ⟨hn, n, rfl, h.symm⟩
      · rw [if_neg hlong] at h
        injection h with h
        exact Or.inl ⟨n, hn, hlong, h.symm⟩
  · rintro (⟨n, hn, hne, rfl⟩ | ⟨hn, n, hlong, rfl⟩)
    · simp only [hn, if_neg hne]
    · simp only [hn, if_true, hlong, Except.map]

/-- There is no piece where its length field is cut short. -/
theorem pieceAt_eq_error {bytes : List UInt8} {pos : Nat} {e : Error}
    (h : pieceAt bytes pos = .error e) :
    ∃ place width, e = .truncatedRead place width ∧ pos ≤ place := by
  rw [pieceAt, numberAt, numberAt] at h
  by_cases hshort : pos + 4 ≤ bytes.length
  · rw [if_pos hshort] at h
    dsimp only at h
    split at h
    · by_cases hlong : pos + 4 + 8 ≤ bytes.length
      · rw [if_pos hlong] at h
        cases h
      · rw [if_neg hlong] at h
        cases h
        exact ⟨pos + 4, 8, rfl, Nat.le_add_right _ _⟩
    · cases h
  · rw [if_neg hshort] at h
    cases h
    exact ⟨pos, 4, rfl, Nat.le_refl _⟩

theorem pieceAt_bounds {bytes : List UInt8} {pos : Nat} {p : Piece}
    (h : pieceAt bytes pos = .ok p) :
    p.offset = pos ∧ pos + 4 ≤ p.start ∧ p.start ≤ p.stop ∧ p.start ≤ bytes.length := by
  rcases pieceAt_eq_ok_iff.mp h with ⟨n, hn, -, rfl⟩ | ⟨-, n, hn, rfl⟩
  · obtain ⟨hle, -⟩ := numberAt_eq_ok hn
    exact ⟨rfl, Nat.le_refl _, Nat.le_add_right _ _, hle⟩
  · obtain ⟨hle, -⟩ := numberAt_eq_ok hn
    exact ⟨rfl, Nat.add_le_add_left (by decide) pos, Nat.le_add_right _ _, hle⟩

/-- The length of a piece is one that a length field can hold. -/
theorem length_lt_of_pieceAt {bytes : List UInt8} {pos : Nat} {p : Piece}
    (h : pieceAt bytes pos = .ok p) : p.stop - p.start < 2 ^ 64 := by
  rcases pieceAt_eq_ok_iff.mp h with ⟨n, hn, -, rfl⟩ | ⟨-, n, hn, rfl⟩
  · obtain ⟨-, hlt⟩ := numberAt_eq_ok hn
    rw [Nat.add_sub_cancel_left]
    exact Nat.lt_trans hlt (by decide)
  · obtain ⟨-, hlt⟩ := numberAt_eq_ok hn
    rw [Nat.add_sub_cancel_left]
    exact hlt

/-- The layout with one more piece before it. -/
def behind (p : Piece) (l : Layout) : Layout := ⟨p :: l.pieces, l.ending⟩

/-- The layout of a section from `pos` on. A length of zero ends `.debug_frame`. -/
def ofSectionFrom (kind : FrameSection) (bytes : List UInt8) (pos : Nat) : Layout :=
  if pos < bytes.length then
    match _h : pieceAt bytes pos with
    | .error e => ⟨[], .error e⟩
    | .ok p =>
      if p.isEmpty ∧ kind = .debugFrame then ⟨[p], .ok ()⟩
      else if p.stop ≤ bytes.length then (ofSectionFrom kind bytes p.stop).behind p
      else ⟨[], .error (.recordOverrun pos)⟩
  else ⟨[], .ok ()⟩
termination_by bytes.length - pos
decreasing_by
  obtain ⟨-, hstart, hle, -⟩ := pieceAt_bounds ‹_›
  omega

/-- The layout of a section. -/
def ofSection (kind : FrameSection) (bytes : List UInt8) : Layout := ofSectionFrom kind bytes 0

variable {kind : FrameSection} {bytes : List UInt8} {pos : Nat} {p : Piece}

theorem ofSectionFrom_of_le (h : bytes.length ≤ pos) :
    ofSectionFrom kind bytes pos = ⟨[], .ok ()⟩ := by
  rw [ofSectionFrom, if_neg (Nat.not_lt.mpr h)]

theorem ofSectionFrom_of_error {e : Error} (hpos : pos < bytes.length)
    (h : pieceAt bytes pos = .error e) : ofSectionFrom kind bytes pos = ⟨[], .error e⟩ := by
  rw [ofSectionFrom, if_pos hpos]
  split
  · rename_i h'
    rw [h] at h'
    cases h'
    rfl
  · rename_i h'
    rw [h] at h'
    cases h'

theorem ofSectionFrom_of_ok (hpos : pos < bytes.length) (h : pieceAt bytes pos = .ok p) :
    ofSectionFrom kind bytes pos =
      if p.isEmpty ∧ kind = .debugFrame then ⟨[p], .ok ()⟩
      else if p.stop ≤ bytes.length then (ofSectionFrom kind bytes p.stop).behind p
      else ⟨[], .error (.recordOverrun pos)⟩ := by
  rw [ofSectionFrom, if_pos hpos]
  split
  · rename_i h'
    rw [h] at h'
    cases h'
  · rename_i h'
    rw [h] at h'
    cases h'
    rfl

/-- What is behind the first piece of a section. -/
theorem of_pieces_eq_cons {ps : List Piece} (h : (ofSectionFrom kind bytes pos).pieces = p :: ps) :
    pos < bytes.length ∧ pieceAt bytes pos = .ok p ∧
      ((p.isEmpty ∧ kind = .debugFrame ∧ ps = []) ∨
        (¬(p.isEmpty ∧ kind = .debugFrame) ∧ p.stop ≤ bytes.length ∧
          (ofSectionFrom kind bytes p.stop).pieces = ps)) := by
  by_cases hpos : pos < bytes.length
  · cases hpiece : pieceAt bytes pos with
    | error e =>
      rw [ofSectionFrom_of_error hpos hpiece] at h
      cases h
    | ok q =>
      rw [ofSectionFrom_of_ok hpos hpiece] at h
      by_cases hstop : q.isEmpty ∧ kind = .debugFrame
      · rw [if_pos hstop] at h
        injection h with hq hps
        subst hq
        exact ⟨hpos, rfl, Or.inl ⟨hstop.1, hstop.2, hps.symm⟩⟩
      · rw [if_neg hstop] at h
        by_cases hend : q.stop ≤ bytes.length
        · rw [if_pos hend] at h
          injection h with hq hps
          subst hq
          exact ⟨hpos, rfl, Or.inr ⟨hstop, hend, hps⟩⟩
        · rw [if_neg hend] at h
          cases h
  · rw [ofSectionFrom_of_le (Nat.le_of_not_lt hpos)] at h
    cases h

/-- **The pieces of a section, by cases.** What holds of a section that ends, of one that goes on
with no piece, and of one with a piece in front, holds of every section. -/
theorem ofSectionFrom_induction {motive : Nat → Layout → Prop}
    (ends : ∀ pos, bytes.length ≤ pos → motive pos ⟨[], .ok ()⟩)
    (cut : ∀ pos e, pos < bytes.length → pieceAt bytes pos = .error e → motive pos ⟨[], .error e⟩)
    (overrun : ∀ pos p, pos < bytes.length → pieceAt bytes pos = .ok p →
      ¬(p.isEmpty ∧ kind = .debugFrame) → bytes.length < p.stop →
      motive pos ⟨[], .error (.recordOverrun pos)⟩)
    (stops : ∀ pos p, pos < bytes.length → pieceAt bytes pos = .ok p → p.isEmpty →
      kind = .debugFrame → motive pos ⟨[p], .ok ()⟩)
    (piece : ∀ pos p, pos < bytes.length → pieceAt bytes pos = .ok p →
      ¬(p.isEmpty ∧ kind = .debugFrame) → p.stop ≤ bytes.length →
      motive p.stop (ofSectionFrom kind bytes p.stop) →
      motive pos ((ofSectionFrom kind bytes p.stop).behind p)) (pos : Nat) :
    motive pos (ofSectionFrom kind bytes pos) := by
  induction hn : bytes.length - pos using Nat.strong_induction_on generalizing pos with
  | _ n ih =>
    by_cases hpos : pos < bytes.length
    · cases h : pieceAt bytes pos with
      | error e =>
        rw [ofSectionFrom_of_error hpos h]
        exact cut pos e hpos h
      | ok p =>
        rw [ofSectionFrom_of_ok hpos h]
        obtain ⟨-, hstart, hle, -⟩ := pieceAt_bounds h
        by_cases hstop : p.isEmpty ∧ kind = .debugFrame
        · rw [if_pos hstop]
          exact stops pos p hpos h hstop.1 hstop.2
        · rw [if_neg hstop]
          by_cases hend : p.stop ≤ bytes.length
          · rw [if_pos hend]
            exact piece pos p hpos h hstop hend (ih _ (by omega) p.stop rfl)
          · rw [if_neg hend]
            exact overrun pos p hpos h hstop (Nat.lt_of_not_le hend)
    · rw [ofSectionFrom_of_le (Nat.le_of_not_lt hpos)]
      exact ends pos (Nat.le_of_not_lt hpos)

/-! ## The pieces lie end to end -/

/-- The pieces lie end to end from one position to another. -/
inductive Tiles : Nat → List Piece → Nat → Prop where
  | nil (pos : Nat) : Tiles pos [] pos
  | cons {p : Piece} {ps : List Piece} {stop : Nat} : p.offset < p.start → p.start ≤ p.stop →
      Tiles p.stop ps stop → Tiles p.offset (p :: ps) stop

theorem Tiles.le {stop : Nat} {ps : List Piece} (h : Tiles pos ps stop) : pos ≤ stop := by
  induction h with
  | nil pos => exact Nat.le_refl pos
  | cons hlt hle _ ih => omega

theorem Tiles.le_of_mem {stop : Nat} {ps : List Piece} (h : Tiles pos ps stop) (hp : p ∈ ps) :
    pos ≤ p.offset ∧ p.offset < p.start ∧ p.start ≤ p.stop ∧ p.stop ≤ stop := by
  induction h with
  | nil pos => exact absurd hp List.not_mem_nil
  | cons hlt hle htiles ih =>
    rcases List.mem_cons.mp hp with rfl | hp
    · exact ⟨Nat.le_refl _, hlt, hle, htiles.le⟩
    · obtain ⟨hpos, hrest⟩ := ih hp
      exact ⟨by omega, hrest⟩

theorem Tiles.of_append {stop : Nat} {front back : List Piece}
    (h : Tiles pos (front ++ back) stop) :
    ∃ middle, Tiles pos front middle ∧ Tiles middle back stop := by
  induction front generalizing pos with
  | nil => exact ⟨pos, .nil pos, h⟩
  | cons p front ih =>
    rcases h with _ | ⟨hlt, hle, hrest⟩
    obtain ⟨middle, hfront, hback⟩ := ih hrest
    exact ⟨middle, .cons hlt hle hfront, hback⟩

/-- Pieces before another begin before it. -/
theorem Tiles.offset_lt {stop : Nat} {front back : List Piece}
    (h : Tiles pos (front ++ p :: back) stop) : ∀ q ∈ front, q.offset < p.offset := by
  intro q hq
  obtain ⟨middle, hfront, hback⟩ := h.of_append
  obtain ⟨-, hstart, hstop, hle⟩ := hfront.le_of_mem hq
  cases hback
  omega

/-- How the pieces of a section can end at `stop`. -/
inductive EndsAt (kind : FrameSection) (bytes : List UInt8) (ps : List Piece) (stop : Nat) :
    Except Error Unit → Prop where
  /-- Nothing is left. -/
  | finished : stop = bytes.length → EndsAt kind bytes ps stop (.ok ())
  /-- The last of them is a length of zero that ends the section. -/
  | stopped {p : Piece} : kind = .debugFrame → p ∈ ps.getLast? → p.isEmpty →
      EndsAt kind bytes ps stop (.ok ())
  /-- The length field that follows is cut short. -/
  | cut {e : Error} : stop < bytes.length → pieceAt bytes stop = .error e →
      EndsAt kind bytes ps stop (.error e)
  /-- The record that follows reaches past the end of the section. -/
  | overrun {p : Piece} : stop < bytes.length → pieceAt bytes stop = .ok p →
      bytes.length < p.stop → EndsAt kind bytes ps stop (.error (.recordOverrun stop))

theorem EndsAt.behind {ps : List Piece} {stop : Nat} {ending : Except Error Unit}
    (h : EndsAt kind bytes ps stop ending) (p : Piece) :
    EndsAt kind bytes (p :: ps) stop ending := by
  rcases h with hstop | ⟨hkind, hlast, hempty⟩ | ⟨hstop, herror⟩ | ⟨hstop, hok, hlt⟩
  · exact .finished hstop
  · refine .stopped hkind ?_ hempty
    rw [List.getLast?_cons, Option.mem_def.mp hlast]
    rfl
  · exact .cut hstop herror
  · exact .overrun hstop hok hlt

/-- **The pieces lie end to end**, and end where nothing more can be split off. -/
theorem tiles_ofSectionFrom (kind : FrameSection) (hpos : pos ≤ bytes.length) :
    ∃ stop, Tiles pos (ofSectionFrom kind bytes pos).pieces stop ∧ stop ≤ bytes.length ∧
      EndsAt kind bytes (ofSectionFrom kind bytes pos).pieces stop
        (ofSectionFrom kind bytes pos).ending := by
  refine ofSectionFrom_induction (motive := fun pos l ↦ pos ≤ bytes.length →
    ∃ stop, Tiles pos l.pieces stop ∧ stop ≤ bytes.length ∧
      EndsAt kind bytes l.pieces stop l.ending)
    ?ends ?cut ?overrun ?stops ?piece pos hpos
  case ends =>
    intro pos hge hle
    exact ⟨pos, .nil pos, hle, .finished (Nat.le_antisymm hle hge)⟩
  case cut =>
    intro pos e hpos herror hle
    exact ⟨pos, .nil pos, hle, .cut hpos herror⟩
  case overrun =>
    intro pos p hpos hok _ hlt hle
    exact ⟨pos, .nil pos, hle, .overrun hpos hok hlt⟩
  case stops =>
    intro pos p _ hok hempty hkind _
    obtain ⟨rfl, hstart, hstop, hlen⟩ := pieceAt_bounds hok
    have heq := Piece.isEmpty_iff.mp hempty
    exact ⟨p.stop, .cons (by omega) hstop (.nil _), heq ▸ hlen, .stopped hkind rfl hempty⟩
  case piece =>
    intro pos p _ hok _ hle ih _
    obtain ⟨rfl, hstart, hstop, -⟩ := pieceAt_bounds hok
    obtain ⟨stop, htiles, hstopLe, hends⟩ := ih hle
    exact ⟨stop, .cons (by omega) hstop htiles, hstopLe, hends.behind p⟩

/-- The pieces of a section lie end to end from its start. -/
theorem tiles_ofSection (kind : FrameSection) (bytes : List UInt8) :
    ∃ stop, Tiles 0 (ofSection kind bytes).pieces stop ∧ stop ≤ bytes.length ∧
      EndsAt kind bytes (ofSection kind bytes).pieces stop (ofSection kind bytes).ending :=
  tiles_ofSectionFrom kind (Nat.zero_le bytes.length)

/-! ## Bodies have no influence -/

variable {other : List UInt8}

theorem numberAt_congr {width : Nat} (hlen : other.length = bytes.length)
    (h : ∀ i, pos ≤ i → i < pos + width → other[i]? = bytes[i]?) :
    numberAt other width pos = numberAt bytes width pos := by
  have hfield : (other.drop pos).take width = (bytes.drop pos).take width := by
    apply List.ext_getElem?
    intro j
    rw [List.getElem?_take, List.getElem?_take, List.getElem?_drop, List.getElem?_drop]
    by_cases hj : j < width
    · rw [if_pos hj, if_pos hj, h (pos + j) (Nat.le_add_right _ _) (by omega)]
    · rw [if_neg hj, if_neg hj]
  rw [numberAt, numberAt, hlen, hfield]

theorem pieceAt_congr (hlen : other.length = bytes.length)
    (h : ∀ i, pos ≤ i → (∀ p, pieceAt bytes pos = .ok p → i < p.start) → other[i]? = bytes[i]?) :
    pieceAt other pos = pieceAt bytes pos := by
  have hshort : numberAt other 4 pos = numberAt bytes 4 pos := by
    refine numberAt_congr hlen fun i hi hlt ↦ h i hi fun p hp ↦ ?_
    obtain ⟨-, hstart, -⟩ := pieceAt_bounds hp
    omega
  rw [pieceAt, pieceAt, hshort]
  cases hn : numberAt bytes 4 pos with
  | error e => rfl
  | ok n =>
    by_cases hlong : n = 0xffffffff
    · have hnumber : numberAt other 8 (pos + 4) = numberAt bytes 8 (pos + 4) := by
        refine numberAt_congr hlen fun i hi hlt ↦ h i (by omega) fun p hp ↦ ?_
        rcases pieceAt_eq_ok_iff.mp hp with ⟨n', hn', hne, -⟩ | ⟨-, n', -, rfl⟩
        · rw [hn] at hn'
          injection hn' with hn'
          exact absurd (hn'.symm.trans hlong) hne
        · exact hlt
      simp only [hlong, if_true, hnumber]
    · simp only [if_neg hlong]

/-- **Bodies have no influence**: sections of one size that differ in bodies alone have the same
layout. -/
theorem ofSectionFrom_congr (hlen : other.length = bytes.length) (pos : Nat)
    (h : ∀ i, pos ≤ i →
      (∀ p ∈ (ofSectionFrom kind bytes pos).pieces, ¬(p.start ≤ i ∧ i < p.stop)) →
      other[i]? = bytes[i]?) :
    ofSectionFrom kind other pos = ofSectionFrom kind bytes pos := by
  revert h
  refine ofSectionFrom_induction (motive := fun pos l ↦ (∀ i, pos ≤ i →
    (∀ p ∈ l.pieces, ¬(p.start ≤ i ∧ i < p.stop)) → other[i]? = bytes[i]?) →
      ofSectionFrom kind other pos = l) ?ends ?cut ?overrun ?stops ?piece pos
  case ends =>
    intro pos hge _
    exact ofSectionFrom_of_le (hlen.trans_le hge)
  case cut =>
    intro pos e hpos herror h
    have hpiece := pieceAt_congr hlen fun i hi _ ↦ h i hi (fun p hp ↦ absurd hp List.not_mem_nil)
    exact ofSectionFrom_of_error (hlen ▸ hpos) (hpiece.trans herror)
  case overrun =>
    intro pos p hpos hok hstop hlt h
    have hpiece := pieceAt_congr hlen fun i hi _ ↦ h i hi (fun p hp ↦ absurd hp List.not_mem_nil)
    rw [ofSectionFrom_of_ok (hlen ▸ hpos) (hpiece.trans hok), if_neg hstop,
      if_neg (by omega)]
  case stops =>
    intro pos p hpos hok hempty hkind h
    have heq := Piece.isEmpty_iff.mp hempty
    have hpiece : pieceAt other pos = pieceAt bytes pos := by
      refine pieceAt_congr hlen fun i hi _ ↦ h i hi fun q hq ↦ ?_
      rw [List.mem_singleton.mp hq]
      omega
    rw [ofSectionFrom_of_ok (hlen ▸ hpos) (hpiece.trans hok), if_pos ⟨hempty, hkind⟩]
  case piece =>
    intro pos p hpos hok hstop hle ih h
    obtain ⟨-, hstart, hstartStop, -⟩ := pieceAt_bounds hok
    obtain ⟨stop, htiles, -⟩ := tiles_ofSectionFrom kind hle
    have hpiece : pieceAt other pos = pieceAt bytes pos := by
      refine pieceAt_congr hlen fun i hi hlt ↦ h i hi fun q hq ↦ ?_
      have hi := hlt p hok
      rcases List.mem_cons.mp hq with rfl | hq
      · omega
      · obtain ⟨hbehind, hstart, -⟩ := htiles.le_of_mem hq
        omega
    have hrest : ofSectionFrom kind other p.stop = ofSectionFrom kind bytes p.stop := by
      refine ih fun i hi hout ↦ h i (by omega) fun q hq ↦ ?_
      rcases List.mem_cons.mp hq with rfl | hq
      · omega
      · exact hout q hq
    rw [ofSectionFrom_of_ok (hlen ▸ hpos) (hpiece.trans hok), if_neg hstop, if_pos (by omega),
      hrest]

/-! ## Cutting a section -/

variable {stop : Nat}

theorem numberAt_take {width n : Nat} (h : numberAt bytes width pos = .ok n)
    (hle : pos + width ≤ stop) : numberAt (bytes.take stop) width pos = .ok n := by
  obtain ⟨hlen, -⟩ := numberAt_eq_ok h
  have hfield : ((bytes.take stop).drop pos).take width = (bytes.drop pos).take width := by
    rw [List.drop_take, List.take_take, Nat.min_eq_left (by omega)]
  rw [numberAt, if_pos hlen] at h
  rw [numberAt, List.length_take, if_pos (by omega), hfield, h]

theorem pieceAt_take (h : pieceAt bytes pos = .ok p) (hle : p.start ≤ stop) :
    pieceAt (bytes.take stop) pos = .ok p := by
  rcases pieceAt_eq_ok_iff.mp h with ⟨n, hn, hne, rfl⟩ | ⟨hn, n, hlong, rfl⟩
  · exact pieceAt_eq_ok_iff.mpr (Or.inl ⟨n, numberAt_take hn hle, hne, rfl⟩)
  · have hshort : pos + 4 ≤ stop := Nat.le_trans (Nat.add_le_add_left (by decide) pos) hle
    exact pieceAt_eq_ok_iff.mpr
      (Or.inr ⟨numberAt_take hn hshort, n, numberAt_take hlong hle, rfl⟩)

/-- Where some of its pieces end, a section goes on with the others. -/
theorem pieces_of_append {front back : List Piece}
    (h : (ofSectionFrom kind bytes pos).pieces = front ++ p :: back)
    (htiles : Tiles pos front stop) :
    (ofSectionFrom kind bytes stop).pieces = p :: back := by
  induction front generalizing pos with
  | nil =>
    cases htiles
    exact h
  | cons q front ih =>
    obtain ⟨-, -, hcase⟩ := of_pieces_eq_cons h
    rcases hcase with ⟨-, -, hnil⟩ | ⟨-, -, hpieces⟩
    · obtain ⟨-, hp⟩ := List.append_eq_nil_iff.mp hnil
      cases hp
    · refine ih hpieces ?_
      cases htiles
      assumption

/-- **A section that is cut where some of its pieces end has just these.** -/
theorem ofSectionFrom_take {front back : List Piece}
    (h : (ofSectionFrom kind bytes pos).pieces = front ++ back) (htiles : Tiles pos front stop)
    (hstop : stop ≤ bytes.length) : ofSectionFrom kind (bytes.take stop) pos = ⟨front, .ok ()⟩ := by
  induction front generalizing pos with
  | nil =>
    cases htiles
    exact ofSectionFrom_of_le (by rw [List.length_take]; exact Nat.min_le_left _ _)
  | cons p front ih =>
    obtain ⟨hpos, hpiece, hcase⟩ := of_pieces_eq_cons h
    obtain ⟨hoffset, hstart, hstartStop, -⟩ := pieceAt_bounds hpiece
    have hrest : Tiles p.stop front stop := by
      cases htiles
      assumption
    have hle := hrest.le
    have hcut : pieceAt (bytes.take stop) pos = .ok p := pieceAt_take hpiece (by omega)
    have hlen : (bytes.take stop).length = stop := by
      rw [List.length_take, Nat.min_eq_left hstop]
    rw [ofSectionFrom_of_ok (by omega) hcut]
    rcases hcase with ⟨hempty, hkind, hnil⟩ | ⟨hgoes, -, hpieces⟩
    · obtain ⟨rfl, -⟩ := List.append_eq_nil_iff.mp hnil
      rw [if_pos ⟨hempty, hkind⟩]
    · rw [if_neg hgoes, if_pos (by omega), ih hpieces hrest]
      rfl

end Layout

end ElfUnwind
