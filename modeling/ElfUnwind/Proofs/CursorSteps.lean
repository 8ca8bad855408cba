import ElfUnwind.Bytes.Cursor
import ElfUnwind.Proofs.StoredValues

/-!
# Steps of a cursor

A cursor is moved by what is done at it, and so it could be moved by a read that fails half way: an
exact read of plain bytes that finds too few of them leaves the position somewhere. Here the steps
are written out as actions with that freedom, `stray` being where such a read ends up: fields of
fixed width are exact reads that are put back when they fail, texts are looked for in the bytes that
are left, and LEB128 numbers are decoded from them. The actions are the reads of spans performed at
the cursor (`CursorField.act_eq_attempt`), wherever a failing read strays to.

So a step that fails has moved nothing, a success has taken the bytes of its value and no others,
and what lies behind the end of a bounded cursor has no say (`CursorOp.history_isExact`).
-/

namespace ElfUnwind

/-- Something done at a cursor, which may have moved it also where it fails. -/
abbrev CursorAction := ExceptT Error (StateM Cursor)

/-- What is read or done at a cursor gives one of these. -/
inductive CursorValue where
  | byte (b : UInt8)
  | bytes (bs : List UInt8)
  | unsigned (v : UInt64)
  | signed (v : Int64)
  | pointer (v : Option UInt64)
  /-- The cursor was moved. -/
  | moved
  deriving DecidableEq, Repr

/-- A field that can be read at a cursor. -/
inductive CursorField where
  | byte
  | unsigned (width : UInt8)
  | signed (width : UInt8)
  /-- A text up to the next zero byte. -/
  | text
  | uleb128
  | sleb128
  | pointer (e : PointerEncoding) (addressSize : UInt8)
  deriving DecidableEq, Repr

/-- A step of a cursor. -/
inductive CursorOp where
  | field (f : CursorField)
  /-- All bytes that are left. -/
  | rest
  /-- Moving to a position. -/
  | seek (position : ℕ)
  deriving DecidableEq, Repr

namespace CursorAction

variable {α β : Type} (stray : Cursor → ℕ → ℕ)

/-! ## The actions -/

/-- The next `n` bytes. Where there are fewer, the position is left wherever it has strayed to. -/
def exact (n : ℕ) : StateM Cursor (Option (List UInt8)) := fun c ↦
  if n ≤ c.remaining then (some (c.span.bytes.take n), c.seek (c.position + n))
  else (none, c.seek (stray c n))

/-- An exact read that is put back where it fails. -/
def rewound (n : ℕ) : CursorAction (List UInt8) := fun c ↦
  match exact stray n c with
  | (some front, d) => (.ok front, d)
  | (none, d) => (.error (.truncatedRead c.position n), d.seek c.position)

/-- The next byte. -/
def byte : CursorAction UInt8 := (fun front ↦ front.headD 0) <$> rewound stray 1

/-- A little-endian number of `width` bytes. -/
def unsigned (width : UInt8) : CursorAction UInt64 :=
  if Read.isWidth width then
    (fun front ↦ UInt64.ofNat (LittleEndian.toNat front)) <$> rewound stray width.toNat
  else
    throw (.unsupportedWidth width)

/-- A little-endian number of `width` bytes in two's complement. -/
def signed (width : UInt8) : CursorAction Int64 :=
  if Read.isWidth width ∧ width ≠ 1 then
    (fun front ↦ Int64.ofInt (LittleEndian.signed width.toNat (LittleEndian.toNat front))) <$>
      rewound stray width.toNat
  else
    throw (.unsupportedWidth width)

/-- The bytes before the next zero byte, which is looked for from the position on. -/
def text : CursorAction (List UInt8) := fun c ↦
  -- A position past the end looks at no bytes.
  let start := min c.position c.length
  let unread := c.data.drop start
  match unread.findIdx? (· = 0) with
  | some n => (.ok (unread.take n), c.seek (start + n + 1))
  | none => (.error (.truncatedRead c.position (c.length - start + 1)), c)

/-- A number decoded from the unread bytes. -/
def leb128 (decode : List UInt8 → Option (α × ℕ)) : CursorAction α := fun c ↦
  match decode c.span.bytes with
  | some (value, used) => (.ok value, c.seek (c.position + used))
  | none => (.error (.truncatedRead c.position 1), c)

/-- A value stored in a format. -/
def value (addressSize : UInt8) : ValueFormat → CursorAction UInt64
  | .absptr => unsigned stray addressSize
  | .uleb128 => leb128 Leb128.decodeUnsigned
  | .udata2 => unsigned stray 2
  | .udata4 => unsigned stray 4
  | .udata8 => unsigned stray 8
  | .sleb128 => Int64.toUInt64 <$> leb128 Leb128.decodeSigned
  | .sdata2 => Int64.toUInt64 <$> signed stray 2
  | .sdata4 => Int64.toUInt64 <$> signed stray 4
  | .sdata8 => Int64.toUInt64 <$> signed stray 8

/-- The raw value of a pointer. -/
def pointer (e : PointerEncoding) (addressSize : UInt8) : CursorAction (Option UInt64) :=
  if e = .omitted then pure none
  else
    match e.format? with
    | none => throw (.invalidPointerEncoding e.byte)
    | some format => some <$> value stray addressSize format

/-- A read performed at the cursor; where it fails the cursor stays. -/
def attempt (r : Read α) : CursorAction α := fun c ↦
  match c.read r with
  | .ok (a, d) => (.ok a, d)
  | .error e => (.error e, c)

end CursorAction

namespace CursorField

open CursorAction

/-- The field as a read. -/
def read : CursorField → Read CursorValue
  | byte => .byte <$> Read.byte
  | unsigned width => .unsigned <$> Read.unsigned width
  | signed width => .signed <$> Read.signed width
  | text => .bytes <$> Read.zeroTerminated
  | uleb128 => .unsigned <$> Read.uleb128
  | sleb128 => .signed <$> Read.sleb128
  | pointer e addressSize => .pointer <$> e.read addressSize

/-- The field as an action. -/
def act (stray : Cursor → ℕ → ℕ) : CursorField → CursorAction CursorValue
  | byte => .byte <$> CursorAction.byte stray
  | unsigned width => .unsigned <$> CursorAction.unsigned stray width
  | signed width => .signed <$> CursorAction.signed stray width
  | text => .bytes <$> CursorAction.text
  | uleb128 => .unsigned <$> leb128 Leb128.decodeUnsigned
  | sleb128 => .signed <$> leb128 Leb128.decodeSigned
  | pointer e addressSize => .pointer <$> CursorAction.pointer stray e addressSize

end CursorField

/-- The step as an action. -/
def CursorOp.act (stray : Cursor → ℕ → ℕ) : CursorOp → CursorAction CursorValue
  | field f => f.act stray
  | rest => fun c ↦ (.ok (.bytes c.readRest.1), c.readRest.2)
  | seek position => fun c ↦ (.ok .moved, c.seek position)

/-! ## The actions are the reads -/

namespace CursorAction

variable {α β : Type} {stray : Cursor → ℕ → ℕ} {r : Read α} {c d : Cursor} {a : α} {e : Error}

theorem attempt_of_ok {t : Span} (h : r c.span = .ok (a, t)) :
    attempt r c = (.ok a, c.seek t.offset) := by
  simp only [attempt, Cursor.read, h, Except.map]

theorem attempt_of_error (h : r c.span = .error e) : attempt r c = (.error e, c) := by
  simp only [attempt, Cursor.read, h, Except.map]

theorem attempt_eq_ok_iff :
    attempt r c = (.ok a, d) ↔ ∃ t, r c.span = .ok (a, t) ∧ d = c.seek t.offset := by
  cases h : r c.span with
  | error e =>
    rw [attempt_of_error h]
    exact iff_of_false (by rintro ⟨⟩) (by rintro ⟨_, ⟨⟩, -⟩)
  | ok p =>
    obtain ⟨b, t⟩ := p
    rw [attempt_of_ok h]
    constructor
    · rintro ⟨⟩
      exact ⟨t, rfl, rfl⟩
    · rintro ⟨t, ⟨⟩, rfl⟩
      rfl

theorem attempt_eq_error_iff : attempt r c = (.error e, d) ↔ r c.span = .error e ∧ d = c := by
  cases h : r c.span with
  | error e' =>
    rw [attempt_of_error h]
    constructor
    · rintro ⟨⟩
      exact ⟨rfl, rfl⟩
    · rintro ⟨⟨⟩, rfl⟩
      rfl
  | ok p =>
    rw [attempt_of_ok h]
    exact iff_of_false (by rintro ⟨⟩) (by rintro ⟨⟨⟩, -⟩)

/-- What is given is mapped, and the cursor is the same. -/
theorem map_apply (f : α → β) (x : CursorAction α) (c : Cursor) :
    (f <$> x) c = ((x c).1.map f, (x c).2) := by
  rcases hx : x c with ⟨_ | a, d⟩
  · simp only [Functor.map, ExceptT.map, ExceptT.mk, bind, StateT.bind, hx]
    rfl
  · simp only [Functor.map, ExceptT.map, ExceptT.mk, bind, StateT.bind, hx]
    rfl

theorem attempt_map (f : α → β) (r : Read α) : attempt (f <$> r) = f <$> attempt r := by
  funext c
  rw [map_apply]
  cases h : r c.span with
  | error e =>
    rw [attempt_of_error h, attempt_of_error (Read.map_eq_error_iff.mpr h)]
    rfl
  | ok p =>
    rw [attempt_of_ok h, attempt_of_ok (Read.map_eq_ok_iff.mpr ⟨p.1, h, rfl⟩)]
    rfl

theorem rewound_eq_attempt (stray : Cursor → ℕ → ℕ) (n : ℕ) :
    rewound stray n = attempt (Read.bytes n) := by
  funext c
  have hlength := c.length_span_bytes
  by_cases hn : n ≤ c.remaining
  · rw [attempt_of_ok (Read.bytes_of_le (hlength ▸ hn))]
    simp only [rewound, exact, if_pos hn]
    rfl
  · rw [attempt_of_error (Read.bytes_of_gt (by omega))]
    simp only [rewound, exact, if_neg hn]
    rfl

theorem byte_eq_attempt (stray : Cursor → ℕ → ℕ) : byte stray = attempt Read.byte := by
  funext c
  rw [byte, rewound_eq_attempt, ← attempt_map]
  cases hspan : c.span.bytes with
  | nil =>
    have hbyte : Read.byte c.span = .error (Read.short 1 c.span) :=
      Read.byte_eq_error_iff.mpr ⟨hspan, rfl⟩
    rw [attempt_of_error hbyte, attempt_of_error]
    exact Read.map_eq_error_iff.mpr (Read.bytes_eq_error_iff.mpr ⟨by rw [hspan]; decide, rfl⟩)
  | cons b bs =>
    have hbyte : Read.byte c.span = .ok (b, c.span.drop 1) :=
      Read.byte_eq_ok_iff.mpr ⟨by rw [hspan, Span.drop, hspan]; rfl, rfl⟩
    rw [attempt_of_ok hbyte, attempt_of_ok]
    refine Read.map_eq_ok_iff.mpr ⟨[b], Read.bytes_eq_ok_iff.mpr ⟨?_, ?_, rfl⟩, rfl⟩
    · rw [hspan]
      exact Nat.le_add_left 1 _
    · rw [hspan]
      rfl

theorem unsigned_eq_attempt (stray : Cursor → ℕ → ℕ) (width : UInt8) :
    unsigned stray width = attempt (Read.unsigned width) := by
  rw [unsigned, Read.unsigned]
  split
  · rw [rewound_eq_attempt]
    exact (attempt_map _ _).symm
  · rfl

theorem signed_eq_attempt (stray : Cursor → ℕ → ℕ) (width : UInt8) :
    signed stray width = attempt (Read.signed width) := by
  rw [signed, Read.signed]
  split
  · rw [rewound_eq_attempt]
    exact (attempt_map _ _).symm
  · rfl

/-- The zero byte that is found first ends the text. -/
theorem zeroTerminated_of_findIdx? {s : Span} {n : ℕ} (h : s.bytes.findIdx? (· = 0) = some n) :
    Read.zeroTerminated s = .ok (s.bytes.take n, s.drop (n + 1)) := by
  obtain ⟨hn, hzero, hbefore⟩ := List.findIdx?_eq_some_iff_getElem.mp h
  refine Read.zeroTerminated_eq_ok_iff.mpr ⟨?_, ?_, ?_⟩
  · intro b hb
    obtain ⟨i, hi, rfl⟩ := List.getElem_of_mem hb
    rw [List.length_take] at hi
    rw [List.getElem_take]
    exact fun h ↦ hbefore i (by omega) (decide_eq_true h)
  · rw [List.append_assoc, List.singleton_append, ← of_decide_eq_true hzero, Span.drop,
      List.cons_getElem_drop_succ, List.take_append_drop]
  · rw [List.length_take_of_le hn.le, Span.drop]

theorem text_eq_attempt : text = attempt Read.zeroTerminated := by
  funext c
  have hunread : c.data.drop (min c.position c.length) = c.span.bytes := by
    rcases le_total c.position c.length with h | h
    · rw [min_eq_left h, Cursor.span]
    · rw [min_eq_right h, Cursor.span, Cursor.length, List.drop_length, List.drop_of_length_le h]
  rw [text, hunread]
  cases h : c.span.bytes.findIdx? (· = 0) with
  | none =>
    have hne : ∀ b ∈ c.span.bytes, b ≠ 0 :=
      fun b hb ↦ of_decide_eq_false (List.findIdx?_eq_none_iff.mp h b hb)
    have hwanted : c.length - min c.position c.length + 1 = c.span.bytes.length + 1 := by
      rw [Cursor.length_span_bytes, Cursor.remaining, Cursor.length]
      omega
    rw [attempt_of_error (Read.zeroTerminated_eq_error_iff.mpr ⟨hne, rfl⟩), ← hwanted]
    rfl
  | some n =>
    have hlt := (List.findIdx?_eq_some_iff_findIdx_eq.mp h).1
    rw [Cursor.length_span_bytes, Cursor.remaining] at hlt
    rw [attempt_of_ok (zeroTerminated_of_findIdx? h), Cursor.length, min_eq_left (by omega)]
    rfl

theorem leb128_eq_attempt {decode : List UInt8 → Option (α × ℕ)}
    (hok : ∀ s v used, decode s.bytes = some (v, used) → r s = .ok (v, s.drop used))
    (herror : ∀ s, decode s.bytes = none → r s = .error (Read.short 1 s)) :
    leb128 decode = attempt r := by
  funext c
  rw [leb128]
  cases h : decode c.span.bytes with
  | none => exact (attempt_of_error (herror _ h)).symm
  | some p => exact (attempt_of_ok (hok _ p.1 p.2 h)).symm

theorem uleb128_eq_attempt : leb128 Leb128.decodeUnsigned = attempt Read.uleb128 :=
  leb128_eq_attempt (fun _ _ used h ↦ Read.uleb128_eq_ok_iff.mpr ⟨used, h, rfl⟩)
    fun _ h ↦ Read.uleb128_eq_error_iff.mpr ⟨h, rfl⟩

theorem sleb128_eq_attempt : leb128 Leb128.decodeSigned = attempt Read.sleb128 :=
  leb128_eq_attempt (fun _ _ used h ↦ Read.sleb128_eq_ok_iff.mpr ⟨used, h, rfl⟩)
    fun _ h ↦ Read.sleb128_eq_error_iff.mpr ⟨h, rfl⟩

theorem value_eq_attempt (stray : Cursor → ℕ → ℕ) (addressSize : UInt8) (format : ValueFormat) :
    value stray addressSize format = attempt (format.read addressSize) := by
  cases format <;>
    simp only [value, ValueFormat.read, unsigned_eq_attempt, signed_eq_attempt, uleb128_eq_attempt,
      sleb128_eq_attempt, attempt_map]

theorem pointer_eq_attempt (stray : Cursor → ℕ → ℕ) (e : PointerEncoding) (addressSize : UInt8) :
    pointer stray e addressSize = attempt (e.read addressSize) := by
  rw [pointer, PointerEncoding.read]
  split
  · rfl
  · cases e.format? with
    | none => rfl
    | some format => simp only [value_eq_attempt, attempt_map]

end CursorAction

/-- **The actions are the reads**, wherever an exact read that fails has strayed to. -/
theorem CursorField.act_eq_attempt (stray : Cursor → ℕ → ℕ) (f : CursorField) :
    f.act stray = CursorAction.attempt f.read := by
  cases f <;>
    simp only [act, read, CursorAction.attempt_map, CursorAction.byte_eq_attempt,
      CursorAction.unsigned_eq_attempt, CursorAction.signed_eq_attempt,
      CursorAction.text_eq_attempt, CursorAction.uleb128_eq_attempt,
      CursorAction.sleb128_eq_attempt, CursorAction.pointer_eq_attempt]

/-! ## The bytes of a value -/

/-- The bytes are a value of the format and nothing else. -/
def ValueFormat.Spells (addressSize : UInt8) (bytes : List UInt8) (value : UInt64)
    (format : ValueFormat) : Prop :=
  format.HasFields addressSize ∧ format.Begins addressSize bytes value bytes.length

/-- The bytes make up the value of a field. -/
inductive CursorField.Spells : CursorField → List UInt8 → CursorValue → Prop
  | byte (b : UInt8) : Spells .byte [b] (.byte b)
  | unsigned {width : UInt8} {bytes : List UInt8} {v : UInt64} (hw : Read.isWidth width = true)
      (hlength : bytes.length = width.toNat) (hv : v.toNat = LittleEndian.toNat bytes) :
      Spells (.unsigned width) bytes (.unsigned v)
  | signed {width : UInt8} {bytes : List UInt8} {v : Int64}
      (hw : Read.isWidth width = true ∧ width ≠ 1) (hlength : bytes.length = width.toNat)
      (hv : v.toInt = LittleEndian.signExtended width.toNat (LittleEndian.toNat bytes)) :
      Spells (.signed width) bytes (.signed v)
  | text {bytes : List UInt8} (h : ∀ b ∈ bytes, b ≠ 0) : Spells .text (bytes ++ [0]) (.bytes bytes)
  | uleb128 {bytes : List UInt8} {v : UInt64} (h : Leb128.Spells bytes v) :
      Spells .uleb128 bytes (.unsigned v)
  | sleb128 {bytes : List UInt8} {v : Int64} (h : Leb128.SpellsSigned bytes v) :
      Spells .sleb128 bytes (.signed v)
  | omitted (addressSize : UInt8) : Spells (.pointer .omitted addressSize) [] (.pointer none)
  | pointer {e : PointerEncoding} {addressSize : UInt8} {bytes : List UInt8} {v : UInt64}
      {format : ValueFormat} (hformat : e.format? = some format)
      (h : format.Spells addressSize bytes v) : Spells (.pointer e addressSize) bytes (.pointer v)

/-- A success has read its front, and would have read it alone. -/
theorem Read.Forward.alone {α : Type} {record : ℕ} {r : Read α} (h : Read.Forward record r)
    {s t : Span} {a : α} (hr : r s = .ok (a, t)) :
    ∃ front, s.bytes = front ++ t.bytes ∧ t.offset = s.offset + front.length ∧
      r ⟨s.offset, front⟩ = .ok (a, ⟨s.offset + front.length, []⟩) := by
  obtain ⟨front, hs, ht, htakes⟩ := h.exists_front hr
  have halone := htakes []
  rw [List.append_nil] at halone
  exact ⟨front, congrArg Span.bytes hs, congrArg Span.offset ht, halone⟩

/-- Where nothing is left, all bytes have been dropped. -/
theorem Span.length_eq_of_drop {offset n : ℕ} {bytes : List UInt8}
    (h : (⟨offset + bytes.length, []⟩ : Span) = Span.drop n ⟨offset, bytes⟩) :
    bytes.length = n := by
  have hoffset := congrArg Span.offset h
  simp only [Span.drop] at hoffset
  omega

namespace CursorField

variable {f : CursorField} {offset : ℕ} {bytes : List UInt8} {v : CursorValue}

theorem forward_read {record : ℕ} (f : CursorField) : Read.Forward record f.read := by
  cases f with
  | byte => exact Read.forward_byte.map _
  | unsigned width => exact (Read.forward_unsigned width).map _
  | signed width => exact (Read.forward_signed width).map _
  | text => exact Read.forward_zeroTerminated.map _
  | uleb128 => exact Read.forward_uleb128.map _
  | sleb128 => exact Read.forward_sleb128.map _
  | pointer e addressSize => exact (PointerEncoding.forward_read e addressSize).map _

/-- Bytes that are read whole make up the value. -/
theorem spells_of_read (h : f.read ⟨offset, bytes⟩ = .ok (v, ⟨offset + bytes.length, []⟩)) :
    f.Spells bytes v := by
  cases f with
  | byte =>
    obtain ⟨b, hb, rfl⟩ := Read.map_eq_ok_iff.mp h
    obtain ⟨hbytes, -⟩ := Read.byte_eq_ok_iff.mp hb
    obtain rfl : bytes = [b] := hbytes
    exact .byte b
  | unsigned width =>
    obtain ⟨n, hn, rfl⟩ := Read.map_eq_ok_iff.mp h
    obtain ⟨hw, -, hvalue, hdrop⟩ := Read.unsigned_eq_ok_iff.mp hn
    have hlength := Span.length_eq_of_drop hdrop
    rw [← hlength, List.take_length] at hvalue
    exact .unsigned hw hlength hvalue
  | signed width =>
    obtain ⟨n, hn, rfl⟩ := Read.map_eq_ok_iff.mp h
    obtain ⟨hw, -, hvalue, hdrop⟩ := Read.signed_eq_ok_iff.mp hn
    have hlength := Span.length_eq_of_drop hdrop
    rw [← hlength, List.take_length, hlength] at hvalue
    exact .signed hw hlength hvalue
  | text =>
    obtain ⟨text, htext, rfl⟩ := Read.map_eq_ok_iff.mp h
    obtain ⟨hne, hbytes, -⟩ := Read.zeroTerminated_eq_ok_iff.mp htext
    obtain rfl : bytes = text ++ [0] := hbytes.trans (List.append_nil _)
    exact .text hne
  | uleb128 =>
    obtain ⟨n, hn, rfl⟩ := Read.map_eq_ok_iff.mp h
    obtain ⟨used, hdecode, hdrop⟩ := Read.uleb128_eq_ok_iff.mp hn
    obtain rfl := Span.length_eq_of_drop hdrop
    exact .uleb128 hdecode
  | sleb128 =>
    obtain ⟨n, hn, rfl⟩ := Read.map_eq_ok_iff.mp h
    obtain ⟨used, hdecode, hdrop⟩ := Read.sleb128_eq_ok_iff.mp hn
    obtain rfl := Span.length_eq_of_drop hdrop
    exact .sleb128 hdecode
  | pointer e addressSize =>
    obtain ⟨p, hp, rfl⟩ := Read.map_eq_ok_iff.mp h
    rcases PointerEncoding.read_eq_ok_iff.mp hp with
      ⟨rfl, rfl, hspan⟩ | ⟨format, value, hformat, rfl, hvalue⟩
    · obtain rfl : [] = bytes := congrArg Span.bytes hspan
      exact .omitted addressSize
    · obtain ⟨hfields, used, hbegins, hdrop⟩ := ValueFormat.read_eq_ok_iff.mp hvalue
      obtain rfl := Span.length_eq_of_drop hdrop
      exact .pointer hformat ⟨hfields, hbegins⟩

/-- A failure is that of a read that names where it began, or of a width or format that there is
not. -/
theorem place_of_read {s : Span} {place n : ℕ} (h : f.read s = .error (.truncatedRead place n)) :
    place = s.offset := by
  have hshort : ∀ {m : ℕ}, Error.truncatedRead place n = Read.short m s → place = s.offset := by
    rintro m ⟨⟩
    rfl
  cases f with
  | byte => exact hshort (Read.byte_eq_error_iff.mp (Read.map_eq_error_iff.mp h)).2
  | unsigned width =>
    rcases Read.unsigned_eq_error_iff.mp (Read.map_eq_error_iff.mp h) with ⟨-, ⟨⟩⟩ | ⟨-, -, he⟩
    exact hshort he
  | signed width =>
    rcases Read.signed_eq_error_iff.mp (Read.map_eq_error_iff.mp h) with ⟨-, ⟨⟩⟩ | ⟨-, -, he⟩
    exact hshort he
  | text => exact hshort (Read.zeroTerminated_eq_error_iff.mp (Read.map_eq_error_iff.mp h)).2
  | uleb128 => exact hshort (Read.uleb128_eq_error_iff.mp (Read.map_eq_error_iff.mp h)).2
  | sleb128 => exact hshort (Read.sleb128_eq_error_iff.mp (Read.map_eq_error_iff.mp h)).2
  | pointer e addressSize =>
    rcases PointerEncoding.read_eq_error_iff.mp (Read.map_eq_error_iff.mp h) with
      ⟨-, -, ⟨⟩⟩ | ⟨format, -, hread⟩
    rcases ValueFormat.read_eq_error_iff.mp hread with ⟨-, ⟨⟩⟩ | ⟨-, -, he⟩
    exact hshort he

end CursorField

/-! ## One step -/

namespace CursorOp

/-- The bytes make up what a step reads; moving reads nothing. -/
def Spells : CursorOp → List UInt8 → CursorValue → Prop
  | field f, bytes, v => f.Spells bytes v
  | rest, bytes, v => v = .bytes bytes
  | seek _, _, _ => False

/-- A step that goes to a position goes to one that is not behind the bytes. -/
def SeeksWithin (length : ℕ) : CursorOp → Prop
  | seek position => position ≤ length
  | _ => True

end CursorOp

/-- A step of a cursor, as it was made. -/
structure CursorMove where
  /-- The step. -/
  op : CursorOp
  /-- The cursor it began at. -/
  start : Cursor
  /-- What it gave. -/
  result : Except Error CursorValue
  /-- The cursor it left. -/
  stop : Cursor

/-- The bytes between the two positions. -/
def CursorMove.passed (m : CursorMove) : List UInt8 :=
  (m.start.data.take m.stop.position).drop m.start.position

/-- A move along bytes: it stays on them, and what it has read is what it has passed. -/
structure CursorMove.IsExact (data : List UInt8) (m : CursorMove) : Prop where
  start_eq : m.start.data = data
  stop_eq : m.stop.data = data
  start_le : m.start.position ≤ data.length
  stop_le : m.stop.position ≤ data.length
  /-- A failure has moved nothing, and what was missed was missed where it began. -/
  stays : ∀ e, m.result = .error e →
    m.stop = m.start ∧ ∀ place n, e = .truncatedRead place n → place = m.start.position
  /-- A value that was read is made up of the bytes between the two positions. -/
  takes : ∀ v, m.result = .ok v → (∀ position, m.op ≠ .seek position) →
    m.op.Spells m.passed v ∧ m.stop.position = m.start.position + m.passed.length

namespace CursorOp

variable {stray : Cursor → ℕ → ℕ} {op : CursorOp} {c d : Cursor} {v : CursorValue} {e : Error}

/-- **A step that fails has moved nothing**, and bytes that are missed are missed where it began. -/
theorem stays_of_error (h : op.act stray c = (.error e, d)) :
    d = c ∧ ∀ place n, e = .truncatedRead place n → place = c.position := by
  cases op with
  | field f =>
    rw [act, f.act_eq_attempt] at h
    obtain ⟨hread, rfl⟩ := CursorAction.attempt_eq_error_iff.mp h
    refine ⟨rfl, ?_⟩
    rintro place n rfl
    exact CursorField.place_of_read hread
  | rest => cases h
  | seek position => cases h

/-- A field that was read lies between the two positions. -/
theorem passed_of_field {f : CursorField} (h : f.act stray c = (.ok v, d)) :
    d.data = c.data ∧ ∃ bytes tail, c.data.drop c.position = bytes ++ tail ∧
      d.position = c.position + bytes.length ∧ f.Spells bytes v := by
  rw [f.act_eq_attempt] at h
  obtain ⟨t, hread, rfl⟩ := CursorAction.attempt_eq_ok_iff.mp h
  have hforward : Read.Forward 0 f.read := f.forward_read
  obtain ⟨bytes, hbytes, hoffset, halone⟩ := hforward.alone hread
  exact ⟨rfl, bytes, t.bytes, hbytes, hoffset, CursorField.spells_of_read halone⟩

/-- A step keeps the bytes and does not go behind them. -/
theorem within_of_act {r : Except Error CursorValue} (hc : c.position ≤ c.length)
    (hop : op.SeeksWithin c.length) (h : op.act stray c = (r, d)) :
    d.data = c.data ∧ d.position ≤ c.length := by
  cases r with
  | error e =>
    obtain ⟨rfl, -⟩ := stays_of_error h
    exact ⟨rfl, hc⟩
  | ok v =>
    cases op with
    | field f =>
      obtain ⟨hdata, bytes, tail, hdrop, hposition, -⟩ := passed_of_field h
      have hlength := congrArg List.length hdrop
      rw [List.length_drop, List.length_append] at hlength
      refine ⟨hdata, ?_⟩
      rw [Cursor.length] at hc ⊢
      omega
    | rest =>
      cases h
      exact ⟨rfl, le_rfl⟩
    | seek position =>
      cases h
      exact ⟨rfl, hop⟩

/-- **What a step has read** are the bytes that it has passed. -/
theorem spells_of_act (hc : c.position ≤ c.length) (hop : ∀ position, op ≠ seek position)
    (h : op.act stray c = (.ok v, d)) :
    let passed := CursorMove.passed ⟨op, c, .ok v, d⟩
    op.Spells passed v ∧ d.position = c.position + passed.length := by
  have hpassed : ∀ bytes tail, c.data.drop c.position = bytes ++ tail →
      d.position = c.position + bytes.length →
      CursorMove.passed ⟨op, c, .ok v, d⟩ = bytes := by
    intro bytes tail hdrop hposition
    rw [CursorMove.passed, List.drop_take, hdrop, hposition, Nat.add_sub_cancel_left,
      List.take_left]
  cases op with
  | field f =>
    obtain ⟨-, bytes, tail, hdrop, hposition, hspells⟩ := passed_of_field h
    rw [hpassed bytes tail hdrop hposition]
    exact ⟨hspells, hposition⟩
  | rest =>
    cases h
    have hposition : c.length = c.position + (c.data.drop c.position).length := by
      rw [List.length_drop, ← Cursor.length]
      omega
    rw [hpassed _ [] (List.append_nil _).symm hposition]
    exact ⟨rfl, hposition⟩
  | seek position => exact absurd rfl (hop position)

/-! ## Many steps -/

/-- The steps one after the other, each at the cursor that the one before has left. -/
def history (stray : Cursor → ℕ → ℕ) : List CursorOp → Cursor → List CursorMove
  | [], _ => []
  | op :: ops, c =>
    let (result, d) := op.act stray c
    ⟨op, c, result, d⟩ :: history stray ops d

theorem history_cons (op : CursorOp) (ops : List CursorOp) (c : Cursor) :
    history stray (op :: ops) c
      = ⟨op, c, (op.act stray c).1, (op.act stray c).2⟩ :: history stray ops (op.act stray c).2 :=
  rfl

theorem isExact_of_act (hc : c.position ≤ c.length) (hop : op.SeeksWithin c.length) :
    CursorMove.IsExact c.data ⟨op, c, (op.act stray c).1, (op.act stray c).2⟩ where
  start_eq := rfl
  stop_eq := (within_of_act hc hop Prod.mk.eta.symm).1
  start_le := hc
  stop_le := (within_of_act hc hop Prod.mk.eta.symm).2
  stays e he := stays_of_error (Prod.ext he rfl : op.act stray c = (.error e, _))
  takes v hv hne := spells_of_act hc hne (Prod.ext hv rfl : op.act stray c = (.ok v, _))

/-- Along steps whose seeks stay on the bytes every step is a move along the bytes. -/
theorem isExact_of_mem_history {ops : List CursorOp} (hc : c.position ≤ c.length)
    (hops : ∀ op ∈ ops, op.SeeksWithin c.length) {m : CursorMove}
    (hm : m ∈ history stray ops c) : m.IsExact c.data := by
  induction ops generalizing c with
  | nil => cases hm
  | cons op ops ih =>
    have hop := hops op List.mem_cons_self
    obtain ⟨hdata, hposition⟩ := within_of_act hc hop (Prod.mk.eta (p := op.act stray c)).symm
    have hlength : (op.act stray c).2.length = c.length := congrArg List.length hdata
    rw [history_cons, List.mem_cons] at hm
    rcases hm with rfl | hm
    · exact isExact_of_act hc hop
    · rw [← hdata]
      refine ih (hlength ▸ hposition) (fun op' hop' ↦ ?_) hm
      rw [hlength]
      exact hops op' (List.mem_cons_of_mem op hop')

/-- **Steps of a cursor.** A step that fails has moved nothing, and bytes that are missed are missed
where it began, also past the end. Steps that begin on the bytes and are not sent behind them stay
on them, and every value that is read is made up of the bytes that are passed. Whatever stands
behind the bound of a cursor, the same steps give the same, also those that are sent past it. -/
theorem history_isExact :
    (∀ (stray : Cursor → ℕ → ℕ) (c d : Cursor) (op : CursorOp) (e : Error),
      op.act stray c = (.error e, d) →
        d = c ∧ ∀ place n, e = .truncatedRead place n → place = c.position) ∧
      (∀ (stray : Cursor → ℕ → ℕ) (ops : List CursorOp) (c : Cursor), c.position ≤ c.length →
        (∀ op ∈ ops, op.SeeksWithin c.length) →
          ∀ m ∈ history stray ops c, m.IsExact c.data) ∧
      ∀ (stray : Cursor → ℕ → ℕ) (ops : List CursorOp) (a b : List UInt8) (start stop : ℕ),
        a.take stop = b.take stop →
          history stray ops (Cursor.bounded a start stop)
            = history stray ops (Cursor.bounded b start stop) := by
  refine ⟨fun _ _ _ _ _ h ↦ stays_of_error h, ?_, ?_⟩
  · intro stray ops c hc hops m hm
    exact isExact_of_mem_history hc hops hm
  · intro stray ops a b start stop h
    rw [Cursor.bounded_congr h]

/-- A number that is cut off is put back, wherever its read has strayed to, and what stands behind
the bound of the cursor is not seen. -/
theorem history_isExact_cutOff :
    let stray (c : Cursor) (_ : ℕ) := c.length
    let ops : List CursorOp :=
      [.seek 1, .field (.signed 4), .field (.unsigned 2), .field .byte]
    let c := Cursor.ofBytes [0xaa, 0xbb, 0xcc]
    (history stray ops c).map (fun m ↦ (m.result, m.stop.position)) =
        [(.ok .moved, 1), (.error (.truncatedRead 1 4), 1), (.ok (.unsigned 0xccbb), 3),
          (.error (.truncatedRead 3 1), 3)] ∧
      (field (.signed 4)).act stray ⟨c.data, 1⟩ = (.error (.truncatedRead 1 4), ⟨c.data, 1⟩) ∧
      (∀ m ∈ history stray ops c, m.IsExact c.data) ∧
      history stray ops (Cursor.bounded [0xaa, 0xbb, 0xcc, 0xdd] 0 3) =
        history stray ops (Cursor.bounded [0xaa, 0xbb, 0xcc, 0xee] 0 3) := by
  intro stray ops c
  obtain ⟨hstays, hexact, hbounded⟩ := history_isExact
  have hcut : ((field (.signed 4)).act stray ⟨c.data, 1⟩).1 = .error (.truncatedRead 1 4) := rfl
  have hback := (hstays stray ⟨c.data, 1⟩ _ _ _ (Prod.ext hcut rfl)).1
  refine ⟨rfl, Prod.ext hcut hback, ?_, hbounded stray ops _ _ 0 3 rfl⟩
  refine hexact stray ops c (Nat.zero_le _) fun op hop ↦ ?_
  simp only [ops, List.mem_cons, List.not_mem_nil, or_false] at hop
  rcases hop with rfl | rfl | rfl | rfl
  · exact Nat.le_of_ble_eq_true rfl
  · trivial
  · trivial
  · trivial

end CursorOp

end ElfUnwind
