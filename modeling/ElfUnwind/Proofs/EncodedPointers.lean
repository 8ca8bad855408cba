import ElfUnwind.Proofs.CursorSteps

/-!
# Pointers at a cursor

What reading a pointer at a cursor does is settled by its encoding, the size of an address and the
bytes from the position on (`PointerEncoding.IsRead`): the omitted pointer is read from no bytes, an
undefined format and a size that no field has are refused, and in all other cases the value is what
the bytes begin with, or they end before it does. Only a value that was read moves the cursor.

The low half of the encoding names the format, and nothing else of it has a say: two encodings that
agree there are read alike, unless one of them is the omitted one.
-/

namespace ElfUnwind

open CursorAction

theorem Read.isWidth_iff {width : UInt8} :
    isWidth width = true ↔ width.toNat ∈ [1, 2, 4, 8] := by
  simp only [isWidth, Bool.or_eq_true, decide_eq_true_eq, ← UInt8.toNat_inj, List.mem_cons,
    List.not_mem_nil, or_false, or_assoc]
  rfl

/-! ## The low half of an encoding -/

namespace PointerEncoding

variable {e f : PointerEncoding} {addressSize : UInt8}

/-- The low halves that name a format. -/
def namedNibbles : List ℕ := [0, 1, 2, 3, 4, 9, 10, 11, 12]

theorem toNat_nibble (e : PointerEncoding) : e.nibble.toNat = e.byte.toNat % 16 := by
  rw [nibble, UInt8.toNat_and]
  exact Nat.and_two_pow_sub_one_eq_mod _ 4

theorem ofNibble?_eq_none_iff {n : UInt8} (hn : n.toNat < 16) :
    ValueFormat.ofNibble? n = none ↔ n.toNat ∉ namedNibbles := by
  rw [ValueFormat.ofNibble?]
  generalize n.toNat = m at hn
  interval_cases m <;> decide

theorem ofNibble?_eq_absptr_iff {n : UInt8} (hn : n.toNat < 16) :
    ValueFormat.ofNibble? n = some .absptr ↔ n.toNat = 0 := by
  rw [ValueFormat.ofNibble?]
  generalize n.toNat = m at hn
  interval_cases m <;> decide

theorem toNat_nibble_lt (e : PointerEncoding) : e.nibble.toNat < 16 := by
  rw [toNat_nibble]
  exact Nat.mod_lt _ (by decide)

theorem format?_eq_none_iff : e.format? = none ↔ e.byte.toNat % 16 ∉ namedNibbles := by
  rw [← toNat_nibble]
  exact ofNibble?_eq_none_iff e.toNat_nibble_lt

theorem format?_eq_absptr_iff : e.format? = some .absptr ↔ e.byte.toNat % 16 = 0 := by
  rw [← toNat_nibble]
  exact ofNibble?_eq_absptr_iff e.toNat_nibble_lt

theorem eq_omitted_iff : e = omitted ↔ e.byte = 0xff := by
  constructor
  · rintro rfl
    rfl
  · intro h
    exact congrArg PointerEncoding.mk h

/-! ## What reading does -/

/-- What reading a pointer at `c` has given, and the cursor `d` that it has left. -/
structure IsRead (e : PointerEncoding) (addressSize : UInt8) (c : Cursor)
    (r : Except Error (Option UInt64)) (d : Cursor) : Prop where
  omitted_iff : r = .ok none ↔ e.byte = 0xff
  invalid_iff : ∀ byte, r = .error (.invalidPointerEncoding byte) ↔
    byte = e.byte ∧ e.byte ≠ 0xff ∧ e.byte.toNat % 16 ∉ namedNibbles
  unsupported_iff : ∀ width, r = .error (.unsupportedWidth width) ↔
    width = addressSize ∧ e.byte.toNat % 16 = 0 ∧ addressSize.toNat ∉ [1, 2, 4, 8]
  /-- Otherwise it succeeds exactly if the bytes do not end too early. -/
  exists_iff : ∀ format, e.format? = some format → format.HasFields addressSize →
    ((∃ value, r = .ok (some value)) ↔ ¬format.IsCutOff addressSize c.span.bytes)
  /-- The value is what the bytes begin with, and exactly its bytes are taken. -/
  value_iff : ∀ format value, e.format? = some format → format.HasFields addressSize →
    (r = .ok (some value) ↔ ∃ used, format.Begins addressSize c.span.bytes value used ∧
      d = c.seek (c.position + used))
  /-- Where the bytes end too early, that is what it says. -/
  cutOff : ∀ format, e.format? = some format → format.HasFields addressSize →
    format.IsCutOff addressSize c.span.bytes →
      r = .error (.truncatedRead c.position (format.wanted addressSize))
  /-- Nothing but a value moves the cursor. -/
  stays : (∀ value, r ≠ .ok (some value)) → d = c

variable {s t : Span} {error : Error} {format : ValueFormat} {value : UInt64}

theorem read_eq_none_iff : (∃ t, e.read addressSize s = .ok (none, t)) ↔ e.byte = 0xff := by
  simp only [read_eq_ok_iff, ← eq_omitted_iff, true_and, reduceCtorEq, false_and, and_false,
    exists_false, or_false, exists_and_left, exists_eq, and_true]

theorem read_eq_invalid_iff {byte : UInt8} :
    e.read addressSize s = .error (.invalidPointerEncoding byte) ↔
      byte = e.byte ∧ e.byte ≠ 0xff ∧ e.byte.toNat % 16 ∉ namedNibbles := by
  rw [read_eq_error_iff, ← format?_eq_none_iff, ne_eq, ne_eq, eq_omitted_iff]
  simp only [ValueFormat.read_eq_error_iff, Read.short, reduceCtorEq, and_false, or_self,
    exists_false, or_false, Error.invalidPointerEncoding.injEq]
  tauto

/-- Only for addresses there may be no field. -/
theorem not_hasFields_iff :
    ¬format.HasFields addressSize ↔ format = .absptr ∧ addressSize.toNat ∉ [1, 2, 4, 8] := by
  rw [ValueFormat.HasFields, Classical.not_imp, Read.isWidth_iff]

theorem read_eq_unsupported_iff {width : UInt8} :
    e.read addressSize s = .error (.unsupportedWidth width) ↔
      width = addressSize ∧ e.byte.toNat % 16 = 0 ∧ addressSize.toNat ∉ [1, 2, 4, 8] := by
  rw [read_eq_error_iff, ← format?_eq_absptr_iff]
  simp only [ValueFormat.read_eq_error_iff, not_hasFields_iff, Read.short, reduceCtorEq, and_false,
    or_false, false_or, Error.unsupportedWidth.injEq]
  constructor
  · rintro ⟨format, hformat, ⟨rfl, hsize⟩, rfl⟩
    exact ⟨rfl, hformat, hsize⟩
  · rintro ⟨rfl, hformat, hsize⟩
    exact ⟨_, hformat, ⟨rfl, hsize⟩, rfl⟩

section Format

variable (hformat : e.format? = some format) (hfields : format.HasFields addressSize)

include hformat hfields

theorem read_eq_some_iff :
    e.read addressSize s = .ok (some value, t) ↔
      ∃ used, format.Begins addressSize s.bytes value used ∧ t = s.drop used := by
  rw [read_eq (ne_omitted_of_format? hformat) hformat, Read.map_eq_ok_iff]
  simp only [Option.some.injEq, exists_eq_right', ValueFormat.read_eq_ok_iff, hfields, true_and]

theorem read_eq_short_iff :
    e.read addressSize s = .error error ↔
      format.IsCutOff addressSize s.bytes ∧
        error = .truncatedRead s.offset (format.wanted addressSize) := by
  rw [read_eq (ne_omitted_of_format? hformat) hformat, Read.map_eq_error_iff,
    ValueFormat.read_eq_error_iff]
  simp only [hfields, not_true_eq_false, false_and, true_and, false_or, Read.short]

theorem exists_read_eq_some_iff :
    (∃ value t, e.read addressSize s = .ok (some value, t)) ↔
      ¬format.IsCutOff addressSize s.bytes := by
  constructor
  · rintro ⟨value, t, hread⟩ hcut
    have herror := (read_eq_short_iff hformat hfields).mpr ⟨hcut, rfl⟩
    rw [hread] at herror
    cases herror
  · intro hcut
    cases hread : e.read addressSize s with
    | error error => exact absurd ((read_eq_short_iff hformat hfields).mp hread).1 hcut
    | ok p =>
      obtain ⟨_ | value, t⟩ := p
      · have hbyte := read_eq_none_iff.mp ⟨t, hread⟩
        exact absurd (eq_omitted_iff.mpr hbyte) (ne_omitted_of_format? hformat)
      · exact ⟨value, t, rfl⟩

end Format

/-! ## At a cursor -/

variable {stray : Cursor → ℕ → ℕ} {c : Cursor}

theorem fst_pointer_eq_ok_iff {v : Option UInt64} :
    (pointer stray e addressSize c).1 = .ok v ↔ ∃ t, e.read addressSize c.span = .ok (v, t) := by
  rw [pointer_eq_attempt]
  constructor
  · intro h
    obtain ⟨t, hread, -⟩ := attempt_eq_ok_iff.mp (Prod.ext h rfl)
    exact ⟨t, hread⟩
  · rintro ⟨t, hread⟩
    rw [attempt_of_ok hread]

theorem fst_pointer_eq_error_iff :
    (pointer stray e addressSize c).1 = .error error ↔
      e.read addressSize c.span = .error error := by
  rw [pointer_eq_attempt]
  constructor
  · intro h
    exact (attempt_eq_error_iff.mp (Prod.ext h rfl)).1
  · intro h
    rw [attempt_of_error h]

theorem snd_pointer_of_ok {v : Option UInt64} (h : e.read addressSize c.span = .ok (v, t)) :
    (pointer stray e addressSize c).2 = c.seek t.offset := by
  rw [pointer_eq_attempt, attempt_of_ok h]

theorem snd_pointer_of_error (h : e.read addressSize c.span = .error error) :
    (pointer stray e addressSize c).2 = c := by
  rw [pointer_eq_attempt, attempt_of_error h]

theorem snd_pointer_of_not_some
    (h : ∀ value, (pointer stray e addressSize c).1 ≠ .ok (some value)) :
    (pointer stray e addressSize c).2 = c := by
  cases hread : e.read addressSize c.span with
  | error error => exact snd_pointer_of_error hread
  | ok p =>
    obtain ⟨v, t⟩ := p
    rcases read_eq_ok_iff.mp hread with ⟨-, -, rfl⟩ | ⟨_, value, -, rfl, -⟩
    · exact snd_pointer_of_ok hread
    · exact absurd (fst_pointer_eq_ok_iff.mpr ⟨t, hread⟩) (h value)

theorem isRead_pointer (stray : Cursor → ℕ → ℕ) (e : PointerEncoding) (addressSize : UInt8)
    (c : Cursor) :
    e.IsRead addressSize c (pointer stray e addressSize c).1
      (pointer stray e addressSize c).2 where
  omitted_iff := fst_pointer_eq_ok_iff.trans read_eq_none_iff
  invalid_iff byte := fst_pointer_eq_error_iff.trans read_eq_invalid_iff
  unsupported_iff width := fst_pointer_eq_error_iff.trans read_eq_unsupported_iff
  exists_iff format hformat hfields :=
    (exists_congr fun _ ↦ fst_pointer_eq_ok_iff).trans (exists_read_eq_some_iff hformat hfields)
  value_iff format value hformat hfields := by
    constructor
    · intro h
      obtain ⟨t, hread⟩ := fst_pointer_eq_ok_iff.mp h
      obtain ⟨used, hbegins, rfl⟩ := (read_eq_some_iff hformat hfields).mp hread
      exact ⟨used, hbegins, snd_pointer_of_ok hread⟩
    · rintro ⟨used, hbegins, -⟩
      exact fst_pointer_eq_ok_iff.mpr
        ⟨_, (read_eq_some_iff hformat hfields).mpr ⟨used, hbegins, rfl⟩⟩
  cutOff format hformat hfields hcut :=
    fst_pointer_eq_error_iff.mpr ((read_eq_short_iff hformat hfields).mpr ⟨hcut, rfl⟩)
  stays := snd_pointer_of_not_some

/-- A pointer that was written is read back at its place, and the cursor goes behind it. -/
theorem pointer_write {value : UInt64} (h : e.Stores addressSize value)
    (stray : Cursor → ℕ → ℕ) (before tail : List UInt8) :
    let stored := e.write addressSize value
    let data := before ++ stored ++ tail
    pointer stray e addressSize ⟨data, before.length⟩
      = (.ok (some value), ⟨data, before.length + stored.length⟩) := by
  intro stored data
  have hdrop : data.drop before.length = stored ++ tail := by
    rw [show data = before ++ (stored ++ tail) from List.append_assoc _ _ _, List.drop_left]
  have hspan : Cursor.span ⟨data, before.length⟩ = ⟨before.length, stored ++ tail⟩ :=
    congrArg (Span.mk before.length) hdrop
  rw [pointer_eq_attempt]
  exact attempt_of_ok (hspan ▸ takes_write h before.length tail)

/-- Encodings with the same low half are read alike where it names a format. -/
theorem pointer_congr (h : e.byte.toNat % 16 = f.byte.toNat % 16) (he : e ≠ omitted)
    (hf : f ≠ omitted) :
    pointer stray e addressSize c = pointer stray f addressSize c ∨
      pointer stray e addressSize c = (.error (.invalidPointerEncoding e.byte), c) ∧
        pointer stray f addressSize c = (.error (.invalidPointerEncoding f.byte), c) := by
  have hnibble : e.nibble = f.nibble := by
    rw [← UInt8.toNat_inj, toNat_nibble, toNat_nibble, h]
  have hformats : e.format? = f.format? := format?_congr hnibble
  cases hformat : e.format? with
  | some format =>
    left
    rw [pointer_eq_attempt, pointer_eq_attempt, read_eq he hformat,
      read_eq hf (hformats.symm.trans hformat)]
  | none =>
    right
    simp only [pointer, if_neg he, if_neg hf, hformat, ← hformats]
    exact ⟨rfl, rfl⟩

/-- **Pointers at a cursor.** What reading a pointer does is settled by its encoding, the size of an
address and the bytes from the position on. What was written is read back, whatever stands before
and behind it. Of two encodings with the same low half, neither of which is the omitted one, either
both are read alike or both are refused, each under its own byte. -/
theorem pointer_isRead :
    (∀ (stray : Cursor → ℕ → ℕ) (e : PointerEncoding) (addressSize : UInt8) (c : Cursor),
      e.IsRead addressSize c (pointer stray e addressSize c).1
        (pointer stray e addressSize c).2) ∧
      (∀ (stray : Cursor → ℕ → ℕ) (e : PointerEncoding) (addressSize : UInt8) (value : UInt64)
        (before tail : List UInt8), e.Stores addressSize value →
          let stored := e.write addressSize value
          let data := before ++ stored ++ tail
          pointer stray e addressSize ⟨data, before.length⟩
            = (.ok (some value), ⟨data, before.length + stored.length⟩)) ∧
      ∀ (stray : Cursor → ℕ → ℕ) (e f : PointerEncoding) (addressSize : UInt8) (c : Cursor),
        e.byte.toNat % 16 = f.byte.toNat % 16 → e.byte ≠ 0xff → f.byte ≠ 0xff →
          pointer stray e addressSize c = pointer stray f addressSize c ∨
            pointer stray e addressSize c = (.error (.invalidPointerEncoding e.byte), c) ∧
              pointer stray f addressSize c = (.error (.invalidPointerEncoding f.byte), c) := by
  refine ⟨isRead_pointer, ?_, ?_⟩
  · intro stray e addressSize value before tail h
    exact pointer_write h stray before tail
  · intro stray e f addressSize c h he hf
    rw [ne_eq, ← eq_omitted_iff] at he hf
    exact pointer_congr h he hf

/-- What was written in two bytes is read back with its sign, and what it is relative to makes no
difference to that. -/
theorem pointer_isRead_sdata2 :
    let stray (c : Cursor) (_ : ℕ) := c.length
    let e : PointerEncoding := ⟨0x1a⟩
    e.Stores 8 0xffffffffffff8000 ∧
      pointer stray e 8 ⟨[0xaa, 0x00, 0x80, 0xbb], 1⟩
        = (.ok (some 0xffffffffffff8000), ⟨[0xaa, 0x00, 0x80, 0xbb], 3⟩) ∧
      pointer stray e 8 ⟨[0xaa, 0x00, 0x80, 0xbb], 1⟩
        = pointer stray ⟨0x2a⟩ 8 ⟨[0xaa, 0x00, 0x80, 0xbb], 1⟩ := by
  intro stray e
  obtain ⟨-, hwritten, halike⟩ := pointer_isRead
  have hstores : e.Stores 8 0xffffffffffff8000 := by decide
  have hbytes : e.write 8 0xffffffffffff8000 = [0x00, 0x80] := by decide
  have hread := hwritten stray e 8 0xffffffffffff8000 [0xaa] [0xbb] hstores
  rw [hbytes] at hread
  refine ⟨hstores, hread, ?_⟩
  refine (halike stray e ⟨0x2a⟩ 8 _ (by decide) (by decide) (by decide)).resolve_right fun h ↦ ?_
  cases hread.symm.trans h.1

end PointerEncoding

end ElfUnwind
