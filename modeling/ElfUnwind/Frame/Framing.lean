import ElfUnwind.Bytes.Span

/-!
# Records of a frame section

Every record begins with the length of its body: four bytes, or four bytes of ones and then eight.
`Framing.next` splits the first record off from the length alone, whatever the body holds, so where
a record begins does not depend on how the ones before it are decoded.
-/

namespace ElfUnwind

/-- A record that is not decoded yet. -/
structure RawRecord where
  /-- Where the record begins in its section. -/
  offset : Nat
  /-- Whether its length has the long form. -/
  isWide : Bool
  /-- Its bytes after the length. -/
  body : Span
  deriving DecidableEq, Repr

/-- What stands at the front of the rest of a section. -/
inductive Framing where
  /-- Nothing. -/
  | finished
  /-- A length of zero. -/
  | zeroLength (offset : Nat) (rest : Span)
  /-- A record, and what follows it. -/
  | record (record : RawRecord) (rest : Span)
  /-- No record. -/
  | invalid (cause : Error)
  deriving DecidableEq, Repr

namespace Framing

/-- The length that announces the long form. -/
def escape : UInt64 := 0xffffffff

/-- The length of a record, and whether it has the long form. -/
def lengthField : Read (UInt64 × Bool) := do
  let length ← Read.unsigned 4
  -- In the long form the escape stands before the length and is no part of it.
  if length = escape then
    return (← Read.unsigned 8, true)
  else
    return (length, false)

/-- Splits off what stands at the front. -/
def next (s : Span) : Framing :=
  if s.bytes.isEmpty then finished
  else
    match lengthField s with
    | .error cause => invalid cause
    | .ok ((length, isWide), after) =>
      if length = 0 then zeroLength s.offset after
      else
        -- A body that is cut short is not looked at, whatever its first bytes are.
        let body := after.take length.toNat
        if body.bytes.length = length.toNat then
          record ⟨s.offset, isWide, body⟩ (after.drop length.toNat)
        else
          invalid (.recordOverrun s.offset)

/-! ## Splitting off shortens -/

theorem length_lt_of_bytes {n : Nat} (hn : 0 < n) {s t : Span} {front : List UInt8}
    (h : Read.bytes n s = .ok (front, t)) : t.bytes.length < s.bytes.length := by
  by_cases hle : n ≤ s.bytes.length
  · rw [Read.bytes_of_le hle] at h
    cases h
    simp only [Span.drop, List.length_drop]
    omega
  · rw [Read.bytes_of_gt (by omega)] at h
    cases h

theorem length_lt_of_unsigned {width : UInt8} {s t : Span} {value : UInt64}
    (h : Read.unsigned width s = .ok (value, t)) : t.bytes.length < s.bytes.length := by
  simp only [Read.unsigned] at h
  split at h
  · rename_i hw
    have hpos := Read.isWidth_pos hw
    change (Read.bytes width.toNat s >>= fun p => Except.ok (UInt64.ofNat _, p.2)) = _ at h
    cases hb : Read.bytes width.toNat s with
    | error e => rw [hb] at h; cases h
    | ok p =>
      rw [hb] at h
      cases h
      exact length_lt_of_bytes hpos hb
  · cases h

theorem length_lt_of_lengthField {s t : Span} {value : UInt64 × Bool}
    (h : lengthField s = .ok (value, t)) : t.bytes.length < s.bytes.length := by
  change (Read.unsigned 4 s >>= fun p =>
    (if p.1 = escape then (do return (← Read.unsigned 8, true)) else (pure (p.1, false)) :
      Read (UInt64 × Bool)) p.2) = _ at h
  cases h₁ : Read.unsigned 4 s with
  | error e => rw [h₁] at h; cases h
  | ok p =>
    rw [h₁] at h
    change (if p.1 = escape then (do return (← Read.unsigned 8, true)) else (pure (p.1, false)) :
      Read (UInt64 × Bool)) p.2 = _ at h
    have hp := length_lt_of_unsigned h₁
    split at h
    · change (Read.unsigned 8 p.2 >>= fun q => Except.ok ((q.1, true), q.2)) = _ at h
      cases h₂ : Read.unsigned 8 p.2 with
      | error e => rw [h₂] at h; cases h
      | ok q =>
        rw [h₂] at h
        cases h
        exact Nat.lt_trans (length_lt_of_unsigned h₂) hp
    · cases h
      exact hp

theorem length_lt_of_next_zeroLength {s rest : Span} {offset : Nat}
    (h : next s = zeroLength offset rest) : rest.bytes.length < s.bytes.length := by
  simp only [next] at h
  split at h
  · cases h
  · split at h
    · cases h
    · rename_i length isWide after hl
      split at h
      · cases h
        exact length_lt_of_lengthField hl
      · split at h <;> cases h

theorem length_lt_of_next_record {s rest : Span} {r : RawRecord}
    (h : next s = record r rest) : rest.bytes.length < s.bytes.length := by
  simp only [next] at h
  split at h
  · cases h
  · split at h
    · cases h
    · rename_i length isWide after hl
      split at h
      · cases h
      · split at h
        · cases h
          have := length_lt_of_lengthField hl
          simp only [Span.drop, List.length_drop]
          omega
        · cases h

end Framing

end ElfUnwind
