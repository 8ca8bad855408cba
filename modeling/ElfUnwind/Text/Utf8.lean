/-!
# Reading bytes as UTF-8

Names and augmentation strings are byte strings that are shown as text. Well-formed sequences give
their characters; every maximal piece of a sequence that breaks off gives one replacement character,
and so does every byte that starts no sequence.

The reader goes through the bytes once. Its state is the sequence that is still open, if any, so the
byte that breaks a sequence is looked at again as the possible start of the next one.
-/

namespace ElfUnwind.Text.Utf8

/-- What stands for bytes that are no character. -/
def replacement : Char := '\ufffd'

/-- A sequence that still lacks `due` bytes. -/
structure Open where
  /-- Bytes still to come, at least one. -/
  due : Nat
  /-- The least value the next byte may have. -/
  low : UInt8
  /-- The greatest value the next byte may have. -/
  high : UInt8
  /-- The value built from the bytes read so far. -/
  bits : Nat
  deriving DecidableEq, Repr

/-- The state between two bytes: `none` between characters. -/
abbrev State := Option Open

/-- The state after a byte that stands where a character may start, with what it gives at once. -/
def start (b : UInt8) : List Char × State :=
  let n := b.toNat
  if b < 0x80 then ([Char.ofNat n], none)
  -- A byte inside a sequence, or the start of two bytes for a character of one.
  else if b < 0xc2 then ([replacement], none)
  else if b < 0xe0 then ([], some ⟨1, 0x80, 0xbf, n % 0x20⟩)
  -- The second byte is narrowed where a shorter form, a surrogate or a number past the last exists.
  else if b = 0xe0 then ([], some ⟨2, 0xa0, 0xbf, n % 0x10⟩)
  else if b = 0xed then ([], some ⟨2, 0x80, 0x9f, n % 0x10⟩)
  else if b < 0xf0 then ([], some ⟨2, 0x80, 0xbf, n % 0x10⟩)
  else if b = 0xf0 then ([], some ⟨3, 0x90, 0xbf, n % 0x08⟩)
  else if b < 0xf4 then ([], some ⟨3, 0x80, 0xbf, n % 0x08⟩)
  else if b = 0xf4 then ([], some ⟨3, 0x80, 0x8f, n % 0x08⟩)
  else ([replacement], none)

/-- The state after one more byte, with the characters that are settled by it. -/
def step : State → UInt8 → List Char × State
  | none, b => start b
  | some s, b =>
    if s.low ≤ b ∧ b ≤ s.high then
      let bits := s.bits * 0x40 + b.toNat % 0x40
      if s.due ≤ 1 then ([Char.ofNat bits], none)
      else ([], some ⟨s.due - 1, 0x80, 0xbf, bits⟩)
    else
      -- The byte ends the open sequence, and may itself begin one.
      let next := start b
      (replacement :: next.1, next.2)

/-- The characters of the bytes that follow a state. -/
def decodeFrom : State → List UInt8 → List Char
  | none, [] => []
  | some _, [] => [replacement]
  | s, b :: bs => (step s b).1 ++ decodeFrom (step s b).2 bs

/-- The text of a byte string, with a replacement character for each piece that is no character. -/
def decode (bytes : List UInt8) : String := String.ofList (decodeFrom none bytes)

@[simp]
theorem toList_decode (bytes : List UInt8) : (decode bytes).toList = decodeFrom none bytes := by
  simp [decode]

theorem decodeFrom_nil_none : decodeFrom none [] = [] := rfl

/-- Bytes below 128 are the characters of those numbers. -/
theorem decodeFrom_ascii {bytes : List UInt8} (h : ∀ b ∈ bytes, b < 0x80) :
    decodeFrom none bytes = bytes.map fun b => Char.ofNat b.toNat := by
  induction bytes with
  | nil => rfl
  | cons b bs ih =>
    have hb : b < 0x80 := h b List.mem_cons_self
    have hs : start b = ([Char.ofNat b.toNat], none) := by simp [start, hb]
    simp [decodeFrom, step, hs, ih fun c hc => h c (List.mem_cons_of_mem _ hc)]

-- A sequence that breaks off is one piece; a surrogate's bytes are three; an overlong form is two.
example : decodeFrom none [0xe2, 0x82] = [replacement] := by decide
example : decodeFrom none [0xf0, 0x9f, 0x98] = [replacement] := by decide
example : decodeFrom none [0xed, 0xa0, 0x80] = [replacement, replacement, replacement] := by decide
example : decodeFrom none [0xc0, 0x80] = [replacement, replacement] := by decide
example : decodeFrom none [0xe2, 0x82, 0xac, 0x41] = ['€', 'A'] := by decide

end ElfUnwind.Text.Utf8
