import ElfUnwind.Bytes.Leb128
import ElfUnwind.Bytes.LittleEndian
import ElfUnwind.Error

/-!
# Reading from a run of bytes

A span is what is still unread of some bytes, with the offset at which it begins. A read takes a
value from the front and leaves the rest; a read that fails takes nothing, as the span it was given
is the only one there is. A span ends where its bytes end, so nothing after that can be seen.
-/

namespace ElfUnwind

/-- Unread bytes and the offset of the first of them. -/
structure Span where
  /-- Where the bytes begin. -/
  offset : Nat
  /-- The bytes up to the end of what may be read. -/
  bytes : List UInt8
  deriving DecidableEq, Repr

namespace Span

/-- The offset just after the last byte. -/
def stop (s : Span) : Nat := s.offset + s.bytes.length

/-- The span without its first `n` bytes. -/
def drop (n : Nat) (s : Span) : Span := ⟨s.offset + n, s.bytes.drop n⟩

/-- The first `n` bytes of the span. -/
def take (n : Nat) (s : Span) : Span := ⟨s.offset, s.bytes.take n⟩

theorem stop_drop {s : Span} {n : Nat} (h : n ≤ s.bytes.length) : (s.drop n).stop = s.stop := by
  simp only [drop, stop, List.length_drop]
  omega

end Span

/-- A read from the front of a span. -/
abbrev Read := StateT Span (Except Error)

namespace Read

/-- The failure of a read that wanted `n` bytes. -/
def short (n : Nat) (s : Span) : Error := .truncatedRead s.offset n

/-- The next `n` bytes. -/
def bytes (n : Nat) : Read (List UInt8) := fun s =>
  let front := s.bytes.take n
  if front.length = n then .ok (front, s.drop n) else .error (short n s)

/-- The next byte. -/
def byte : Read UInt8 := fun s =>
  match s.bytes with
  | [] => .error (short 1 s)
  | b :: bs => .ok (b, ⟨s.offset + 1, bs⟩)

/-- Whether fields of this many bytes exist. -/
def isWidth (width : UInt8) : Bool := width = 1 || width = 2 || width = 4 || width = 8

/-- A little-endian number of `width` bytes. -/
def unsigned (width : UInt8) : Read UInt64 :=
  if isWidth width then do
    return UInt64.ofNat (LittleEndian.toNat (← bytes width.toNat))
  else
    throw (.unsupportedWidth width)

/-- A little-endian number of `width` bytes in two's complement; a single byte is never signed. -/
def signed (width : UInt8) : Read Int64 :=
  if isWidth width ∧ width ≠ 1 then do
    return Int64.ofInt (LittleEndian.signed width.toNat (LittleEndian.toNat (← bytes width.toNat)))
  else
    throw (.unsupportedWidth width)

/-- The bytes up to the next zero byte, which is consumed with them. -/
def zeroTerminated : Read (List UInt8) := fun s =>
  let text := s.bytes.takeWhile (· ≠ 0)
  -- Without a zero byte one more byte than there is was wanted.
  if text.length < s.bytes.length then .ok (text, s.drop (text.length + 1))
  else .error (short (s.bytes.length + 1) s)

/-- An unsigned LEB128 number. -/
def uleb128 : Read UInt64 := fun s =>
  match Leb128.decodeUnsigned s.bytes with
  | none => .error (short 1 s)
  | some (value, used) => .ok (value, s.drop used)

/-- A signed LEB128 number. -/
def sleb128 : Read Int64 := fun s =>
  match Leb128.decodeSigned s.bytes with
  | none => .error (short 1 s)
  | some (value, used) => .ok (value, s.drop used)

/-- Everything that is left. -/
def rest : Read (List UInt8) := fun s => .ok (s.bytes, s.drop s.bytes.length)

/-! ## What each read does -/

theorem isWidth_pos {width : UInt8} (h : isWidth width = true) : 0 < width.toNat := by
  simp only [isWidth, Bool.or_eq_true, decide_eq_true_eq] at h
  rcases h with ((rfl | rfl) | rfl) | rfl <;> decide

theorem bytes_of_le {n : Nat} {s : Span} (h : n ≤ s.bytes.length) :
    bytes n s = .ok (s.bytes.take n, s.drop n) := by
  simp [bytes, Nat.min_eq_left h]

theorem bytes_of_gt {n : Nat} {s : Span} (h : s.bytes.length < n) :
    bytes n s = .error (.truncatedRead s.offset n) := by
  have : ¬ min n s.bytes.length = n := by omega
  simp [bytes, short, this]

/-- Bytes that were put in front are read back, and what follows them is left. -/
theorem bytes_append (offset : Nat) (front tail : List UInt8) :
    bytes front.length ⟨offset, front ++ tail⟩ = .ok (front, ⟨offset + front.length, tail⟩) := by
  rw [bytes_of_le (by simp)]
  simp [Span.drop]

@[simp]
theorem byte_cons (offset : Nat) (b : UInt8) (bs : List UInt8) :
    byte ⟨offset, b :: bs⟩ = .ok (b, ⟨offset + 1, bs⟩) := rfl

@[simp]
theorem byte_nil (offset : Nat) : byte ⟨offset, []⟩ = .error (.truncatedRead offset 1) := rfl

@[simp]
theorem rest_apply (s : Span) : rest s = .ok (s.bytes, s.drop s.bytes.length) := rfl

end Read

end ElfUnwind
