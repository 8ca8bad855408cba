import ElfUnwind.Bytes.Span

/-!
# A movable position

A cursor is a position over bytes that are all at hand. Unlike a span it can be moved anywhere, past
the end too, where every read fails. Reading is reading from the span at the position; the bytes
stay, and the position goes to where that span's rest begins.
-/

namespace ElfUnwind

/-- A position over bytes. -/
structure Cursor where
  /-- All bytes that can be reached. -/
  data : List UInt8
  /-- The offset of the next byte to read, which may lie past the end. -/
  position : Nat
  deriving DecidableEq, Repr

namespace Cursor

/-- At the front of the bytes. -/
def ofBytes (data : List UInt8) : Cursor := ⟨data, 0⟩

/-- At `start`, over the bytes before `stop`. -/
def bounded (data : List UInt8) (start stop : Nat) : Cursor := ⟨data.take stop, start⟩

/-- How many bytes can be reached. -/
def length (c : Cursor) : Nat := c.data.length

/-- Whether there are no bytes. -/
def isEmpty (c : Cursor) : Bool := c.data.isEmpty

/-- How many bytes lie at or after the position. -/
def remaining (c : Cursor) : Nat := c.data.length - c.position

/-- The unread bytes. -/
def span (c : Cursor) : Span := ⟨c.position, c.data.drop c.position⟩

/-- Moves to a position. -/
def seek (position : Nat) (c : Cursor) : Cursor := { c with position }

/-- Reads at the position: the value and the cursor after it. -/
def read {α : Type} (r : Read α) (c : Cursor) : Except Error (α × Cursor) :=
  (r c.span).map fun (value, s) => (value, c.seek s.offset)

/-- All unread bytes; the position goes to the end, also from past it. -/
def readRest (c : Cursor) : List UInt8 × Cursor := (c.span.bytes, c.seek c.length)

@[simp]
theorem length_span_bytes (c : Cursor) : c.span.bytes.length = c.remaining := by
  simp [span, remaining]

@[simp]
theorem data_seek (position : Nat) (c : Cursor) : (c.seek position).data = c.data := rfl

@[simp]
theorem position_seek (position : Nat) (c : Cursor) : (c.seek position).position = position := rfl

/-- A read depends on the unread bytes only. -/
theorem read_eq_ok_iff {α : Type} {r : Read α} {c d : Cursor} {value : α} :
    c.read r = .ok (value, d) ↔ ∃ s, r c.span = .ok (value, s) ∧ d = c.seek s.offset := by
  unfold read
  cases h : r c.span with
  | error e => simp [Except.map]
  | ok p =>
    constructor
    · rintro ⟨⟩
      exact ⟨p.2, rfl, rfl⟩
    · rintro ⟨s, ⟨⟩, rfl⟩
      rfl

/-- Bytes from the bound on cannot be seen. -/
theorem bounded_congr {a b : List UInt8} {stop : Nat} (h : a.take stop = b.take stop)
    (start : Nat) : bounded a start stop = bounded b start stop := by
  simp [bounded, h]

end Cursor

end ElfUnwind
