import ElfUnwind.Proofs.JoinedSections
import Mathlib.SetTheory.Cardinal.Finite

/-!
# Address ranges that wrap around

A range is kept by its first address and by the address after its last, and its length is their
difference modulo `2 ^ 64`. Whether an address lies in the range is asked without wrapping around.
The two agree as long as the address after the last can be told: an address lies in the range just
if its distance from the start is less than the length (`Fde.contains_iff_distance_lt`). A range
that comes to the end of all addresses or goes on from zero is found to hold none, though its length
is not zero.

## The reach of a range

The addresses that a range holds are those from its start up to its reach, which is its end unless
that has wrapped around. Statements about several ranges compare their reaches.
-/

namespace ElfUnwind

theorem toNat_add_ofNat_sub (start : UInt64) {i : Nat} (h : i < UInt64.size) :
    (start + UInt64.ofNat i - start).toNat = i := by
  rw [UInt64.add_comm, UInt64.add_sub_cancel, UInt64.toNat_ofNat_of_lt' h]

theorem add_ofNat_toNat_sub (start a : UInt64) :
    start + UInt64.ofNat (a - start).toNat = a := by
  rw [UInt64.ofNat_toNat, UInt64.add_comm, UInt64.sub_add_cancel]

namespace Fde

variable {f : Fde} {a : UInt64}

/-- The first address from the start on that does not lie in the range. -/
def reach (f : Fde) : UInt64 := if f.start ≤ f.stop then f.stop else f.start

theorem start_le_reach (f : Fde) : f.start ≤ f.reach := by
  rw [reach]
  split
  · assumption
  · exact UInt64.le_refl _

theorem contains_iff_reach : f.contains a = true ↔ f.start ≤ a ∧ a < f.reach := by
  rw [contains_iff, reach]
  split
  · rfl
  · rename_i hwraps
    -- Between a start and an end that is not above it there is nothing.
    refine ⟨fun h ↦ ?_, fun h ↦ ?_⟩
    · exact absurd (UInt64.le_of_lt (UInt64.lt_of_le_of_lt h.1 h.2)) hwraps
    · exact absurd (UInt64.lt_of_le_of_lt h.1 h.2) (UInt64.lt_irrefl _)

/-! ## Lengths and distances -/

theorem toNat_length (f : Fde) :
    f.length.toNat = (UInt64.size - f.start.toNat + f.stop.toNat) % UInt64.size :=
  UInt64.toNat_sub f.stop f.start

/-- The end of a range is told by a number that is not below its start just if it can be told. -/
theorem start_le_stop_iff :
    f.start ≤ f.stop ↔ f.start.toNat + f.length.toNat < UInt64.size := by
  have hstart := f.start.toNat_lt
  have hstop := f.stop.toNat_lt
  rw [toNat_length, UInt64.le_iff_toNat_le, UInt64.size]
  omega

theorem toNat_length_of_le (h : f.start ≤ f.stop) :
    f.length.toNat = f.stop.toNat - f.start.toNat :=
  UInt64.toNat_sub_of_le f.stop f.start h

/-- Addresses below the start are further from it than any end is. -/
theorem contains_iff_of_le (h : f.start ≤ f.stop) :
    f.contains a = true ↔ a - f.start < f.length := by
  have ha := a.toNat_lt
  have hstart := f.start.toNat_lt
  have hstop := f.stop.toNat_lt
  rw [contains_iff, UInt64.lt_iff_toNat_lt, UInt64.lt_iff_toNat_lt, UInt64.le_iff_toNat_le,
    toNat_length_of_le h, UInt64.toNat_sub]
  rw [UInt64.le_iff_toNat_le] at h
  omega

theorem contains_eq_false_of_lt (h : f.stop < f.start) : f.contains a = false := by
  rw [Bool.eq_false_iff, Ne, contains_iff]
  rintro ⟨hstart, hstop⟩
  exact UInt64.lt_irrefl _ (UInt64.lt_of_lt_of_le (UInt64.lt_of_le_of_lt hstart hstop)
    (UInt64.le_of_lt h))

theorem isEmpty_of_lt (h : f.stop < f.start) : f.isEmpty = false := by
  rw [Bool.eq_false_iff, Ne, isEmpty_iff]
  intro hsame
  rw [hsame] at h
  exact UInt64.lt_irrefl _ h

theorem length_pos (h : f.isEmpty = false) : 0 < f.length := by
  rw [isEmpty, decide_eq_false_iff_not] at h
  exact UInt64.pos_iff_ne_zero.mpr h

/-- The addresses of a range that does not wrap around, by their distances from the start. -/
def addressEquiv (h : f.start ≤ f.stop) :
    {a : UInt64 // f.contains a = true} ≃ Fin f.length.toNat where
  toFun a := ⟨(a.1 - f.start).toNat, UInt64.lt_iff_toNat_lt.mp ((contains_iff_of_le h).mp a.2)⟩
  invFun i := ⟨f.start + UInt64.ofNat i, (contains_iff_of_le h).mpr <| by
    rw [UInt64.lt_iff_toNat_lt, toNat_add_ofNat_sub f.start (i.2.trans f.length.toNat_lt)]
    exact i.2⟩
  left_inv a := Subtype.ext (add_ofNat_toNat_sub f.start a.1)
  right_inv i := Fin.ext (toNat_add_ofNat_sub f.start (i.2.trans f.length.toNat_lt))

/-- **A range holds the addresses whose distance is less than its length**, unless it wraps around:
then it holds none. So it has its own start unless it is empty, and as many addresses as its length
says, just if the address after its last can be told. -/
theorem contains_iff_distance_lt (f : Fde) :
    (∀ a, f.contains a = true ↔
      f.start.toNat + f.length.toNat < UInt64.size ∧ a - f.start < f.length) ∧
    ((∀ a, f.contains a = true ↔ a - f.start < f.length) ↔
      f.start.toNat + f.length.toNat < UInt64.size) ∧
    (f.start.toNat + f.length.toNat < UInt64.size →
      (f.isEmpty = false → f.contains f.start = true) ∧
        Nat.card {a : UInt64 // f.contains a = true} = f.length.toNat) ∧
    (UInt64.size ≤ f.start.toNat + f.length.toNat →
      f.isEmpty = false ∧ ∀ a, f.contains a = false) := by
  have hwraps : UInt64.size ≤ f.start.toNat + f.length.toNat ↔ f.stop < f.start := by
    rw [← Nat.not_lt, ← start_le_stop_iff, UInt64.not_le]
  rw [hwraps, ← start_le_stop_iff]
  refine ⟨fun a ↦ ⟨?holds, ?held⟩, ⟨?agree, fun h a ↦ contains_iff_of_le h⟩, fun h ↦ ⟨?own, ?card⟩,
    fun h ↦ ⟨isEmpty_of_lt h, fun a ↦ contains_eq_false_of_lt h⟩⟩
  case holds =>
    intro hcontains
    have hle : f.start ≤ f.stop := by
      rw [← UInt64.not_lt]
      intro hlt
      rw [contains_eq_false_of_lt hlt] at hcontains
      cases hcontains
    exact ⟨hle, (contains_iff_of_le hle).mp hcontains⟩
  case held => exact fun h ↦ (contains_iff_of_le h.1).mpr h.2
  case agree =>
    -- A range that wraps around has a length, but does not even hold its start.
    intro hall
    rw [← UInt64.not_lt]
    intro hlt
    have hstart := (hall f.start).mpr (by
      rw [UInt64.sub_self]
      exact length_pos (isEmpty_of_lt hlt))
    rw [contains_eq_false_of_lt hlt] at hstart
    cases hstart
  case own =>
    intro hempty
    rw [contains_iff_of_le h, UInt64.sub_self]
    exact length_pos hempty
  case card => rw [Nat.card_congr (addressEquiv h), Nat.card_eq_fintype_card, Fintype.card_fin]

/-- Sixteen addresses, the first of them among them and the one behind them not. -/
theorem contains_iff_distance_lt_sixteen :
    let f : Fde := ⟨16, ⟨0, 1, "", 8, -8, .absptr, ⟨0⟩, false, []⟩, 0x1000, 0x1010, false, []⟩
    f.contains f.start = true ∧ Nat.card {a : UInt64 // f.contains a = true} = 16 ∧
      (f.contains 0x1010 = true ↔ 0x1010 - f.start < f.length) := by
  intro f
  obtain ⟨-, hagree, hheld, -⟩ := contains_iff_distance_lt f
  have hlt : f.start.toNat + f.length.toNat < UInt64.size := by decide
  obtain ⟨hstart, hcard⟩ := hheld hlt
  refine ⟨hstart (by decide), hcard.trans ?_, hagree.mpr hlt 0x1010⟩
  decide

end Fde

namespace FrameIndex

/-- An FDE that has a range of addresses in full width and refers back by a number. -/
def rangeRecord (id start length : Nat) : List UInt8 :=
  FrameItem.frame false
    (FrameItem.idField false id ++ LittleEndian.ofNat 8 start ++ LittleEndian.ofNat 8 length)

/-- A section whose FDE has the sixteen last addresses. -/
def lastAddresses : List UInt8 := plainCie .ehFrame ++ rangeRecord 20 0xfffffffffffffff0 0x10

/-- The FDE of that section. -/
def lastFde : Fde :=
  ⟨16, ⟨0, 1, "", 8, -8, .absptr, ⟨0⟩, false, [12, 7, 8]⟩, 0xfffffffffffffff0, 0, false, []⟩

/-- A range that comes to the end of all addresses has a length, but does not hold its start. -/
theorem contains_lastAddresses :
    ((empty .ehFrame).decodeInto ⟨.ehFrame, 0, 8⟩ lastAddresses).value.1 = .ok () ∧
      ((empty .ehFrame).decodeInto ⟨.ehFrame, 0, 8⟩ lastAddresses).value.2.fdes.entries =
        [(lastFde.start, lastFde)] ∧
      lastFde.length = 16 ∧ lastFde.isEmpty = false ∧
      lastFde.start - lastFde.start < lastFde.length ∧
      lastFde.contains lastFde.start = false :=
  ⟨by cbv, by cbv, by decide, by decide, by decide, by decide⟩

end FrameIndex

end ElfUnwind
