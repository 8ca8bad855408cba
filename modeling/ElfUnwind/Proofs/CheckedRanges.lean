import ElfUnwind.Proofs.AlikeMedia
import ElfUnwind.Proofs.SectionNames

/-!
# Ranges checked in words

The end of a range may lie behind everything that a word can tell. Here ranges are read the way
words allow it: the end is a sum that is given up when it leaves the word, it is held against the
size, and only then the bytes between the two positions are read (`Medium.readRangeChecked`). As
long as the size is a word, this is what holding the natural numbers against each other comes to.

So a range of bytes at hand is read exactly if it lies within them, by one read, and is refused
without any otherwise, and what is read of a section is its range
(`Medium.readRange_ofBytes_exact`).
-/

namespace ElfUnwind

/-! ## Sums of words -/

/-- The sum of two words, unless it leaves the word. A sum that has wrapped is below both. -/
def checkedSum (a b : UInt64) : Option UInt64 := if a ≤ a + b then some (a + b) else none

section Sums

variable {a b c : UInt64}

theorem le_add_iff : a ≤ a + b ↔ a.toNat + b.toNat < UInt64.size := by
  have ha := a.toNat_lt
  have hb := b.toNat_lt
  rw [UInt64.le_iff_toNat_le, UInt64.toNat_add, UInt64.size]
  omega

theorem checkedSum_eq_some_iff : checkedSum a b = some c ↔ a.toNat + b.toNat = c.toNat := by
  rw [checkedSum]
  by_cases hlt : a.toNat + b.toNat < UInt64.size
  · have hsum : (a + b).toNat = a.toNat + b.toNat := by
      rw [UInt64.toNat_add, Nat.mod_eq_of_lt hlt]
    rw [if_pos (le_add_iff.mpr hlt), Option.some.injEq, ← UInt64.toNat_inj, hsum]
  · rw [if_neg (mt le_add_iff.mp hlt)]
    exact iff_of_false nofun fun h ↦ hlt (h ▸ c.toNat_lt)

theorem checkedSum_eq_none_iff : checkedSum a b = none ↔ UInt64.size ≤ a.toNat + b.toNat := by
  rw [← Nat.not_lt, ← le_add_iff, checkedSum]
  split
  case isTrue hle => exact iff_of_false nofun (not_not_intro hle)
  case isFalse hle => exact iff_of_true rfl hle

end Sums

/-- The bytes between two positions, if there are such. -/
def between? (bytes : List UInt8) (start stop : ℕ) : Option (List UInt8) :=
  if start ≤ stop ∧ stop ≤ bytes.length then some ((bytes.take stop).drop start) else none

/-- The bytes of a range, cut out up to its end. -/
def checkedSlice? (bytes : List UInt8) (length offset : UInt64) : Option (List UInt8) :=
  (checkedSum offset length).bind fun stop ↦ between? bytes offset.toNat stop.toNat

theorem checkedSlice?_eq {bytes : List UInt8} (hbytes : bytes.length < UInt64.size)
    (length offset : UInt64) :
    checkedSlice? bytes length offset =
      if offset.toNat + length.toNat ≤ bytes.length then
        some ((bytes.drop offset.toNat).take length.toNat)
      else none := by
  rw [checkedSlice?]
  cases hsum : checkedSum offset length with
  | none =>
    have hword := checkedSum_eq_none_iff.mp hsum
    rw [if_neg (by omega), Option.bind_none]
  | some stop =>
    have hstop := checkedSum_eq_some_iff.mp hsum
    rw [Option.bind_some, between?, ← hstop, List.drop_take, Nat.add_sub_cancel_left]
    simp only [Nat.le_add_right, true_and]

namespace Medium

variable {σ : Type} {m : Medium σ} {bytes : List UInt8}

/-! ## Checked reads -/

/-- Reads a range whose end is a word and does not lie behind the size. -/
def readRangeChecked (m : Medium σ) (length offset : UInt64) : Task σ (List UInt8) :=
  match checkedSum offset length with
  | none => throw (.truncatedRead offset.toNat length.toNat)
  | some stop =>
    if stop ≤ UInt64.ofNat m.size then m.read length.toNat offset
    else throw (.truncatedRead offset.toNat length.toNat)

/-- A medium of bytes that are at hand, which are cut out between words. -/
def ofBytesChecked (bytes : List UInt8) : Medium σ where
  size := bytes.length
  read length offset :=
    match checkedSlice? bytes (UInt64.ofNat length) offset with
    | some slice => return slice
    | none => throw (.truncatedRead offset.toNat length)

theorem readRangeChecked_eq (hsize : m.size < UInt64.size) (length offset : UInt64) :
    m.readRangeChecked length offset = m.readRange length offset := by
  rw [readRangeChecked, readRange]
  cases hsum : checkedSum offset length with
  | none =>
    have hword := checkedSum_eq_none_iff.mp hsum
    rw [if_neg (by omega)]
  | some stop =>
    have hstop := checkedSum_eq_some_iff.mp hsum
    have hle : stop ≤ UInt64.ofNat m.size ↔ offset.toNat + length.toNat ≤ m.size := by
      rw [UInt64.le_iff_toNat_le, UInt64.toNat_ofNat_of_lt' hsize, hstop]
    simp only [hle]

theorem read_ofBytesChecked (hbytes : bytes.length < UInt64.size) {length : ℕ}
    (hlength : length < UInt64.size) (offset : UInt64) :
    (ofBytesChecked bytes : Medium σ).read length offset =
      (ofBytes bytes).read length offset := by
  rw [ofBytesChecked, ofBytes]
  dsimp only
  rw [checkedSlice?_eq hbytes, UInt64.toNat_ofNat_of_lt' hlength]
  by_cases hle : offset.toNat + length ≤ bytes.length
  · rw [if_pos hle, if_pos hle]
  · rw [if_neg hle, if_neg hle]

/-- The range check and the medium's own check are one condition. -/
theorem recorded_readRangeChecked_ofBytesChecked (hbytes : bytes.length < UInt64.size)
    (length offset : UInt64) :
    (ofBytesChecked bytes : Medium σ).recorded.readRangeChecked length offset =
      (ofBytes bytes).recorded.readRange length offset := by
  have hread : (ofBytesChecked bytes : Medium σ).recorded.read length.toNat offset =
      (ofBytes bytes).recorded.read length.toNat offset := by
    dsimp only [recorded]
    rw [read_ofBytesChecked hbytes length.toNat_lt]
  rw [readRangeChecked_eq (show (ofBytesChecked bytes).recorded.size < _ from hbytes), readRange,
    readRange, hread]
  rfl

theorem ends_readRange_recorded_ofBytes (bytes : List UInt8) (length offset : UInt64)
    (log : List ReadRecord) (s : σ) :
    let slice := (bytes.drop offset.toNat).take length.toNat
    ((ofBytes bytes).recorded.readRange length offset).ends (log, s) =
      if offset.toNat + length.toNat ≤ bytes.length then
        (.ok slice, log ++ [⟨length.toNat, offset, .ok slice⟩], s)
      else (.error (.truncatedRead offset.toNat length.toNat), log, s) := by
  intro slice
  by_cases hle : offset.toNat + length.toNat ≤ bytes.length
  · have hread := ends_read_ofBytes bytes length.toNat offset s
    rw [if_pos hle] at hread
    rw [ends_readRange_of_le _ (show _ ≤ (ofBytes bytes).recorded.size from hle),
      ends_read_recorded, hread, if_pos hle]
  · rw [ends_readRange_of_lt _ (show (ofBytes bytes).recorded.size < _ from Nat.lt_of_not_le hle),
      if_neg hle]

end Medium

namespace Image

variable {σ : Type} {bytes : List UInt8} {path : String} {image : Image σ} {s : σ}

/-- An image that was opened on a medium keeps it. -/
theorem medium_of_read {m : Medium σ} (h : ((read path m).ends s).1 = .ok image) :
    image.medium = m := by
  have halike := (alike_read m.alike_recorded path path s ([], s) rfl).1
  rw [h] at halike
  obtain ⟨-, -, -, hmedium, -⟩ := halike.exists_of_ok_left
  exact hmedium

/-- What is read of a section of bytes at hand. -/
theorem ends_sectionData_of_read (h : ((read path (Medium.ofBytes bytes)).ends s).1 = .ok image)
    (name : String) (t : σ) :
    (image.sectionData name).ends t =
      (match image.section? name with
        | none => .error (.missingSection name)
        | some found =>
          if found.offset.toNat + found.size.toNat ≤ bytes.length then
            .ok ((bytes.drop found.offset.toNat).take found.size.toNat)
          else .error (.truncatedRead found.offset.toNat found.size.toNat), t) := by
  rw [sectionData, medium_of_read h]
  cases image.section? name with
  | none => rfl
  | some found =>
    dsimp only
    by_cases hle : found.offset.toNat + found.size.toNat ≤ bytes.length
    · rw [Medium.ends_readRange_of_le _ hle, Medium.ends_read_ofBytes, if_pos hle]
    · rw [Medium.ends_readRange_of_lt _ (Nat.lt_of_not_le hle), if_neg hle]

end Image

namespace Medium

variable {σ : Type}

/-- **Ranges are read exactly.** A range of bytes at hand is read if it lies within them, the sum of
its position and its length being taken as it is, and is refused as it was asked for otherwise.
There is one read in the first case, for no bytes too, and none in the second. Checking in words
comes to the same. Of a section its range is read, or refused if it is not all there. -/
theorem readRange_ofBytes_exact (bytes : List UInt8) (s : σ) :
    (∀ (length offset : UInt64) (log : List ReadRecord),
      let slice := (bytes.drop offset.toNat).take length.toNat
      ((ofBytes bytes).recorded.readRange length offset).ends (log, s) =
        if offset.toNat + length.toNat ≤ bytes.length then
          (.ok slice, log ++ [⟨length.toNat, offset, .ok slice⟩], s)
        else (.error (.truncatedRead offset.toNat length.toNat), log, s)) ∧
      (bytes.length < UInt64.size → ∀ length offset,
        (ofBytesChecked bytes : Medium σ).recorded.readRangeChecked length offset =
          (ofBytes bytes).recorded.readRange length offset) ∧
      ∀ path image, ((Image.read path (ofBytes bytes)).ends s).1 = .ok image → ∀ name t,
        (image.sectionData name).ends t =
          (match image.section? name with
            | none => .error (.missingSection name)
            | some found =>
              if found.offset.toNat + found.size.toNat ≤ bytes.length then
                .ok ((bytes.drop found.offset.toNat).take found.size.toNat)
              else .error (.truncatedRead found.offset.toNat found.size.toNat), t) :=
  ⟨fun length offset log ↦ ends_readRange_recorded_ofBytes bytes length offset log s,
    recorded_readRangeChecked_ofBytesChecked,
    fun _ _ h ↦ Image.ends_sectionData_of_read h⟩

/-- Nothing is read at the very end by one read, a range whose end leaves the word by none, and the
table of names is read as the section it is. -/
theorem readRange_ofBytes_exact_brokenNames :
    let m : Medium Unit := ofBytesChecked OnDisk.brokenNames
    OnDisk.brokenNames.length = 220 ∧
      (m.recorded.readRangeChecked 0 220).ends ([], ()) = (.ok [], [⟨0, 220, .ok []⟩], ()) ∧
      (m.recorded.readRangeChecked 0xffffffffffffffff 1).ends ([], ()) =
        (.error (.truncatedRead 1 0xffffffffffffffff), [], ()) ∧
      ∃ image : Image Unit,
        ((Image.read "image.elf" (ofBytes OnDisk.brokenNames)).ends ()).1 = .ok image ∧
        (image.sectionData "n").ends () = (.ok [0, 0x6e, 0, 0xff, 0, 0xfe, 0, 0], ()) := by
  intro m
  have hlength : OnDisk.brokenNames.length = 220 := by decide +kernel
  obtain ⟨hread, hchecked, hsection⟩ := readRange_ofBytes_exact OnDisk.brokenNames ()
  have hrun (length offset : UInt64) :=
    (congrArg (Task.ends · ([], ())) (hchecked (by rw [hlength]; decide) length offset)).trans
      (hread length offset [])
  have hopened := OnDisk.opens_brokenNames "image.elf"
  have hnames : (OnDisk.image "image.elf" OnDisk.brokenNames : Image Unit).section? "n" =
      some ⟨"n", 3, 0, 0, 52, 8⟩ := by decide +kernel
  have hbytes : (OnDisk.brokenNames.drop 52).take 8 = [0, 0x6e, 0, 0xff, 0, 0xfe, 0, 0] := by
    decide +kernel
  refine ⟨hlength, (hrun 0 220).trans ?empty, (hrun _ 1).trans ?behind, _, hopened,
    (hsection _ _ hopened "n" ()).trans ?names⟩
  case empty =>
    rw [if_pos (by rw [hlength]; decide)]
    rfl
  case behind =>
    rw [if_neg (by rw [hlength]; decide)]
    rfl
  case names =>
    rw [hnames]
    dsimp only
    rw [if_pos (by rw [hlength]; decide)]
    exact congrArg (Except.ok ·, ()) hbytes

end Medium

end ElfUnwind
