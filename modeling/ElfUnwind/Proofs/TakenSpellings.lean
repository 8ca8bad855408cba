import ElfUnwind.Proofs.BackReferences
import ElfUnwind.Proofs.Spellings

/-!
# What was read is a spelling

Every spelling of a field is read. Here is the converse: where a read has succeeded, the bytes that
it took spell the field (`Read.TakesOnly`). So it can be said of the bytes alone whether a field is
there, without a decoder.
-/

namespace ElfUnwind

namespace Read

variable {α β : Type} {P Q : List UInt8 → Prop} {s t : Span}

/-- Every success has taken bytes with the property. -/
def TakesOnly (r : Read α) (P : List UInt8 → Prop) : Prop :=
  ∀ (s t : Span) (a : α), r s = .ok (a, t) → ∃ front, P front ∧ s.bytes = front ++ t.bytes

theorem TakesOnly.mono {x : Read α} (hx : x.TakesOnly P) (hPQ : ∀ front, P front → Q front) :
    x.TakesOnly Q := by
  intro s t a hr
  obtain ⟨front, hfront, hs⟩ := hx s t a hr
  exact ⟨front, hPQ front hfront, hs⟩

theorem TakesOnly.map {x : Read α} (hx : x.TakesOnly P) (g : α → β) : (g <$> x).TakesOnly P := by
  intro s t b hr
  obtain ⟨a, hxs, -⟩ := map_eq_ok_iff.mp hr
  exact hx s t a hxs

theorem TakesOnly.bind_pure {x : Read α} (hx : x.TakesOnly P) (g : α → β) :
    (x >>= fun a ↦ Pure.pure (g a)).TakesOnly P := hx.map g

theorem TakesOnly.ite_throw {p : Prop} [Decidable p] {x : Read α} {e : Error}
    (hx : p → x.TakesOnly P) : (if p then x else throw e).TakesOnly P := by
  intro s t a hr
  by_cases hp : p
  · rw [if_pos hp] at hr
    exact hx hp s t a hr
  · rw [if_neg hp] at hr
    cases hr

theorem bytes_of_byte {b : UInt8} (h : byte s = .ok (b, t)) : s.bytes = b :: t.bytes := by
  obtain ⟨offset, _ | ⟨b', bs⟩⟩ := s
  · cases h
  · cases h
    rfl

theorem takesOnly_byte : byte.TakesOnly fun front ↦ front.length = 1 :=
  fun _ _ b h ↦ ⟨[b], rfl, bytes_of_byte h⟩

theorem takesOnly_bytes (n : ℕ) : (bytes n).TakesOnly fun front ↦ front.length = n := by
  intro s t front hr
  rcases Nat.lt_or_ge s.bytes.length n with hlt | hle
  · rw [bytes_of_gt hlt] at hr
    cases hr
  · rw [bytes_of_le hle] at hr
    cases hr
    exact ⟨s.bytes.take n, List.length_take_of_le hle, (List.take_append_drop n s.bytes).symm⟩

theorem bytes_of_zeroTerminated {text : List UInt8} (h : zeroTerminated s = .ok (text, t)) :
    (∀ b ∈ text, b ≠ 0) ∧ s.bytes = text ++ 0 :: t.bytes := by
  simp only [zeroTerminated] at h
  split at h
  · rename_i hlt
    cases h
    have hall := List.all_eq_true.mp (List.all_takeWhile (p := (· ≠ 0)) (l := s.bytes))
    refine ⟨fun b hb ↦ of_decide_eq_true (hall b hb), ?_⟩
    exact (takeWhile_append_zero hlt).trans (List.append_cons _ _ _).symm
  · cases h

theorem takesOnly_of_scan {r : Read α} (value : Leb128.Scan → α)
    (hnone : ∀ s, Leb128.scan 0 s.bytes = none → r s = .error (short 1 s))
    (hsome : ∀ s t, Leb128.scan 0 s.bytes = some t → r s = .ok (value t, s.drop t.used)) :
    r.TakesOnly Leb128.IsNumber := by
  intro s t a hr
  cases hscan : Leb128.scan 0 s.bytes with
  | none =>
    rw [hnone s hscan] at hr
    cases hr
  | some u =>
    rw [hsome s u hscan] at hr
    cases hr
    obtain ⟨hfront, hlength⟩ := Leb128.scan_take_used hscan
    refine ⟨s.bytes.take u.used, ?_, (List.take_append_drop u.used s.bytes).symm⟩
    rw [Leb128.IsNumber, ← Leb128.scan_used 0, hfront, Option.map_some, hlength]

theorem takesOnly_uleb128 : uleb128.TakesOnly Leb128.IsNumber :=
  takesOnly_of_scan Leb128.Scan.bits
    (fun s h ↦ by simp only [uleb128, Leb128.decodeUnsigned, h, Option.map_none])
    (fun s t h ↦ by simp only [uleb128, Leb128.decodeUnsigned, h, Option.map_some])

theorem takesOnly_sleb128 : sleb128.TakesOnly Leb128.IsNumber :=
  takesOnly_of_scan Leb128.Scan.signed
    (fun s h ↦ by simp only [sleb128, Leb128.decodeSigned, h, Option.map_none])
    (fun s t h ↦ by simp only [sleb128, Leb128.decodeSigned, h, Option.map_some])

theorem takesOnly_unsigned (width : UInt8) :
    (unsigned width).TakesOnly fun front ↦ isWidth width = true ∧ front.length = width.toNat :=
  TakesOnly.ite_throw fun hw ↦
    ((takesOnly_bytes _).bind_pure _).mono fun _ hlength ↦ ⟨hw, hlength⟩

theorem takesOnly_signed (width : UInt8) :
    (signed width).TakesOnly fun front ↦ front.length = width.toNat :=
  TakesOnly.ite_throw fun _ ↦ (takesOnly_bytes _).bind_pure _

end Read

/-! ## Pointers -/

namespace ValueFormat

variable {addressSize : UInt8} {bytes : List UInt8} {format : ValueFormat}

theorem isValue_of_length {width : ℕ} (hsize : format = absptr → Read.isWidth addressSize = true)
    (hwidth : format.width? addressSize = some width) (hlength : bytes.length = width) :
    format.IsValue addressSize bytes := by
  refine ⟨hsize, ?_, fun hnone ↦ ?_⟩
  · rw [hwidth]
    rintro width' ⟨⟩
    exact hlength
  · rw [hwidth] at hnone
    cases hnone

theorem isValue_of_isNumber (hformat : format ≠ absptr) (hwidth : format.width? addressSize = none)
    (hnumber : Leb128.IsNumber bytes) : format.IsValue addressSize bytes := by
  refine ⟨fun h ↦ absurd h hformat, ?_, fun _ ↦ hnumber⟩
  rw [hwidth]
  rintro width ⟨⟩

theorem takesOnly_unsigned {width : UInt8} (hsize : format = absptr → width = addressSize)
    (hwidth : format.width? addressSize = some width.toNat) :
    (Read.unsigned width).TakesOnly (format.IsValue addressSize) := by
  refine (Read.takesOnly_unsigned width).mono fun front h ↦ ?_
  exact isValue_of_length (fun hformat ↦ hsize hformat ▸ h.1) hwidth h.2

theorem takesOnly_signed {width : UInt8} (hformat : format ≠ absptr)
    (hwidth : format.width? addressSize = some width.toNat) :
    (Int64.toUInt64 <$> Read.signed width).TakesOnly (format.IsValue addressSize) := by
  refine ((Read.takesOnly_signed width).map _).mono fun front hlength ↦ ?_
  exact isValue_of_length (fun h ↦ absurd h hformat) hwidth hlength

theorem takesOnly_read (format : ValueFormat) (addressSize : UInt8) :
    (format.read addressSize).TakesOnly (format.IsValue addressSize) := by
  cases format with
  | absptr => exact takesOnly_unsigned (fun _ ↦ rfl) rfl
  | uleb128 =>
    exact Read.takesOnly_uleb128.mono fun _ h ↦ isValue_of_isNumber (by decide) rfl h
  | udata2 => exact takesOnly_unsigned nofun rfl
  | udata4 => exact takesOnly_unsigned nofun rfl
  | udata8 => exact takesOnly_unsigned nofun rfl
  | sleb128 =>
    exact (Read.takesOnly_sleb128.map _).mono fun _ h ↦ isValue_of_isNumber (by decide) rfl h
  | sdata2 => exact takesOnly_signed nofun rfl
  | sdata4 => exact takesOnly_signed nofun rfl
  | sdata8 => exact takesOnly_signed nofun rfl

end ValueFormat

/-- What a pointer was read from is nothing for the omitted one, and else a pointer. -/
theorem PointerEncoding.takesOnly_read (e : PointerEncoding) (addressSize : UInt8) :
    (e.read addressSize).TakesOnly fun front ↦
      e = .omitted ∧ front = [] ∨ e.IsPointer addressSize front := by
  intro s t value hr
  by_cases homitted : e = omitted
  · rw [homitted, read_omitted] at hr
    cases hr
    exact ⟨[], Or.inl ⟨homitted, rfl⟩, rfl⟩
  · cases hformat : e.format? with
    | none =>
      simp only [read, if_neg homitted, hformat] at hr
      cases hr
    | some format =>
      rw [read_eq homitted hformat] at hr
      obtain ⟨front, hvalue, hs⟩ := (format.takesOnly_read addressSize).map some s t value hr
      exact ⟨front, Or.inr ⟨format, hformat, hvalue⟩, hs⟩

/-! ## Augmentation data -/

open BodyDecoder

namespace Cie

variable {addressSize : UInt8} {malformed : Error} {data after : AugmentationData} {s t : Span}

/-- The data of a letter that was read. -/
theorem exists_hasData_of_letterData {letter : Char}
    (h : silent (letterData addressSize malformed data letter) s = .ok (after, t)) :
    ∃ (a : Augmentation) (front : List UInt8), a.letter = letter ∧ a.HasData addressSize front ∧
      s.bytes = front ++ t.bytes := by
  have hknown : IsAugmentationLetter letter :=
    (yields_letterData addressSize malformed data letter s t after h).known letter
      List.mem_cons_self
  rw [silent_letterData] at h
  rcases hknown with rfl | rfl | rfl
  · rw [if_pos rfl] at h
    obtain ⟨b, u, hbyte, hpure⟩ := Read.bind_eq_ok_iff.mp h
    cases hpure
    exact ⟨.address ⟨b⟩, [b], rfl, rfl, Read.bytes_of_byte hbyte⟩
  · rw [if_neg (by decide), if_pos rfl] at h
    obtain ⟨b, u, hbyte, hpointer⟩ := Read.bind_eq_ok_iff.mp h
    obtain ⟨value, w, hread, hpure⟩ := Read.bind_eq_ok_iff.mp hpointer
    cases hpure
    obtain ⟨front, hfront, hu⟩ := PointerEncoding.takesOnly_read ⟨b⟩ addressSize u t value hread
    refine ⟨.personality ⟨b⟩ 0, b :: front, rfl, ⟨front, rfl, hfront⟩, ?_⟩
    rw [Read.bytes_of_byte hbyte, hu, List.cons_append]
  · rw [if_neg (by decide), if_neg (by decide), if_pos rfl] at h
    obtain ⟨b, u, hbyte, hpure⟩ := Read.bind_eq_ok_iff.mp h
    cases hpure
    exact ⟨.lsda ⟨b⟩, [b], rfl, rfl, Read.bytes_of_byte hbyte⟩

/-- The data of some letters that were read, one behind the other. -/
theorem exists_haveData_of_letters {letters : List Char}
    (h : letters.foldlM (fun data l ↦ silent (letterData addressSize malformed data l)) data s
      = .ok (after, t)) :
    ∃ (as : List Augmentation) (front : List UInt8), as.map Augmentation.letter = letters ∧
      Augmentation.HaveData addressSize as front ∧ s.bytes = front ++ t.bytes := by
  induction letters generalizing data s with
  | nil =>
    cases h
    exact ⟨[], [], rfl, .nil, rfl⟩
  | cons l ls ih =>
    rw [List.foldlM_cons] at h
    obtain ⟨middle, u, hletter, hrest⟩ := Read.bind_eq_ok_iff.mp h
    obtain ⟨a, front, ha, hfront, hs⟩ := exists_hasData_of_letterData hletter
    obtain ⟨as, back, has, hback, hu⟩ := ih hrest
    refine ⟨a :: as, front ++ back, ?_, .cons hfront hback, ?_⟩
    · rw [List.map_cons, ha, has]
    · rw [hs, hu, List.append_assoc]

end Cie

end ElfUnwind
