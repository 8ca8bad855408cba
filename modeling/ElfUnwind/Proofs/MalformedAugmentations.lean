import ElfUnwind.Proofs.FieldFailures
import ElfUnwind.Proofs.TakenSpellings

/-!
# Augmentation strings that are not understood

A section is given up for ever if a CIE has an augmentation string that is not understood, so it
matters which of several failures of a record is reported. `Cie.IsMalformed` says of the bytes of a
CIE, without a decoder, that its augmentation string is the one to be reported: the string neither
is empty nor begins with `z`, or it does begin with `z`, and all fields up to a character that is no
known letter are there. `RawRecord.outcome_malformed_iff` says that this is what is reported, and
that all other failures of a record are those of single fields or of a missing CIE.
-/

namespace ElfUnwind

open BodyDecoder
open Read (Local)

/-! ## The bytes of a malformed CIE -/

namespace Cie

/-- The bytes are the fields of a CIE between its augmentation string and the data of the letters in
that string, with the size of an address that they leave. -/
inductive IsBeforeLetters (context : FrameContext) (version : UInt8) :
    UInt8 → List UInt8 → Prop
  | mk {sizes code data register length : List UInt8}
      (sizes_eq : sizes.length = if 4 ≤ version then 2 else 0)
      (isNumber_code : Leb128.IsNumber code)
      (isNumber_data : Leb128.IsNumber data)
      (register_eq : if version = 1 then register.length = 1 else Leb128.IsNumber register)
      (isNumber_length : Leb128.IsNumber length) :
      IsBeforeLetters context version (sizes.headD context.addressSize)
        (sizes ++ (code ++ (data ++ (register ++ length))))

/-- The bytes behind the identifier of a CIE report the augmentation string. -/
inductive IsMalformed (context : FrameContext) (augmentation : String) : List UInt8 → Prop
  /-- The string is not empty and does not begin with `z`, whatever stands behind it. -/
  | beginning {version : UInt8} {text rest : List UInt8} (hzero : ∀ b ∈ text, b ≠ 0)
      (hstring : augmentation = Text.Utf8.decode text) (hempty : augmentation ≠ "")
      (hhead : augmentation.toList.head? ≠ some 'z') :
      IsMalformed context augmentation (version :: (text ++ 0 :: rest))
  /-- Behind `z` and known letters stands a character that is none, and all fields up to it and the
  data of the letters are there. -/
  | letter {version size : UInt8} {text fields data rest : List UInt8}
      {letters : List Augmentation} {other : Char} {more : List Char} (hzero : ∀ b ∈ text, b ≠ 0)
      (hstring : augmentation = Text.Utf8.decode text)
      (hletters : augmentation.toList = 'z' :: (letters.map Augmentation.letter ++ other :: more))
      (hother : ¬ IsAugmentationLetter other)
      (hfields : IsBeforeLetters context version size fields)
      (hdata : Augmentation.HaveData size letters data) :
      IsMalformed context augmentation (version :: (text ++ 0 :: (fields ++ (data ++ rest))))

/-! ## The fields before the letters -/

variable {context : FrameContext} {version addressSize : UInt8} {s t : Span} {e malformed : Error}

/-- Reads the fields of a CIE between its augmentation string and the data of the letters. -/
def readBeforeLetters (context : FrameContext) (version : UInt8) : Read UInt8 := do
  let size ← silent (declaredSize context version)
  let _ ← Read.uleb128
  let _ ← Read.sleb128
  let _ ← returnRegister version
  let _ ← Read.uleb128
  return size

theorem takes_declaredSize {sizes : List UInt8}
    (h : sizes.length = if 4 ≤ version then 2 else 0) (place : ℕ) :
    (silent (declaredSize context version)).Takes place sizes
      (sizes.headD context.addressSize) := by
  rw [silent_declaredSize]
  by_cases hv : 4 ≤ version
  · rw [if_pos hv] at h ⊢
    obtain ⟨addressSize, segmentSize, rfl⟩ := List.length_eq_two.mp h
    exact (Read.takes_byte place addressSize).bind ((Read.takes_byte _ segmentSize).bind_pure _)
  · rw [if_neg hv] at h ⊢
    obtain rfl := List.length_eq_zero_iff.mp h
    exact Read.Takes.pure _ place

theorem exists_takes_returnRegister {register : List UInt8}
    (h : if version = 1 then register.length = 1 else Leb128.IsNumber register) (place : ℕ) :
    ∃ value, (returnRegister version).Takes place register value := by
  rw [returnRegister]
  by_cases hv : version = 1
  · rw [if_pos hv] at h ⊢
    obtain ⟨b, rfl⟩ := List.length_eq_one_iff.mp h
    exact ⟨_, (Read.takes_byte place b).map UInt8.toUInt64⟩
  · rw [if_neg hv] at h ⊢
    obtain ⟨value, hvalue⟩ := h.exists_spells
    exact ⟨value, Read.takes_uleb128_of_spells hvalue place⟩

theorem IsBeforeLetters.takes {size : UInt8} {fields : List UInt8}
    (h : IsBeforeLetters context version size fields) (place : ℕ) :
    (readBeforeLetters context version).Takes place fields size := by
  obtain ⟨hsizes, hcode, hdata, hregister, hlength⟩ := h
  obtain ⟨_, hcode⟩ := hcode.exists_spells
  obtain ⟨_, hdata⟩ := hdata.exists_spellsSigned
  obtain ⟨_, hlength⟩ := hlength.exists_spells
  refine (takes_declaredSize hsizes place).bind ?_
  refine (Read.takes_uleb128_of_spells hcode _).bind ?_
  refine (Read.takes_sleb128_of_spells hdata _).bind ?_
  obtain ⟨_, hregister⟩ := exists_takes_returnRegister hregister _
  exact hregister.bind ((Read.takes_uleb128_of_spells hlength _).bind_pure _)

theorem exists_of_declaredSize {size : UInt8}
    (h : silent (declaredSize context version) s = .ok (size, t)) :
    ∃ sizes : List UInt8, (sizes.length = if 4 ≤ version then 2 else 0) ∧
      size = sizes.headD context.addressSize ∧ s.bytes = sizes ++ t.bytes := by
  rw [silent_declaredSize] at h
  by_cases hv : 4 ≤ version
  · rw [if_pos hv] at h ⊢
    obtain ⟨b, u, hb, hrest⟩ := Read.bind_eq_ok_iff.mp h
    obtain ⟨c, w, hc, hpure⟩ := Read.bind_eq_ok_iff.mp hrest
    cases hpure
    exact ⟨[size, c], rfl, rfl, by rw [Read.bytes_of_byte hb, Read.bytes_of_byte hc]; rfl⟩
  · rw [if_neg hv] at h ⊢
    cases h
    exact ⟨[], rfl, rfl, rfl⟩

theorem takesOnly_returnRegister :
    (returnRegister version).TakesOnly fun register ↦
      if version = 1 then register.length = 1 else Leb128.IsNumber register := by
  rw [returnRegister]
  by_cases hv : version = 1
  · simp only [if_pos hv]
    exact Read.takesOnly_byte.map _
  · simp only [if_neg hv]
    exact Read.takesOnly_uleb128

theorem exists_isBeforeLetters {size : UInt8}
    (h : readBeforeLetters context version s = .ok (size, t)) :
    ∃ fields, IsBeforeLetters context version size fields ∧ s.bytes = fields ++ t.bytes := by
  obtain ⟨_, s₁, hreadSizes, h₁⟩ := Read.bind_eq_ok_iff.mp h
  obtain ⟨_, s₂, hreadCode, h₂⟩ := Read.bind_eq_ok_iff.mp h₁
  obtain ⟨_, s₃, hreadData, h₃⟩ := Read.bind_eq_ok_iff.mp h₂
  obtain ⟨_, s₄, hreadRegister, h₄⟩ := Read.bind_eq_ok_iff.mp h₃
  obtain ⟨_, s₅, hreadLength, hpure⟩ := Read.bind_eq_ok_iff.mp h₄
  cases hpure
  obtain ⟨sizes, hsizes, rfl, hs⟩ := exists_of_declaredSize hreadSizes
  obtain ⟨code, hcode, hs₁⟩ := Read.takesOnly_uleb128 _ _ _ hreadCode
  obtain ⟨data, hdata, hs₂⟩ := Read.takesOnly_sleb128 _ _ _ hreadData
  obtain ⟨register, hregister, hs₃⟩ := takesOnly_returnRegister _ _ _ hreadRegister
  obtain ⟨length, hlength, hs₄⟩ := Read.takesOnly_uleb128 _ _ _ hreadLength
  refine ⟨_, .mk hsizes hcode hdata hregister hlength, ?_⟩
  rw [hs, hs₁, hs₂, hs₃, hs₄]
  simp only [List.append_assoc]

/-! ## The letters -/

/-- A fatal failure at a letter says that it is none. -/
theorem letterData_eq_fatal_iff {letter : Char} {data : AugmentationData}
    (he : e.isFatal = true) :
    silent (letterData addressSize malformed data letter) s = .error e ↔
      ¬ IsAugmentationLetter letter ∧ malformed = e := by
  constructor
  · have hlocal : Local (fun e ↦ ¬ IsAugmentationLetter letter ∧ malformed = e)
        (silent (letterData addressSize malformed data letter)) :=
      local_letterData (fun h ↦ ⟨h, rfl⟩) addressSize data
    exact hlocal.of_fatal he
  · rintro ⟨hletter, rfl⟩
    simp only [IsAugmentationLetter, not_or] at hletter
    rw [letterData, if_neg hletter.1, if_neg hletter.2.1, if_neg hletter.2.2]
    rfl

/-- A fatal failure among the letters comes from the first that is none. -/
theorem letters_eq_fatal_iff {letters : List Char} {data : AugmentationData}
    (he : e.isFatal = true) :
    letters.foldlM (fun data l ↦ silent (letterData addressSize malformed data l)) data s
        = .error e ↔
      ∃ before other more after t, letters = before ++ other :: more ∧
        before.foldlM (fun data l ↦ silent (letterData addressSize malformed data l)) data s
          = .ok (after, t) ∧ ¬ IsAugmentationLetter other ∧ malformed = e := by
  rw [Read.foldlM_eq_error_iff]
  simp only [letterData_eq_fatal_iff he]

/-! ## The fields of a CIE -/

theorem isAugmentation_eq_false_iff {augmentation : String} :
    isAugmentation augmentation = false ↔
      augmentation ≠ "" ∧ augmentation.toList.head? ≠ some 'z' := by
  rw [isAugmentation, Bool.or_eq_false_iff, decide_eq_false_iff_not, ← Bool.not_eq_true,
    List.isEmpty_iff, String.toList_eq_nil_iff]

theorem augmentationData_eq_fatal_iff {augmentation : String} (he : e.isFatal = true) :
    silent (augmentationData addressSize malformed augmentation) s = .error e ↔
      ∃ letters length t, augmentation.toList = 'z' :: letters ∧
        Read.uleb128 s = .ok (length, t) ∧
        letters.foldlM (fun data l ↦ silent (letterData addressSize malformed data l)) {} t
          = .error e := by
  rw [silent_augmentationData]
  constructor
  · intro hfails
    by_cases hhead : augmentation.toList.head? = some 'z'
    · obtain ⟨letters, hletters⟩ := List.head?_eq_some_iff.mp hhead
      rw [if_pos hhead, Read.local_uleb128.bind_eq_fatal_iff he, hletters] at hfails
      obtain ⟨length, t, hlength, hfails⟩ := hfails
      exact ⟨letters, length, t, hletters, hlength, hfails⟩
    · rw [if_neg hhead] at hfails
      cases hfails
  · rintro ⟨letters, length, t, hletters, hlength, hfails⟩
    rw [hletters, if_pos (List.head?_cons ..), Read.local_uleb128.bind_eq_fatal_iff he]
    exact ⟨length, t, hlength, hfails⟩

/-- **A fatal failure of a CIE** comes from the beginning of the augmentation string, or from a
letter behind all fields before it. -/
theorem fields_eq_fatal_iff {offset : ℕ} {isWide : Bool} (he : e.isFatal = true) :
    silent (fields context offset isWide) s = .error e ↔
      ∃ version t, Read.byte s = .ok (version, t) ∧
        ∃ text u, Read.zeroTerminated t = .ok (text, u) ∧
          ((isAugmentation (Text.Utf8.decode text) = false ∧
              Error.malformedAugmentation offset (Text.Utf8.decode text) = e) ∨
            ∃ letters size w, (Text.Utf8.decode text).toList = 'z' :: letters ∧
              readBeforeLetters context version u = .ok (size, w) ∧
              letters.foldlM (fun data l ↦ silent (letterData size
                (.malformedAugmentation offset (Text.Utf8.decode text)) data l)) {} w
                = .error e) := by
  rw [silent_fields]
  rw [Read.local_byte.bind_eq_fatal_iff he]
  refine exists₂_congr fun version t ↦ and_congr_right fun _ ↦ ?_
  rw [Read.local_zeroTerminated.bind_eq_fatal_iff he]
  refine exists₂_congr fun text u ↦ and_congr_right fun _ ↦ ?_
  generalize Text.Utf8.decode text = augmentation
  rw [checkAugmentation]
  by_cases haug : isAugmentation augmentation = true
  · rw [if_pos haug, silent_pure, pure_bind, or_iff_right (by simp [haug])]
    simp only [bind_pure_comp, (local_declaredSize context version).bind_eq_fatal_iff he,
      Read.local_uleb128.bind_eq_fatal_iff he, Read.local_sleb128.bind_eq_fatal_iff he,
      (local_returnRegister version).bind_eq_fatal_iff he, Read.map_eq_error_iff,
      augmentationData_eq_fatal_iff he, readBeforeLetters, Read.bind_eq_ok_iff]
    constructor
    · rintro ⟨size, s₁, hsizes, _, s₂, hcode, _, s₃, hdata, _, s₄, hregister, letters, length, w,
        hletters, hlength, hfails⟩
      exact ⟨letters, size, w, hletters, ⟨size, s₁, hsizes, _, s₂, hcode, _, s₃, hdata, _, s₄,
        hregister, Read.map_eq_ok_iff.mpr ⟨length, hlength, rfl⟩⟩, hfails⟩
    · rintro ⟨letters, size, w, hletters, ⟨_, s₁, hsizes, _, s₂, hcode, _, s₃, hdata, _, s₄,
        hregister, hmap⟩, hfails⟩
      obtain ⟨length, hlength, rfl⟩ := Read.map_eq_ok_iff.mp hmap
      exact ⟨_, s₁, hsizes, _, s₂, hcode, _, s₃, hdata, _, s₄, hregister, letters, length, w,
        hletters, hlength, hfails⟩
  · -- Without a `z` in front there are no letters to look at.
    have hhead := (isAugmentation_eq_false_iff.mp (Bool.eq_false_of_not_eq_true haug)).2
    rw [if_neg haug, silent_fail, or_iff_left]
    · change Except.error _ = Except.error e ↔ _
      rw [Except.error.injEq, and_iff_right (Bool.eq_false_of_not_eq_true haug)]
    · rintro ⟨letters, -, -, hletters, -⟩
      exact hhead (by rw [hletters, List.head?_cons])

theorem fields_eq_malformed_iff {offset place : ℕ} {isWide : Bool} {augmentation : String} :
    silent (fields context offset isWide) s = .error (.malformedAugmentation place augmentation) ↔
      place = offset ∧ IsMalformed context augmentation s.bytes := by
  rw [fields_eq_fatal_iff rfl]
  constructor
  · rintro ⟨version, t, hversion, text, u, htext, hfatal⟩
    obtain ⟨hzero, ht⟩ := Read.bytes_of_zeroTerminated htext
    rw [Read.bytes_of_byte hversion, ht]
    rcases hfatal with ⟨hforeign, heq⟩ | ⟨letters, size, w, hletters, hbefore, hfails⟩
    · obtain ⟨rfl, rfl⟩ := Error.malformedAugmentation.inj heq
      obtain ⟨hempty, hhead⟩ := isAugmentation_eq_false_iff.mp hforeign
      exact ⟨rfl, .beginning hzero rfl hempty hhead⟩
    · obtain ⟨before, other, more, after, v, rfl, hread, hother, heq⟩ :=
        (letters_eq_fatal_iff rfl).mp hfails
      obtain ⟨rfl, rfl⟩ := Error.malformedAugmentation.inj heq
      obtain ⟨as, data, has, hdata, hw⟩ := exists_haveData_of_letters hread
      obtain ⟨fields, hfields, hu⟩ := exists_isBeforeLetters hbefore
      rw [hu, hw]
      exact ⟨rfl, .letter hzero rfl (by rw [hletters, has]) hother hfields hdata⟩
  · rintro ⟨rfl, hmalformed⟩
    obtain ⟨start, bytes⟩ := s
    have hread : ∀ {text : List UInt8} (rest : List UInt8), (∀ b ∈ text, b ≠ 0) →
        Read.zeroTerminated ⟨start + 1, text ++ 0 :: rest⟩
          = .ok (text, ⟨start + 1 + (text ++ [0]).length, rest⟩) := by
      intro text rest hzero
      rw [List.append_cons]
      exact Read.takes_zeroTerminated _ hzero rest
    cases hmalformed with
    | @beginning version text rest hzero hstring hempty hhead =>
      refine ⟨version, _, rfl, text, _, hread rest hzero, Or.inl ⟨?_, by rw [hstring]⟩⟩
      rw [← hstring]
      exact isAugmentation_eq_false_iff.mpr ⟨hempty, hhead⟩
    | @letter version size text fields data rest letters other more hzero hstring hletters hother
        hfields hdata =>
      refine ⟨version, _, rfl, text, _, hread _ hzero, Or.inr ?_⟩
      rw [← hstring]
      refine ⟨_, size, _, hletters, hfields.takes _ (data ++ rest), ?_⟩
      exact (letters_eq_fatal_iff rfl).mpr ⟨letters.map Augmentation.letter, other, more, _, _,
        rfl, hdata.takes_letters _ {} _ rest, hother, rfl⟩

end Cie

/-! ## The failures of a record -/

namespace RawRecord

/-- **Which failures of a record are fatal.** Exactly a CIE whose augmentation string is not
understood is given up, with its own offset and that string. All other failures are not fatal: a
field of the record fails, at a place between the identifier and the end of the record, or the CIE
that an FDE refers to is not in the index and nothing of the FDE is decoded. -/
theorem outcome_malformed_iff (context : FrameContext) (index : FrameIndex) (r : RawRecord) :
    (∀ place augmentation,
      r.outcome context index = .error (.malformedAugmentation place augmentation) ↔
        place = r.offset ∧ ∃ s, readId r.isWide r.body = .ok (context.kind.cieId, s) ∧
          Cie.IsMalformed context augmentation s.bytes) ∧
      ∀ e, r.outcome context index = .error e →
        (∃ augmentation, e = .malformedAugmentation r.offset augmentation) ∨
          e.isFatal = false ∧
            (e.IsFieldFailure r.body.offset r.body.stop ∨
              ∃ id s, readId r.isWide r.body = .ok (id, s) ∧ id ≠ context.kind.cieId ∧
                index.cie? (context.kind.cieOffset r.body.offset id).toNat = none ∧
                e = .unknownCie r.offset (context.kind.cieOffset r.body.offset id)) := by
  have hid : Local (fun _ ↦ False) (readId r.isWide) := local_readId r.isWide
  constructor
  · intro place augmentation
    rw [outcome_eq_error_iff, or_iff_right (hid.of_fatal rfl)]
    constructor
    · rintro ⟨id, s, hread, ⟨rfl, hfields⟩ | ⟨-, -, ⟨⟩⟩ | ⟨-, cie, -, hfields⟩⟩
      · obtain ⟨hplace, hmalformed⟩ := Cie.fields_eq_malformed_iff.mp hfields
        exact ⟨hplace, s, hread, hmalformed⟩
      · have hlocal : Local (fun _ ↦ False)
            (silent (Fde.fields context r.offset r.isWide cie)) := Fde.local_fields _ _ _ cie
        exact (hlocal.of_fatal rfl hfields).elim
    · rintro ⟨rfl, s, hread, hmalformed⟩
      exact ⟨_, s, hread, Or.inl ⟨rfl, Cie.fields_eq_malformed_iff.mpr ⟨rfl, hmalformed⟩⟩⟩
  · intro e he
    rcases outcome_eq_error_iff.mp he with hcut | ⟨id, s, hread, hentry⟩
    · have hfield := (hid.fails hcut).resolve_left id
      exact Or.inr ⟨hfield.not_fatal, Or.inl hfield⟩
    obtain ⟨hle, hstop⟩ := hid.forward hread
    rcases hentry with ⟨-, hfields⟩ | ⟨hother, hmissing, heq⟩ | ⟨-, cie, -, hfields⟩
    · rcases (Cie.local_fields context r.offset r.isWide).fails hfields with hmalformed | hfield
      · exact Or.inl hmalformed
      · exact Or.inr ⟨hfield.not_fatal, Or.inl (hstop ▸ hfield.mono hle)⟩
    · refine Or.inr ⟨?_, Or.inr ⟨id, s, hread, hother, hmissing, heq⟩⟩
      rw [heq]
      rfl
    · have hlocal : Local (fun _ ↦ False)
          (silent (Fde.fields context r.offset r.isWide cie)) := Fde.local_fields _ _ _ cie
      have hfield := (hlocal.fails hfields).resolve_left fun h ↦ h
      exact Or.inr ⟨hfield.not_fatal, Or.inl (hstop ▸ hfield.mono hle)⟩

/-- The first `n` bytes of a CIE with a letter that is none, behind one with data. -/
def unknownLetter (n : ℕ) : RawRecord :=
  ⟨16, false, 20, [0, 0, 0, 0, 1, 0x7a, 0x50, 0x58, 0, 1, 0x78, 16, 5, 0x9b, 1, 2, 3, 4].take n⟩

/-- The letter is reported, but not where a byte of the data in front of it is missing. -/
theorem outcome_malformed_iff_unknownLetter :
    (unknownLetter 18).outcome ⟨.ehFrame, 0, 8⟩ (.empty .ehFrame) =
        .error (.malformedAugmentation 16 "zPX") ∧
      (unknownLetter 17).outcome ⟨.ehFrame, 0, 8⟩ (.empty .ehFrame) =
        .error (.truncatedRead 34 4) ∧
      (Error.truncatedRead 34 4).IsFieldFailure 20 37 := by
  have hfields : Cie.IsBeforeLetters ⟨.ehFrame, 0, 8⟩ 1 8 [1, 0x78, 16, 5] :=
    @Cie.IsBeforeLetters.mk _ 1 [] [1] [0x78] [16] [5] rfl (by decide) (by decide) rfl (by decide)
  have hpersonality : (Augmentation.personality ⟨0x9b⟩ 0).HasData 8 [0x9b, 1, 2, 3, 4] :=
    ⟨[1, 2, 3, 4], rfl, Or.inr (by decide)⟩
  have hother : ¬ IsAugmentationLetter 'X' := by simp [IsAugmentationLetter]
  have hmalformed : Cie.IsMalformed ⟨.ehFrame, 0, 8⟩ "zPX"
      (1 :: ([0x7a, 0x50, 0x58] ++ 0 :: ([1, 0x78, 16, 5] ++ ([0x9b, 1, 2, 3, 4] ++ [])))) :=
    .letter (by simp) (by cbv) (by cbv) hother hfields (.cons hpersonality .nil)
  have hcut : (unknownLetter 17).outcome ⟨.ehFrame, 0, 8⟩ (.empty .ehFrame) =
      .error (.truncatedRead 34 4) := by cbv
  refine ⟨?_, hcut, ?_⟩
  · exact ((outcome_malformed_iff _ _ (unknownLetter 18)).1 16 "zPX").mpr
      ⟨rfl, _, by cbv, hmalformed⟩
  · obtain ⟨_, ⟨⟩⟩ | ⟨-, hfield | ⟨_, _, -, -, -, ⟨⟩⟩⟩ :=
      (outcome_malformed_iff _ _ (unknownLetter 17)).2 _ hcut
    exact hfield

end RawRecord

end ElfUnwind
