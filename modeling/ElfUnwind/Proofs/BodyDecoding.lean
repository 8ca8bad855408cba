import ElfUnwind.Frame.Decode
import ElfUnwind.Proofs.PointerRoundTrip

/-!
# Record bodies without their narration

What a decoder tells has no influence on what it gives, so every statement about outcomes is made
about the silent decoder, which is a plain read. Telling becomes a step that does nothing, so that
each part of a body is an equation between reads (`Cie.silent_fields`, `Fde.silent_fields`); what is
proved about the part starts from that equation. These reads go forward (`Cie.forward_fields`,
`Fde.forward_fields`). Only the last step of a body is no such read: it takes all that is left,
whatever that is.
-/

namespace ElfUnwind

namespace BodyDecoder

variable {α β : Type}

/-- The outcome of a decoder, without what it tells. -/
def silent (d : BodyDecoder α) : Read α := fun s ↦ (d s).run.value

@[simp] theorem silent_pure (a : α) : silent (pure a) = pure a := rfl

@[simp] theorem silent_bind (d : BodyDecoder α) (f : α → BodyDecoder β) :
    silent (d >>= f) = silent d >>= fun a ↦ silent (f a) := by
  funext s
  rw [Read.bind_apply]
  change ((d s).run >>= ExceptT.bindCont fun p ↦ f p.1 p.2).value = _
  rw [Told.value_bind]
  cases h : (d s).run.value with
  | error e => simp only [silent, h, Except.bind, ExceptT.bindCont, Told.value_pure]
  | ok p =>
    simp only [silent, h, Except.bind, ExceptT.bindCont]
    rfl

@[simp] theorem silent_read (r : Read α) : silent (read r) = r := rfl

@[simp] theorem silent_tell (e : FrameEvent) : silent (tell e) = pure () := rfl

@[simp] theorem silent_fail (e : Error) : silent (fail e : BodyDecoder α) = throw e := rfl

@[simp] theorem silent_offset : silent offset = Span.offset <$> get := rfl

@[simp] theorem silent_ite (p : Prop) [Decidable p] (d e : BodyDecoder α) :
    silent (if p then d else e) = if p then silent d else silent e :=
  apply_ite silent p d e

@[simp] theorem silent_foldlM (f : α → β → BodyDecoder α) (bs : List β) (a : α) :
    silent (bs.foldlM f a) = bs.foldlM (fun a b ↦ silent (f a b)) a := by
  induction bs generalizing a with
  | nil => rfl
  | cons b bs ih =>
    rw [List.foldlM_cons, List.foldlM_cons, silent_bind]
    congr 1
    funext a'
    exact ih a'

/-- Running a decoder on a whole body gives the value of the silent one. -/
theorem value_runOn (d : BodyDecoder α) (body : Span) :
    (d.runOn body).run.value = (silent d body).map Prod.fst := by
  change ((d body).run >>= ExceptT.bindCont fun p ↦ pure p.1).value = _
  rw [Told.value_bind]
  cases h : (d body).run.value with
  | error e => simp only [silent, h, Except.map, ExceptT.bindCont, Told.value_pure]
  | ok p =>
    simp only [silent, h, Except.map, ExceptT.bindCont]
    rfl

end BodyDecoder

open BodyDecoder
open Read (Yields)

namespace Read.Forward

variable {α β : Type} {record : Nat}

theorem foldlM {f : α → β → Read α} (hf : ∀ a b, Forward record (f a b)) (bs : List β) (a : α) :
    Forward record (bs.foldlM f a) := by
  induction bs generalizing a with
  | nil => exact Forward.pure a
  | cons b bs ih =>
    rw [List.foldlM_cons]
    exact (hf a b).bind ih

theorem ite {p : Prop} [Decidable p] {x y : Read α} (hx : Forward record x)
    (hy : Forward record y) : Forward record (if p then x else y) := by
  split
  · exact hx
  · exact hy

/-- Looking at where one stands takes nothing, though the value depends on it. -/
theorem offset : Forward record (Span.offset <$> get : Read Nat) where
  takes := by
    intro s t a hr
    cases hr
    exact ⟨[], rfl, fun _ ↦ rfl⟩
  fails := by
    intro s e hr
    cases hr

end Read.Forward

/-! ## The fields of a CIE -/

namespace Cie

variable {context : FrameContext} {offset : Nat} {isWide : Bool} {record : Nat}

theorem silent_letterData (addressSize : UInt8) (malformed : Error) (data : AugmentationData)
    (letter : Char) :
    silent (letterData addressSize malformed data letter) =
      if letter = 'R' then Read.byte >>= fun b ↦ pure { data with address := ⟨b⟩ }
      else if letter = 'P' then
        Read.byte >>= fun b ↦ (PointerEncoding.mk b).read addressSize >>= fun _ ↦ pure data
      else if letter = 'L' then Read.byte >>= fun b ↦ pure { data with lsda := ⟨b⟩ }
      else throw malformed := by
  simp only [letterData, silent_ite, silent_bind, silent_read, silent_tell, silent_pure,
    silent_fail, pure_bind]

theorem silent_augmentationData (addressSize : UInt8) (malformed : Error) (augmentation : String) :
    silent (augmentationData addressSize malformed augmentation) =
      if augmentation.toList.head? = some 'z' then
        Read.uleb128 >>= fun _ ↦ augmentation.toList.tail.foldlM
          (fun data l ↦ silent (letterData addressSize malformed data l)) {}
      else pure {} := by
  rw [augmentationData]
  split
  · rename_i letters hletters
    simp only [hletters, List.head?_cons, if_true, List.tail_cons, silent_bind, silent_read,
      silent_tell, silent_foldlM, pure_bind]
  · rename_i hother
    rw [if_neg]
    · rfl
    · intro hhead
      obtain ⟨letters, hletters⟩ := List.head?_eq_some_iff.mp hhead
      exact hother letters hletters

theorem silent_declaredSize (version : UInt8) :
    silent (declaredSize context version) =
      if 4 ≤ version then Read.byte >>= fun addressSize ↦ Read.byte >>= fun _ ↦ pure addressSize
      else pure context.addressSize := by
  simp only [declaredSize, silent_ite, silent_bind, silent_read, silent_tell, silent_pure,
    pure_bind]

theorem silent_fields :
    silent (fields context offset isWide) = do
      let version ← Read.byte
      let text ← Read.zeroTerminated
      silent (checkAugmentation (.malformedAugmentation offset (Text.Utf8.decode text))
        (Text.Utf8.decode text))
      let addressSize ← silent (declaredSize context version)
      let _ ← Read.uleb128
      let dataAlignment ← Read.sleb128
      let _ ← returnRegister version
      let data ← silent (augmentationData addressSize
        (.malformedAugmentation offset (Text.Utf8.decode text)) (Text.Utf8.decode text))
      return ⟨offset, version, Text.Utf8.decode text, addressSize, dataAlignment, data.address,
        data.lsda, isWide, []⟩ := by
  simp only [fields, silent_bind, silent_read, silent_tell, silent_pure, pure_bind]

theorem forward_checkAugmentation {malformed : Error}
    (hm : ∀ offset, malformed.InRecord record offset) (augmentation : String) :
    Read.Forward record (silent (checkAugmentation malformed augmentation)) := by
  rw [checkAugmentation, silent_ite]
  exact Read.Forward.ite (Read.Forward.pure ()) (Read.Forward.throw hm)

theorem forward_letterData {malformed : Error} (hm : ∀ offset, malformed.InRecord record offset)
    (addressSize : UInt8) (data : AugmentationData) (letter : Char) :
    Read.Forward record (silent (letterData addressSize malformed data letter)) := by
  rw [silent_letterData]
  refine Read.Forward.ite ?_ (Read.Forward.ite ?_ (Read.Forward.ite ?_ ?_))
  · exact Read.forward_byte.bind fun encoding ↦ Read.Forward.pure _
  · refine Read.forward_byte.bind fun encoding ↦ ?_
    exact (PointerEncoding.forward_read _ addressSize).bind fun value ↦ Read.Forward.pure data
  · exact Read.forward_byte.bind fun encoding ↦ Read.Forward.pure _
  · exact Read.Forward.throw hm

theorem forward_augmentationData {malformed : Error}
    (hm : ∀ offset, malformed.InRecord record offset) (addressSize : UInt8)
    (augmentation : String) :
    Read.Forward record (silent (augmentationData addressSize malformed augmentation)) := by
  rw [silent_augmentationData]
  refine Read.Forward.ite (Read.forward_uleb128.bind fun length ↦ ?_) (Read.Forward.pure _)
  exact Read.Forward.foldlM (forward_letterData hm addressSize) _ _

theorem forward_declaredSize (version : UInt8) :
    Read.Forward record (silent (declaredSize context version)) := by
  rw [silent_declaredSize]
  refine Read.Forward.ite ?_ (Read.Forward.pure _)
  refine Read.forward_byte.bind fun addressSize ↦ Read.forward_byte.bind fun segmentSize ↦ ?_
  exact Read.Forward.pure addressSize

theorem forward_returnRegister (version : UInt8) : Read.Forward record (returnRegister version) :=
  Read.Forward.ite (Read.forward_byte.map _) Read.forward_uleb128

/-- The fields of a CIE go forward, and an augmentation that is not understood is reported with
the offset of the record. -/
theorem forward_fields : Read.Forward offset (silent (fields context offset isWide)) := by
  rw [silent_fields]
  refine Read.forward_byte.bind fun version ↦ Read.forward_zeroTerminated.bind fun text ↦ ?_
  refine (forward_checkAugmentation (Error.inRecord_malformed offset _) _).bind fun _ ↦ ?_
  refine (forward_declaredSize version).bind fun addressSize ↦ ?_
  refine Read.forward_uleb128.bind fun codeAlignment ↦ ?_
  refine Read.forward_sleb128.bind fun dataAlignment ↦ ?_
  refine (forward_returnRegister version).bind fun register ↦ ?_
  have hdata : Read.Forward offset (silent (augmentationData addressSize
      (.malformedAugmentation offset (Text.Utf8.decode text)) (Text.Utf8.decode text))) :=
    forward_augmentationData (Error.inRecord_malformed offset _) addressSize _
  exact hdata.bind fun data ↦ Read.Forward.pure _

theorem yields_fields : (silent (fields context offset isWide)).Yields (·.offset = offset) := by
  rw [silent_fields]
  refine Yields.bind fun version ↦ Yields.bind fun text ↦ Yields.bind fun _ ↦ ?_
  refine Yields.bind fun addressSize ↦ Yields.bind fun codeAlignment ↦ ?_
  refine Yields.bind fun dataAlignment ↦ Yields.bind fun register ↦ ?_
  exact Yields.bind fun data ↦ Yields.pure rfl

end Cie

/-! ## The fields of an FDE -/

namespace Fde

variable {context : FrameContext} {offset : Nat} {isWide : Bool} {record : Nat}

theorem silent_pointer (encoding : PointerEncoding) (addressSize : UInt8) :
    silent (pointer encoding addressSize) =
      encoding.read addressSize >>= fun value ↦
        value.elim (throw (.invalidPointerEncoding encoding.byte)) pure := by
  simp only [pointer, silent_bind, silent_read]
  refine bind_congr fun value ↦ ?_
  cases value with
  | none => rfl
  | some value => rfl

theorem silent_passLength (cie : Cie) :
    silent (passLength cie) =
      if cie.hasAugmentationData then Read.uleb128 >>= fun _ ↦ pure () else pure () := by
  simp only [passLength, silent_ite, silent_bind, silent_read, silent_tell, silent_pure]

theorem silent_passLsda (cie : Cie) :
    silent (passLsda cie) =
      if cie.hasLsda then cie.lsdaEncoding.read cie.addressSize >>= fun _ ↦ pure ()
      else pure () := by
  simp only [passLsda, silent_ite, silent_bind, silent_read, silent_tell, silent_pure]

theorem silent_fields (cie : Cie) :
    silent (fields context offset isWide cie) = do
      let location ← Span.offset <$> get
      let initial ← silent (pointer cie.addressEncoding cie.addressSize)
      let length ← silent (pointer cie.addressEncoding cie.addressSize)
      silent (passLength cie)
      silent (passLsda cie)
      return ⟨offset, cie, address context cie.addressEncoding location initial,
        address context cie.addressEncoding location initial + length, isWide, []⟩ := by
  simp only [fields, silent_bind, silent_tell, silent_pure, silent_offset, pure_bind]

theorem forward_pointer (encoding : PointerEncoding) (addressSize : UInt8) :
    Read.Forward record (silent (pointer encoding addressSize)) := by
  rw [silent_pointer]
  refine (PointerEncoding.forward_read encoding addressSize).bind fun value ↦ ?_
  cases value with
  | none => exact Read.Forward.throw fun _ ↦ trivial
  | some value => exact Read.Forward.pure value

theorem forward_passLength (cie : Cie) : Read.Forward record (silent (passLength cie)) := by
  rw [silent_passLength]
  exact Read.Forward.ite (Read.forward_uleb128.bind fun _ ↦ Read.Forward.pure ())
    (Read.Forward.pure ())

theorem forward_passLsda (cie : Cie) : Read.Forward record (silent (passLsda cie)) := by
  rw [silent_passLsda]
  exact Read.Forward.ite
    ((PointerEncoding.forward_read _ _).bind fun _ ↦ Read.Forward.pure ()) (Read.Forward.pure ())

theorem forward_fields (cie : Cie) :
    Read.Forward record (silent (fields context offset isWide cie)) := by
  rw [silent_fields]
  refine Read.Forward.offset.bind fun location ↦ ?_
  refine (forward_pointer _ _).bind fun initial ↦ (forward_pointer _ _).bind fun length ↦ ?_
  refine (forward_passLength cie).bind fun _ ↦ ?_
  exact (forward_passLsda cie).bind fun _ ↦ Read.Forward.pure _

theorem yields_fields (cie : Cie) :
    (silent (fields context offset isWide cie)).Yields (·.offset = offset) := by
  rw [silent_fields]
  refine Yields.bind fun location ↦ Yields.bind fun initial ↦ Yields.bind fun length ↦ ?_
  exact Yields.bind fun _ ↦ Yields.bind fun _ ↦ Yields.pure rfl

end Fde

end ElfUnwind
