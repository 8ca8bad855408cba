import ElfUnwind.Proofs.BackReferences
import ElfUnwind.Proofs.StoredValues

/-!
# Failures of single fields

Decoding a field fails because its bytes are cut off, because its format is not defined, or because
no field has its width. None of these is fatal, and a field that is cut off begins inside the bytes
that are decoded. Whatever consists of such reads is again one (`Read.Local`), so a fatal failure
comes from behind them (`Read.Local.bind_eq_fatal_iff`). Only the steps that look at an augmentation
string have a failure of another kind, and `Read.Local` names it: for the fields of an FDE there is
none.
-/

namespace ElfUnwind

namespace Error

/-- The failure of a field that begins and ends between two offsets. -/
def IsFieldFailure (low high : ℕ) : Error → Prop
  | truncatedRead place _ => low ≤ place ∧ place ≤ high
  | invalidPointerEncoding _ => True
  | unsupportedWidth _ => True
  | _ => False

variable {e : Error} {low low' high : ℕ}

theorem IsFieldFailure.not_fatal (h : e.IsFieldFailure low high) : e.isFatal = false := by
  by_contra hfatal
  obtain ⟨offset, augmentation, rfl⟩ := isFatal_iff.mp (Bool.eq_true_of_not_eq_false hfatal)
  exact h

theorem IsFieldFailure.mono (h : e.IsFieldFailure low high) (hle : low' ≤ low) :
    e.IsFieldFailure low' high := by
  cases e with
  | truncatedRead place length => exact ⟨hle.trans h.1, h.2⟩
  | _ => exact h

end Error

namespace Read

variable {α β : Type} {s t : Span} {e : Error}

theorem Forward.stop_eq {record : ℕ} {r : Read α} {a : α} (h : Forward record r)
    (hr : r s = .ok (a, t)) : t.stop = s.stop := by
  obtain ⟨front, hs, ht, -⟩ := h.exists_front hr
  rw [hs, ht, Span.stop, Span.stop, List.length_append, Nat.add_assoc]

/-- A success goes forward in the span, and a failure is that of a field in it or one of `M`. -/
structure Local (M : Error → Prop) (r : Read α) : Prop where
  /-- What is left ends where the span ends. -/
  forward : ∀ {s t : Span} {a : α}, r s = .ok (a, t) → s.offset ≤ t.offset ∧ t.stop = s.stop
  /-- The field that fails is one of the span. -/
  fails : ∀ {s : Span} {e : Error}, r s = .error e → M e ∨ e.IsFieldFailure s.offset s.stop

variable {M : Error → Prop}

namespace Local

variable {x : Read α} {f : α → Read β}

theorem pure (a : α) : Local M (Pure.pure a : Read α) where
  forward := by
    rintro s t b ⟨⟩
    exact ⟨le_rfl, rfl⟩
  fails := by
    rintro s e ⟨⟩

theorem throw {e : Error} (he : M e) : Local M (MonadExcept.throw e : Read α) where
  forward := by
    rintro s t a ⟨⟩
  fails := by
    rintro s e' ⟨⟩
    exact Or.inl he

theorem throw_field {e : Error} (he : ∀ low high, e.IsFieldFailure low high) :
    Local M (MonadExcept.throw e : Read α) where
  forward := by
    rintro s t a ⟨⟩
  fails := by
    rintro s e' ⟨⟩
    exact Or.inr (he _ _)

theorem bind (hx : Local M x) (hf : ∀ a, Local M (f a)) : Local M (x >>= f) where
  forward := by
    intro s u b hr
    obtain ⟨a, t, hxs, hft⟩ := bind_eq_ok_iff.mp hr
    obtain ⟨hle, hstop⟩ := hx.forward hxs
    obtain ⟨hle', hstop'⟩ := (hf a).forward hft
    exact ⟨hle.trans hle', hstop'.trans hstop⟩
  fails := by
    intro s e hr
    rcases bind_eq_error_iff.mp hr with hxs | ⟨a, t, hxs, hft⟩
    · exact hx.fails hxs
    · obtain ⟨hle, hstop⟩ := hx.forward hxs
      exact ((hf a).fails hft).imp_right fun h ↦ hstop ▸ h.mono hle

theorem map (hx : Local M x) (g : α → β) : Local M (g <$> x) := hx.bind fun a ↦ Local.pure (g a)

theorem ite {p : Prop} [Decidable p] {y : Read α} (hx : p → Local M x) (hy : ¬p → Local M y) :
    Local M (if p then x else y) := by
  split
  · exact hx ‹_›
  · exact hy ‹_›

theorem foldlM {f : α → β → Read α} {bs : List β} (hf : ∀ a, ∀ b ∈ bs, Local M (f a b)) (a : α) :
    Local M (bs.foldlM f a) := by
  induction bs generalizing a with
  | nil => exact Local.pure a
  | cons b bs ih =>
    rw [List.foldlM_cons]
    exact (hf a b List.mem_cons_self).bind (ih fun a c hc ↦ hf a c (List.mem_cons_of_mem b hc))

theorem of_fatal (hx : Local M x) (he : e.isFatal = true) (hr : x s = .error e) : M e := by
  refine (hx.fails hr).resolve_right fun h ↦ ?_
  rw [h.not_fatal] at he
  exact absurd he Bool.false_ne_true

/-- **A fatal failure** comes from behind a read that has none. -/
theorem bind_eq_fatal_iff (hx : Local (fun _ ↦ False) x) (he : e.isFatal = true) :
    (x >>= f) s = .error e ↔ ∃ a t, x s = .ok (a, t) ∧ f a t = .error e := by
  rw [bind_eq_error_iff, or_iff_right (hx.of_fatal he)]

end Local

/-- A read that goes through a list fails at one element, behind all that come before it. -/
theorem foldlM_eq_error_iff {f : α → β → Read α} {bs : List β} {a : α} :
    bs.foldlM f a s = .error e ↔
      ∃ before b more a' t, bs = before ++ b :: more ∧ before.foldlM f a s = .ok (a', t) ∧
        f a' b t = .error e := by
  induction bs generalizing a s with
  | nil =>
    refine iff_of_false (fun h ↦ nomatch h) ?_
    rintro ⟨before, b, more, a', t, hnil, -⟩
    exact List.append_ne_nil_of_right_ne_nil before (List.cons_ne_nil b more) hnil.symm
  | cons c bs ih =>
    rw [List.foldlM_cons, bind_eq_error_iff]
    constructor
    · rintro (hc | ⟨a₁, u, hc, hrest⟩)
      · exact ⟨[], c, bs, a, s, rfl, rfl, hc⟩
      · obtain ⟨before, b, more, a', t, rfl, hbefore, hb⟩ := ih.mp hrest
        refine ⟨c :: before, b, more, a', t, rfl, ?_, hb⟩
        rw [List.foldlM_cons, bind_of_ok hc, hbefore]
    · rintro ⟨_ | ⟨c', before⟩, b, more, a', t, heq, hbefore, hb⟩
      · obtain ⟨rfl, rfl⟩ := List.cons.inj heq
        cases hbefore
        exact Or.inl hb
      · obtain ⟨rfl, rfl⟩ := List.cons.inj heq
        rw [List.foldlM_cons] at hbefore
        obtain ⟨a₁, u, hc, hbefore⟩ := bind_eq_ok_iff.mp hbefore
        exact Or.inr ⟨a₁, u, hc, ih.mpr ⟨before, b, more, a', t, rfl, hbefore, hb⟩⟩

/-! ## The reads of fields -/

/-- A read that wants more bytes than there are fails where it began. -/
theorem local_of_short {r : Read α} (h : Forward 0 r)
    (hshort : ∀ {s e}, r s = .error e → ∃ n, e = short n s) : Local M r where
  forward := fun hr ↦ ⟨h.offset_le hr, h.stop_eq hr⟩
  fails := by
    intro s e hr
    obtain ⟨n, rfl⟩ := hshort hr
    exact Or.inr ⟨le_rfl, Nat.le_add_right _ _⟩

theorem local_bytes (n : ℕ) : Local M (bytes n) :=
  local_of_short (forward_bytes n) fun hr ↦ ⟨n, (bytes_eq_error_iff.mp hr).2⟩

theorem local_byte : Local M byte :=
  local_of_short forward_byte fun hr ↦ ⟨1, (byte_eq_error_iff.mp hr).2⟩

theorem local_zeroTerminated : Local M zeroTerminated :=
  local_of_short forward_zeroTerminated fun hr ↦ ⟨_, (zeroTerminated_eq_error_iff.mp hr).2⟩

theorem local_uleb128 : Local M uleb128 :=
  local_of_short forward_uleb128 fun hr ↦ ⟨1, (uleb128_eq_error_iff.mp hr).2⟩

theorem local_sleb128 : Local M sleb128 :=
  local_of_short forward_sleb128 fun hr ↦ ⟨1, (sleb128_eq_error_iff.mp hr).2⟩

theorem local_unsigned (width : UInt8) : Local M (unsigned width) :=
  Local.ite (fun _ ↦ (local_bytes _).bind fun _ ↦ Local.pure _)
    fun _ ↦ Local.throw_field fun _ _ ↦ trivial

theorem local_signed (width : UInt8) : Local M (signed width) :=
  Local.ite (fun _ ↦ (local_bytes _).bind fun _ ↦ Local.pure _)
    fun _ ↦ Local.throw_field fun _ _ ↦ trivial

end Read

open Read (Local)

variable {M : Error → Prop}

theorem ValueFormat.local_read (format : ValueFormat) (addressSize : UInt8) :
    Local M (format.read addressSize) := by
  cases format with
  | absptr => exact Read.local_unsigned _
  | uleb128 => exact Read.local_uleb128
  | udata2 => exact Read.local_unsigned _
  | udata4 => exact Read.local_unsigned _
  | udata8 => exact Read.local_unsigned _
  | sleb128 => exact Read.local_sleb128.map _
  | sdata2 => exact (Read.local_signed _).map _
  | sdata4 => exact (Read.local_signed _).map _
  | sdata8 => exact (Read.local_signed _).map _

theorem PointerEncoding.local_read (e : PointerEncoding) (addressSize : UInt8) :
    Local M (e.read addressSize) := by
  rw [read]
  refine Local.ite (fun _ ↦ Local.pure none) fun _ ↦ ?_
  split
  · exact Local.throw_field fun _ _ ↦ trivial
  · exact (ValueFormat.local_read _ _).map some

theorem RawRecord.local_readId (isWide : Bool) : Local M (RawRecord.readId isWide) :=
  (Read.local_unsigned _).bind fun _ ↦ Local.pure _

/-! ## The fields of entries -/

open BodyDecoder

namespace Cie

variable {context : FrameContext} {malformed : Error}

theorem local_checkAugmentation (hM : M malformed) (augmentation : String) :
    Local M (silent (checkAugmentation malformed augmentation)) := by
  rw [checkAugmentation, silent_ite]
  exact Local.ite (fun _ ↦ Local.pure ()) fun _ ↦ Local.throw hM

theorem local_letterData {letter : Char} (hM : ¬ IsAugmentationLetter letter → M malformed)
    (addressSize : UInt8) (data : AugmentationData) :
    Local M (silent (letterData addressSize malformed data letter)) := by
  rw [silent_letterData]
  refine Local.ite (fun _ ↦ ?address) fun hR ↦ Local.ite (fun _ ↦ ?personality) fun hP ↦
    Local.ite (fun _ ↦ ?lsda) fun hL ↦ ?other
  case address => exact Read.local_byte.bind fun _ ↦ Local.pure _
  case personality =>
    refine Read.local_byte.bind fun encoding ↦ ?_
    exact (PointerEncoding.local_read _ addressSize).bind fun _ ↦ Local.pure data
  case lsda => exact Read.local_byte.bind fun _ ↦ Local.pure _
  case other => exact Local.throw (hM fun h ↦ h.elim hR fun h ↦ h.elim hP hL)

theorem local_augmentationData (hM : M malformed) (addressSize : UInt8) (augmentation : String) :
    Local M (silent (augmentationData addressSize malformed augmentation)) := by
  rw [silent_augmentationData]
  refine Local.ite (fun _ ↦ Read.local_uleb128.bind fun _ ↦ ?_) fun _ ↦ Local.pure _
  exact Local.foldlM (fun data l _ ↦ local_letterData (fun _ ↦ hM) addressSize data) _

theorem local_declaredSize (context : FrameContext) (version : UInt8) :
    Local M (silent (declaredSize context version)) := by
  rw [silent_declaredSize]
  refine Local.ite (fun _ ↦ ?_) fun _ ↦ Local.pure _
  exact Read.local_byte.bind fun addressSize ↦ Read.local_byte.bind fun _ ↦ Local.pure addressSize

theorem local_returnRegister (version : UInt8) : Local M (returnRegister version) :=
  Local.ite (fun _ ↦ Read.local_byte.map _) fun _ ↦ Read.local_uleb128

/-- All failures of a CIE behind its identifier are those of its fields, except where its
augmentation string is not understood. -/
theorem local_fields (context : FrameContext) (offset : ℕ) (isWide : Bool) :
    Local (fun e ↦ ∃ augmentation, e = .malformedAugmentation offset augmentation)
      (silent (fields context offset isWide)) := by
  rw [silent_fields]
  refine Read.local_byte.bind fun version ↦ Read.local_zeroTerminated.bind fun text ↦ ?_
  refine (local_checkAugmentation ⟨_, rfl⟩ _).bind fun _ ↦ ?_
  refine (local_declaredSize context version).bind fun addressSize ↦ ?_
  refine Read.local_uleb128.bind fun _ ↦ Read.local_sleb128.bind fun _ ↦ ?_
  refine (local_returnRegister version).bind fun _ ↦ ?_
  exact (local_augmentationData ⟨_, rfl⟩ _ _).bind fun _ ↦ Local.pure _

end Cie

namespace Fde

theorem local_pointer (encoding : PointerEncoding) (addressSize : UInt8) :
    Local M (silent (pointer encoding addressSize)) := by
  rw [silent_pointer]
  refine (PointerEncoding.local_read encoding addressSize).bind fun value ↦ ?_
  cases value with
  | none => exact Local.throw_field fun _ _ ↦ trivial
  | some value => exact Local.pure value

theorem local_passLength (cie : Cie) : Local M (silent (passLength cie)) := by
  rw [silent_passLength]
  exact Local.ite (fun _ ↦ Read.local_uleb128.bind fun _ ↦ Local.pure ()) fun _ ↦ Local.pure ()

theorem local_passLsda (cie : Cie) : Local M (silent (passLsda cie)) := by
  rw [silent_passLsda]
  exact Local.ite (fun _ ↦ (PointerEncoding.local_read _ _).bind fun _ ↦ Local.pure ())
    fun _ ↦ Local.pure ()

/-- All failures of an FDE behind its identifier are those of its fields. -/
theorem local_fields (context : FrameContext) (offset : ℕ) (isWide : Bool) (cie : Cie) :
    Local M (silent (fields context offset isWide cie)) := by
  rw [silent_fields]
  have hplace : Local M (Span.offset <$> get : Read ℕ) := by
    refine ⟨?_, ?_⟩
    · rintro s t a ⟨⟩
      exact ⟨le_rfl, rfl⟩
    · rintro s e ⟨⟩
  refine hplace.bind fun location ↦ ?_
  refine (local_pointer _ _).bind fun initial ↦ (local_pointer _ _).bind fun length ↦ ?_
  exact (local_passLength cie).bind fun _ ↦ (local_passLsda cie).bind fun _ ↦ Local.pure _

end Fde

end ElfUnwind
