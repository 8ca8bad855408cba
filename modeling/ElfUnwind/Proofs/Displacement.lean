import ElfUnwind.Proofs.Transcripts

/-!
# The same bytes elsewhere

A section may be decoded at another place: its bytes stand further on by `δ`, and its base changes
so that addresses relative to their own place change by `ε`. Everything a pass reports moves along
(`Transcript.ofSpan_moved`). Two laws are cases of it: bytes behind zeros (`ε = 0`), and a section
that is mapped elsewhere (`δ = 0`).

## What does not move by itself

References in `.debug_frame` are absolute, so they only fit where `δ = 0`. Those of `.eh_frame` are
relative, but the offset they give has 64 bits: the section must end where such offsets do.
-/

namespace ElfUnwind

open BodyDecoder

/-! ## Moving what a pass reports -/

namespace Span

/-- The same bytes further on. -/
def moved (δ : Nat) (s : Span) : Span := ⟨s.offset + δ, s.bytes⟩

@[simp]
theorem bytes_moved (δ : Nat) (s : Span) : (s.moved δ).bytes = s.bytes := rfl

theorem drop_moved (δ n : Nat) (s : Span) : (s.moved δ).drop n = (s.drop n).moved δ := by
  rw [moved, drop, drop, moved, Nat.add_right_comm]

theorem take_moved (δ n : Nat) (s : Span) : (s.moved δ).take n = (s.take n).moved δ := rfl

end Span

/-- The failure, with the offsets of records, reads and CIEs further on. -/
def Error.moved (δ : Nat) : Error → Error
  | truncatedRead offset length => truncatedRead (offset + δ) length
  | unknownCie fdeOffset cieOffset => unknownCie (fdeOffset + δ) (cieOffset + UInt64.ofNat δ)
  | malformedAugmentation offset augmentation => malformedAugmentation (offset + δ) augmentation
  | recordOverrun offset => recordOverrun (offset + δ)
  | e => e

theorem Error.moved_zero (e : Error) : e.moved 0 = e := by
  cases e with
  | unknownCie fdeOffset cieOffset => exact congrArg (unknownCie fdeOffset) (UInt64.add_zero _)
  | _ => rfl

/-- The CIE of a record further on. -/
def Cie.moved (δ : Nat) (c : Cie) : Cie := { c with offset := c.offset + δ }

namespace Fde

/-- The FDE of a record further on. -/
def moved (δ : Nat) (f : Fde) : Fde := { f with offset := f.offset + δ, cie := f.cie.moved δ }

/-- The FDE of a function that is mapped elsewhere. -/
def relocated (ε : UInt64) (f : Fde) : Fde := { f with start := f.start + ε, stop := f.stop + ε }

/-- By how much the addresses change when relative ones change by `ε`. -/
def slide (ε : UInt64) (f : Fde) : UInt64 := if f.addressEncoding.isPcRelative then ε else 0

/-- The FDE of a record further on, with relative addresses changed by `ε`. -/
def displaced (δ : Nat) (ε : UInt64) (f : Fde) : Fde := (f.moved δ).relocated (f.slide ε)

end Fde

/-- The entry of a record further on, with relative addresses changed. -/
def FrameEntry.displaced (δ : Nat) (ε : UInt64) : FrameEntry → FrameEntry
  | cie c => cie (c.moved δ)
  | fde f => fde (f.displaced δ ε)

/-! ## Moving reads -/

namespace Read

variable {α β γ κ : Type} {δ : Nat} {g : α → β} {h : γ → κ} {x : Read α} {y : Read β}

/-- Further on, `y` takes the same bytes as `x` for the value that `g` gives, and fails with the
failure moved along. -/
def Moves (δ : Nat) (g : α → β) (x : Read α) (y : Read β) : Prop :=
  ∀ s, y (s.moved δ) = ((x s).map fun p ↦ (g p.1, p.2.moved δ)).mapError (Error.moved δ)

theorem Moves.pure {a : α} {b : β} (hab : b = g a) :
    Moves δ g (Pure.pure a) (Pure.pure b) := by
  subst hab
  exact fun _ ↦ rfl

theorem Moves.throw {e e' : Error} (he : e' = e.moved δ) :
    Moves δ g (MonadExcept.throw e : Read α) (MonadExcept.throw e' : Read β) := by
  subst he
  exact fun _ ↦ rfl

theorem Moves.bind {f : α → Read γ} {f' : β → Read κ} (hx : Moves δ g x y)
    (hf : ∀ a, Moves δ h (f a) (f' (g a))) : Moves δ h (x >>= f) (y >>= f') := by
  intro s
  have hxs := hx s
  cases hs : x s with
  | error e =>
    rw [hs] at hxs
    rw [bind_of_error hs, bind_of_error hxs]
    rfl
  | ok p =>
    obtain ⟨a, t⟩ := p
    rw [hs] at hxs
    rw [bind_of_ok hs, bind_of_ok hxs]
    exact hf a t

/-- What comes first gives the same value. -/
theorem Moves.bind_same {f f' : α → Read γ} {y : Read α} {k : γ → γ} (hx : Moves δ id x y)
    (hf : ∀ a, Moves δ k (f a) (f' a)) : Moves δ k (x >>= f) (y >>= f') :=
  hx.bind hf

theorem Moves.map {f : α → γ} {f' : β → κ} (hx : Moves δ g x y) (hf : ∀ a, f' (g a) = h (f a)) :
    Moves δ h (f <$> x) (f' <$> y) := by
  rw [map_eq_pure_bind, map_eq_pure_bind]
  exact hx.bind fun a ↦ Moves.pure (hf a)

theorem Moves.map_same {y : Read α} (hx : Moves δ id x y) (f : α → γ) :
    Moves δ id (f <$> x) (f <$> y) :=
  hx.map fun _ ↦ rfl

theorem Moves.ite {p : Prop} [Decidable p] {x' : Read α} {y' : Read β} (hx : Moves δ g x y)
    (hx' : Moves δ g x' y') : Moves δ g (if p then x else x') (if p then y else y') := by
  split
  · exact hx
  · exact hx'

theorem Moves.foldlM {f f' : α → γ → Read α} (hf : ∀ a c, Moves δ id (f a c) (f' a c))
    (cs : List γ) (a : α) : Moves δ id (cs.foldlM f a) (cs.foldlM f' a) := by
  induction cs generalizing a with
  | nil => exact Moves.pure rfl
  | cons c cs ih =>
    rw [List.foldlM_cons, List.foldlM_cons]
    exact (hf a c).bind_same ih

/-! ## The reads move -/

theorem moves_bytes (n : Nat) : Moves δ id (bytes n) (bytes n) := by
  intro s
  by_cases hn : n ≤ s.bytes.length
  · have hmoved : bytes n (s.moved δ) = _ := bytes_of_le hn
    rw [hmoved, bytes_of_le hn, Span.drop_moved]
    rfl
  · have hmoved : bytes n (s.moved δ) = _ := bytes_of_gt (Nat.not_le.mp hn)
    rw [hmoved, bytes_of_gt (Nat.not_le.mp hn)]
    rfl

theorem moves_byte : Moves δ id byte byte := by
  rintro ⟨offset, _ | ⟨b, bs⟩⟩
  · rfl
  · rw [Span.moved, byte_cons, byte_cons, Nat.add_right_comm]
    rfl

theorem moves_unsigned (width : UInt8) : Moves δ id (unsigned width) (unsigned width) := by
  rw [unsigned]
  exact Moves.ite ((moves_bytes _).bind_same fun _ ↦ Moves.pure rfl) (Moves.throw rfl)

theorem moves_signed (width : UInt8) : Moves δ id (signed width) (signed width) := by
  rw [signed]
  exact Moves.ite ((moves_bytes _).bind_same fun _ ↦ Moves.pure rfl) (Moves.throw rfl)

theorem moves_zeroTerminated : Moves δ id zeroTerminated zeroTerminated := by
  intro s
  simp only [zeroTerminated, Span.bytes_moved, Span.drop_moved]
  split <;> rfl

theorem moves_uleb128 : Moves δ id uleb128 uleb128 := by
  intro s
  simp only [uleb128, Span.bytes_moved, Span.drop_moved]
  cases Leb128.decodeUnsigned s.bytes <;> rfl

theorem moves_sleb128 : Moves δ id sleb128 sleb128 := by
  intro s
  simp only [sleb128, Span.bytes_moved, Span.drop_moved]
  cases Leb128.decodeSigned s.bytes <;> rfl

theorem moves_rest : Moves δ id rest rest := by
  intro s
  rw [rest_apply, rest_apply, Span.drop_moved]
  rfl

/-- Where one stands is further on. -/
theorem moves_offset :
    Moves δ (· + δ) (Span.offset <$> get : Read Nat) (Span.offset <$> get : Read Nat) :=
  fun _ ↦ rfl

end Read

open Read (Moves)

namespace PointerEncoding

variable {δ : Nat}

theorem moves_readFormat (addressSize : UInt8) (format : ValueFormat) :
    Moves δ id (format.read addressSize) (format.read addressSize) := by
  cases format with
  | absptr => exact Read.moves_unsigned addressSize
  | uleb128 => exact Read.moves_uleb128
  | udata2 => exact Read.moves_unsigned 2
  | udata4 => exact Read.moves_unsigned 4
  | udata8 => exact Read.moves_unsigned 8
  | sleb128 => exact Read.moves_sleb128.map_same _
  | sdata2 => exact (Read.moves_signed 2).map_same _
  | sdata4 => exact (Read.moves_signed 4).map_same _
  | sdata8 => exact (Read.moves_signed 8).map_same _

theorem moves_read (e : PointerEncoding) (addressSize : UInt8) :
    Moves δ id (e.read addressSize) (e.read addressSize) := by
  rw [read]
  refine Moves.ite (Moves.pure rfl) ?_
  cases e.format? with
  | none => exact Moves.throw rfl
  | some format => exact (moves_readFormat addressSize format).map_same some

end PointerEncoding

/-! ## Contexts -/

/-- What the decoding of a section depends on, and what it depends on where the section stands
further on by `δ`, so that relative addresses change by `ε`. -/
structure FrameContext.Displaced (δ : Nat) (ε : UInt64) (c c' : FrameContext) : Prop where
  /-- Records are numbered in the same way. -/
  kind : c'.kind = c.kind
  /-- Addresses have the same size. -/
  addressSize : c'.addressSize = c.addressSize
  /-- The place and the base together change addresses by `ε`. -/
  base : c'.base + UInt64.ofNat δ = c.base + ε
  /-- References are relative, or nothing stands further on. -/
  references : c.kind = .ehFrame ∨ δ = 0

section Fields

variable {δ : Nat} {ε : UInt64} {c c' : FrameContext}

namespace Cie

theorem moves_checkAugmentation {malformed malformed' : Error}
    (hm : malformed' = malformed.moved δ) (augmentation : String) :
    Moves δ id (silent (checkAugmentation malformed augmentation))
      (silent (checkAugmentation malformed' augmentation)) := by
  simp only [checkAugmentation, silent_ite, silent_pure, silent_fail]
  exact Moves.ite (Moves.pure rfl) (Moves.throw hm)

theorem moves_letterData {malformed malformed' : Error} (hm : malformed' = malformed.moved δ)
    (addressSize : UInt8) (data : AugmentationData) (letter : Char) :
    Moves δ id (silent (letterData addressSize malformed data letter))
      (silent (letterData addressSize malformed' data letter)) := by
  rw [silent_letterData, silent_letterData]
  refine Moves.ite ?_ (Moves.ite ?_ (Moves.ite ?_ ?_))
  · exact Read.moves_byte.bind_same fun encoding ↦ Moves.pure rfl
  · refine Read.moves_byte.bind_same fun encoding ↦ ?_
    exact (PointerEncoding.moves_read _ addressSize).bind_same fun value ↦ Moves.pure rfl
  · exact Read.moves_byte.bind_same fun encoding ↦ Moves.pure rfl
  · exact Moves.throw hm

theorem moves_augmentationData {malformed malformed' : Error}
    (hm : malformed' = malformed.moved δ) (addressSize : UInt8) (augmentation : String) :
    Moves δ id (silent (augmentationData addressSize malformed augmentation))
      (silent (augmentationData addressSize malformed' augmentation)) := by
  rw [silent_augmentationData, silent_augmentationData]
  refine Moves.ite (Read.moves_uleb128.bind_same fun length ↦ ?_) (Moves.pure rfl)
  exact Moves.foldlM (moves_letterData hm addressSize) _ _

theorem moves_declaredSize (h : c.Displaced δ ε c') (version : UInt8) :
    Moves δ id (silent (declaredSize c version)) (silent (declaredSize c' version)) := by
  rw [silent_declaredSize, silent_declaredSize]
  refine Moves.ite ?_ (Moves.pure h.addressSize)
  exact Read.moves_byte.bind_same fun addressSize ↦ Read.moves_byte.bind_same fun segmentSize ↦
    Moves.pure rfl

theorem moves_returnRegister (version : UInt8) :
    Moves δ id (returnRegister version) (returnRegister version) :=
  Moves.ite (Read.moves_byte.map_same _) Read.moves_uleb128

theorem moves_decode (h : c.Displaced δ ε c') (offset : Nat) (isWide : Bool) :
    Moves δ (Cie.moved δ) (silent (decode c offset isWide))
      (silent (decode c' (offset + δ) isWide)) := by
  simp only [decode, silent_bind, silent_fields, silent_read, silent_tell, silent_pure, pure_bind,
    bind_assoc]
  refine Read.moves_byte.bind fun version ↦ Read.moves_zeroTerminated.bind fun text ↦ ?_
  refine (moves_checkAugmentation rfl _).bind fun _ ↦ ?_
  refine (moves_declaredSize h version).bind fun addressSize ↦ ?_
  refine Read.moves_uleb128.bind fun codeAlignment ↦ ?_
  refine Read.moves_sleb128.bind fun dataAlignment ↦ ?_
  refine (moves_returnRegister version).bind fun register ↦ ?_
  refine (moves_augmentationData rfl addressSize _).bind fun data ↦ ?_
  exact Read.moves_rest.bind fun instructions ↦ Moves.pure rfl

end Cie

namespace Fde

theorem moves_pointer (encoding : PointerEncoding) (addressSize : UInt8) :
    Moves δ id (silent (pointer encoding addressSize)) (silent (pointer encoding addressSize)) := by
  rw [silent_pointer]
  refine (PointerEncoding.moves_read encoding addressSize).bind_same fun value ↦ ?_
  cases value with
  | none => exact Moves.throw rfl
  | some value => exact Moves.pure rfl

theorem moves_passLength (cie : Cie) :
    Moves δ id (silent (passLength cie)) (silent (passLength (cie.moved δ))) := by
  rw [silent_passLength, silent_passLength]
  exact Moves.ite (Read.moves_uleb128.bind_same fun _ ↦ Moves.pure rfl) (Moves.pure rfl)

theorem moves_passLsda (cie : Cie) :
    Moves δ id (silent (passLsda cie)) (silent (passLsda (cie.moved δ))) := by
  rw [silent_passLsda, silent_passLsda]
  exact Moves.ite ((PointerEncoding.moves_read _ _).bind_same fun _ ↦ Moves.pure rfl)
    (Moves.pure rfl)

/-- Only an address that is relative to its own place depends on place and base. -/
theorem address_displaced (h : c.Displaced δ ε c') (encoding : PointerEncoding) (place : Nat)
    (value : UInt64) :
    address c' encoding (place + δ) value =
      address c encoding place value + if encoding.isPcRelative then ε else 0 := by
  rw [address, address]
  split
  · calc value + c'.base + UInt64.ofNat (place + δ)
        = value + (c'.base + UInt64.ofNat δ) + UInt64.ofNat place := by
          rw [UInt64.ofNat_add]
          ac_rfl
      _ = value + c.base + UInt64.ofNat place + ε := by
          rw [h.base]
          ac_rfl
  · rw [UInt64.add_zero]

theorem moves_decode (h : c.Displaced δ ε c') (offset : Nat) (isWide : Bool) (cie : Cie) :
    Moves δ (Fde.displaced δ ε) (silent (decode c offset isWide cie))
      (silent (decode c' (offset + δ) isWide (cie.moved δ))) := by
  simp only [decode, silent_bind, silent_fields, silent_read, silent_tell, silent_pure, pure_bind,
    bind_assoc]
  refine Read.moves_offset.bind fun place ↦ (moves_pointer _ _).bind fun initial ↦ ?_
  refine (moves_pointer _ _).bind fun length ↦ (moves_passLength cie).bind fun _ ↦ ?_
  refine (moves_passLsda cie).bind fun _ ↦ Read.moves_rest.bind fun instructions ↦ Moves.pure ?_
  have hstart : address c' (cie.moved δ).addressEncoding (place + δ) initial = _ :=
    address_displaced h cie.addressEncoding place initial
  have hstop (start change : UInt64) : start + change + length = start + length + change := by
    ac_rfl
  dsimp only [id]
  rw [hstart, hstop]
  rfl

end Fde

/-! ## Records -/

/-- The record further on. -/
def RawRecord.moved (δ : Nat) (r : RawRecord) : RawRecord :=
  ⟨r.offset + δ, r.isWide, r.body.moved δ⟩

namespace Framing

/-- What stands at the front of a section further on. -/
def moved (δ : Nat) : Framing → Framing
  | finished => finished
  | zeroLength offset rest => zeroLength (offset + δ) (rest.moved δ)
  | record r rest => record (r.moved δ) (rest.moved δ)
  | invalid cause => invalid (cause.moved δ)

theorem moves_lengthField : Moves δ id lengthField lengthField := by
  rw [lengthField]
  refine (Read.moves_unsigned 4).bind_same fun length ↦ Moves.ite ?_ (Moves.pure rfl)
  exact (Read.moves_unsigned 8).bind_same fun long ↦ Moves.pure rfl

/-- **Records are split off** wherever they stand. -/
theorem next_moved (δ : Nat) (s : Span) : next (s.moved δ) = (next s).moved δ := by
  have hfield := moves_lengthField (δ := δ) s
  rw [next, next, Span.bytes_moved, hfield]
  split
  · rfl
  · cases lengthField s with
    | error e => rfl
    | ok p =>
      obtain ⟨⟨length, isWide⟩, after⟩ := p
      simp only [Except.map, Except.mapError, id]
      split
      · rfl
      · rw [Span.take_moved, Span.drop_moved, Span.bytes_moved]
        split <;> rfl

end Framing

/-- An index that holds at each offset further on the CIE of the other, moved along. -/
def FrameIndex.Moved (δ : Nat) (index index' : FrameIndex) : Prop :=
  ∀ target : UInt64, index'.cie? (target + UInt64.ofNat δ).toNat =
    (index.cie? target.toNat).map (Cie.moved δ)

namespace FrameEntry

theorem cieAt?_displaced (δ : Nat) (ε : UInt64) (e : FrameEntry) {offset place : Nat}
    (h : e.offset + δ = place ↔ e.offset = offset) :
    (e.displaced δ ε).cieAt? place = (e.cieAt? offset).map (Cie.moved δ) := by
  cases e with
  | cie c =>
    change (if c.offset + δ = place then some (c.moved δ) else none) = _
    have hplace : c.offset + δ = place ↔ c.offset = offset := h
    rw [cieAt?, if_congr hplace rfl rfl, apply_ite (Option.map (Cie.moved δ))]
    rfl
  | fde f => rfl

end FrameEntry

namespace FrameIndex

variable {index index' : FrameIndex}

/-- Both stay so where each gets the same entry, if offsets further on still have 64 bits. -/
theorem Moved.add (h : Moved δ index index') {e : FrameEntry}
    (he : δ = 0 ∨ e.offset + δ < 2 ^ 64) (ε : UInt64) :
    Moved δ (index.add e) (index'.add (e.displaced δ ε)) := by
  intro target
  have hplace : e.offset + δ = (target + UInt64.ofNat δ).toNat ↔ e.offset = target.toNat := by
    have htarget := target.toNat_lt
    rw [UInt64.toNat_add, UInt64.toNat_ofNat']
    omega
  rw [cie?_add, cie?_add, e.cieAt?_displaced δ ε hplace, h target, Option.map_or]

end FrameIndex

namespace RawRecord

variable {index index' : FrameIndex} {r : RawRecord}

theorem moves_readId (isWide : Bool) : Moves δ id (readId isWide) (readId isWide) :=
  (Read.moves_unsigned _).bind_same fun _ ↦ Moves.pure rfl

/-- References lead to where their CIEs now stand. -/
theorem cieOffset_displaced (h : c.Displaced δ ε c') (place : Nat) (id : UInt64) :
    c'.kind.cieOffset (place + δ) id = c.kind.cieOffset place id + UInt64.ofNat δ := by
  rw [h.kind]
  rcases h.references with hkind | rfl
  · simp only [hkind, FrameSection.cieOffset, UInt64.ofNat_add, UInt64.sub_eq_add_neg]
    ac_rfl
  · rw [Nat.add_zero]
    exact (UInt64.add_zero _).symm

/-- **A record has the same entry further on**, moved along. -/
theorem entry_moved (h : c.Displaced δ ε c') (hm : index.Moved δ index') (r : RawRecord) :
    (r.moved δ).entry c' index' =
      ((r.entry c index).map (FrameEntry.displaced δ ε)).mapError (Error.moved δ) := by
  have hread : Moves δ (FrameEntry.displaced δ ε) (readEntry c index r)
      (readEntry c' index' (r.moved δ)) := by
    refine (moves_readId r.isWide).bind fun id ↦ ?_
    change Moves δ _ (readEntryOf c index r r.body.offset id)
      (readEntryOf c' index' (r.moved δ) (r.body.offset + δ) id)
    rw [readEntryOf, readEntryOf, cieOffset_displaced h, hm, h.kind]
    refine Moves.ite ?_ ?_
    · exact (Cie.moves_decode h r.offset r.isWide).map fun _ ↦ rfl
    · cases index.cie? (c.kind.cieOffset r.body.offset id).toNat with
      | none => exact Moves.throw rfl
      | some cie =>
        exact (Fde.moves_decode h r.offset r.isWide cie).map fun _ ↦ rfl
  rw [entry, entry]
  change (readEntry c' index' (r.moved δ) (r.body.moved δ)).map Prod.fst = _
  rw [hread r.body]
  cases readEntry c index r r.body <;> rfl

end RawRecord

/-! ## Passes -/

/-- **A pass further on** decodes the same records to the same entries, moved along, and ends in the
same way. -/
theorem Transcript.ofSpan_moved {index index' : FrameIndex} {s : Span} (h : c.Displaced δ ε c')
    (hs : δ = 0 ∨ s.stop + δ ≤ 2 ^ 64) (hm : index.Moved δ index') :
    (ofSpan c' (s.moved δ) index').entries =
        (ofSpan c s index).entries.map (FrameEntry.displaced δ ε) ∧
      (ofSpan c' (s.moved δ) index').ending =
        (ofSpan c s index).ending.mapError (Error.moved δ) := by
  induction s, index using ofSpan.induct c generalizing index' with
  | case1 s index hnext =>
    rw [ofSpan_eq, ofSpan_eq c, Framing.next_moved, hnext]
    exact ⟨rfl, rfl⟩
  | case2 s index cause hnext =>
    rw [ofSpan_eq, ofSpan_eq c, Framing.next_moved, hnext]
    exact ⟨rfl, rfl⟩
  | case3 s index offset rest hnext hkind ih =>
    have hstop := Framing.stop_of_next (Or.inl ⟨offset, hnext⟩)
    rw [ofSpan_eq, ofSpan_eq c, Framing.next_moved, hnext]
    simp only [Framing.moved, h.kind, hkind]
    rw [← hstop] at hs
    exact ih hs hm
  | case4 s index offset rest hnext hkind =>
    rw [ofSpan_eq, ofSpan_eq c, Framing.next_moved, hnext]
    simp only [Framing.moved, h.kind, hkind]
    exact ⟨rfl, rfl⟩
  | case5 s index r rest hnext cause hentry =>
    rw [ofSpan_eq, ofSpan_eq c, Framing.next_moved, hnext]
    simp only [Framing.moved, RawRecord.entry_moved h hm, hentry]
    exact ⟨rfl, rfl⟩
  | case6 s index r rest hnext entry hentry ih =>
    have hlt := Framing.offset_lt_of_next_record hnext
    have hstop := Framing.stop_of_next (Or.inr ⟨r, hnext⟩)
    have hoffset : entry.offset = s.offset :=
      (RawRecord.offset_of_entry hentry).trans (Framing.offset_of_next_record hnext)
    have hfits : δ = 0 ∨ entry.offset + δ < 2 ^ 64 := by
      simp only [Span.stop] at hs hstop
      omega
    rw [ofSpan_eq, ofSpan_eq c, Framing.next_moved, hnext]
    simp only [Framing.moved, RawRecord.entry_moved h hm, hentry]
    rw [← hstop] at hs
    obtain ⟨hentries, hending⟩ := ih hs (hm.add hfits ε)
    exact ⟨congrArg (entry.displaced δ ε :: ·) hentries, hending⟩

end Fields

end ElfUnwind
