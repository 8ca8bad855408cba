import ElfUnwind.Frame.PointerEncoding

/-!
# What a read takes

Two notions carry every statement about decoding. `Read.Takes` says that a read takes given bytes
for a given value, whatever stands behind them; it composes along the parts of a record, and a
round trip is the claim that what was written is taken. `Read.Forward` is the converse discipline:
a success has taken some front of the span in this sense, and a failure names a place that is not
before the one the read began at.

## Why the bytes behind are quantified inside

Takes is stated for all continuations at once, not for the one at hand. This is what lets a
success be replayed on another section with the same front, and it is the only fact about reads
that the cutting of a section needs.
-/

namespace ElfUnwind

namespace Error

/-- The failure of a decoder that has come to `offset` in the record at `record`. -/
def InRecord (record offset : Nat) : Error → Prop
  | truncatedRead place _ => offset ≤ place
  | invalidPointerEncoding _ => True
  | unsupportedWidth _ => True
  | malformedAugmentation place _ => place = record
  | unknownCie place _ => place = record
  | _ => False

theorem InRecord.mono {record offset offset' : Nat} {e : Error} (h : e.InRecord record offset')
    (hle : offset ≤ offset') : e.InRecord record offset := by
  cases e with
  | truncatedRead place length => exact Nat.le_trans hle h
  | _ => exact h

theorem inRecord_malformed (record : Nat) (augmentation : String) (offset : Nat) :
    (malformedAugmentation record augmentation).InRecord record offset := rfl

end Error

namespace Read

variable {α β : Type}

/-! ## Running a read -/

theorem bind_apply (x : Read α) (f : α → Read β) (s : Span) :
    (x >>= f) s = (x s).bind fun p ↦ f p.1 p.2 := rfl

theorem bind_of_ok {x : Read α} {s t : Span} {a : α} (h : x s = .ok (a, t)) (f : α → Read β) :
    (x >>= f) s = f a t := by
  rw [bind_apply, h]
  rfl

theorem bind_of_error {x : Read α} {s : Span} {e : Error} (h : x s = .error e) (f : α → Read β) :
    (x >>= f) s = .error e := by
  rw [bind_apply, h]
  rfl

theorem bind_eq_ok_iff {x : Read α} {f : α → Read β} {s u : Span} {b : β} :
    (x >>= f) s = .ok (b, u) ↔ ∃ a t, x s = .ok (a, t) ∧ f a t = .ok (b, u) := by
  cases h : x s with
  | error e => simp [bind_of_error h]
  | ok p =>
    obtain ⟨a, t⟩ := p
    rw [bind_of_ok h]
    constructor
    · intro hf
      exact ⟨a, t, rfl, hf⟩
    · rintro ⟨a', t', heq, hf⟩
      cases heq
      exact hf

theorem bind_eq_error_iff {x : Read α} {f : α → Read β} {s : Span} {e : Error} :
    (x >>= f) s = .error e ↔
      x s = .error e ∨ ∃ a t, x s = .ok (a, t) ∧ f a t = .error e := by
  cases h : x s with
  | error e' => simp [bind_of_error h]
  | ok p =>
    obtain ⟨a, t⟩ := p
    rw [bind_of_ok h]
    constructor
    · intro hf
      exact Or.inr ⟨a, t, rfl, hf⟩
    · rintro (heq | ⟨a', t', heq, hf⟩)
      · cases heq
      · cases heq
        exact hf

theorem map_eq_ok_iff {x : Read α} {g : α → β} {s t : Span} {b : β} :
    (g <$> x) s = .ok (b, t) ↔ ∃ a, x s = .ok (a, t) ∧ b = g a := by
  rw [map_eq_pure_bind, bind_eq_ok_iff]
  constructor
  · rintro ⟨a, u, hx, hpure⟩
    cases hpure
    exact ⟨a, hx, rfl⟩
  · rintro ⟨a, hx, rfl⟩
    exact ⟨a, t, hx, rfl⟩

theorem map_eq_error_iff {x : Read α} {g : α → β} {s : Span} {e : Error} :
    (g <$> x) s = .error e ↔ x s = .error e := by
  rw [map_eq_pure_bind, bind_eq_error_iff]
  constructor
  · rintro (hx | ⟨a, t, -, hpure⟩)
    · exact hx
    · cases hpure
  · exact Or.inl

/-! ## Taking given bytes -/

/-- The read takes `front`, standing at `offset`, for the value `a`, whatever stands behind it. -/
def Takes (r : Read α) (offset : Nat) (front : List UInt8) (a : α) : Prop :=
  ∀ tail, r ⟨offset, front ++ tail⟩ = .ok (a, ⟨offset + front.length, tail⟩)

theorem Takes.pure (a : α) (offset : Nat) : Takes (pure a : Read α) offset [] a := fun _ ↦ rfl

theorem Takes.bind {x : Read α} {f : α → Read β} {offset : Nat} {front more : List UInt8} {a : α}
    {b : β} (hx : x.Takes offset front a) (hf : (f a).Takes (offset + front.length) more b) :
    (x >>= f).Takes offset (front ++ more) b := by
  intro tail
  rw [List.append_assoc, bind_of_ok (hx (more ++ tail)), hf tail, List.length_append,
    Nat.add_assoc]

theorem Takes.map {x : Read α} {offset : Nat} {front : List UInt8} {a : α}
    (hx : x.Takes offset front a) (g : α → β) : (g <$> x).Takes offset front (g a) := by
  have h := hx.bind (f := fun a ↦ Pure.pure (g a)) (Takes.pure (g a) _)
  rwa [List.append_nil] at h

theorem Takes.bind_pure {x : Read α} {offset : Nat} {front : List UInt8} {a : α}
    (hx : x.Takes offset front a) (g : α → β) :
    (x >>= fun a ↦ Pure.pure (g a)).Takes offset front (g a) := hx.map g

/-- Looking at where one stands takes nothing. -/
theorem Takes.offset_bind {f : Nat → Read α} {offset : Nat} {front : List UInt8} {a : α}
    (h : (f offset).Takes offset front a) :
    ((Span.offset <$> get : Read Nat) >>= f).Takes offset front a := fun tail ↦ h tail

theorem takes_bytes (offset : Nat) (front : List UInt8) :
    (bytes front.length).Takes offset front front := bytes_append offset front

theorem takes_byte (offset : Nat) (b : UInt8) : byte.Takes offset [b] b := fun _ ↦ rfl

theorem takes_zeroTerminated (offset : Nat) {text : List UInt8} (h : ∀ b ∈ text, b ≠ 0) :
    zeroTerminated.Takes offset (text ++ [0]) text := by
  intro tail
  have htext : ((text ++ [0]) ++ tail).takeWhile (· ≠ 0) = text := by
    rw [List.append_assoc, List.takeWhile_append_of_pos (by simpa using h)]
    simp
  have hlt : text.length < ((text ++ [0]) ++ tail).length := by simp
  have hdrop : ((text ++ [0]) ++ tail).drop (text.length + 1) = tail := by
    rw [show text.length + 1 = (text ++ [0]).length by simp, List.drop_left]
  simp only [zeroTerminated, htext]
  rw [if_pos hlt, Span.drop, hdrop, List.length_append, List.length_singleton]

/-! ## What every success gives -/

/-- Every success gives a value with the property. -/
def Yields (r : Read α) (P : α → Prop) : Prop := ∀ (s t : Span) (a : α), r s = .ok (a, t) → P a

theorem Yields.pure {P : α → Prop} {a : α} (h : P a) : Yields (Pure.pure a) P := by
  intro s t b hr
  cases hr
  exact h

/-- What comes first has no say in it. -/
theorem Yields.bind {x : Read α} {f : α → Read β} {P : β → Prop} (hf : ∀ a, (f a).Yields P) :
    (x >>= f).Yields P := by
  intro s u b hr
  obtain ⟨a, t, -, hft⟩ := bind_eq_ok_iff.mp hr
  exact hf a t u b hft

theorem Yields.bind_of {x : Read α} {f : α → Read β} {Q : α → Prop} {P : β → Prop}
    (hx : x.Yields Q) (hf : ∀ a, Q a → (f a).Yields P) : (x >>= f).Yields P := by
  intro s u b hr
  obtain ⟨a, t, hxs, hft⟩ := bind_eq_ok_iff.mp hr
  exact hf a (hx s t a hxs) t u b hft

theorem Yields.throw (e : Error) (P : α → Prop) :
    (MonadExcept.throw e : Read α).Yields P := by
  intro s t a hr
  cases hr

theorem Yields.ite {p : Prop} [Decidable p] {x y : Read α} {P : α → Prop}
    (hx : p → x.Yields P) (hy : ¬p → y.Yields P) : (if p then x else y).Yields P := by
  split
  · exact hx ‹_›
  · exact hy ‹_›

/-! ## Going forward -/

/-- A success has taken a front of the span, and a failure names no place before it. -/
structure Forward (record : Nat) (r : Read α) : Prop where
  /-- What was taken gives the same value whatever stands behind it. -/
  takes : ∀ {s t : Span} {a : α}, r s = .ok (a, t) →
    ∃ front, s.bytes = front ++ t.bytes ∧ r.Takes s.offset front a
  /-- A failure belongs to the record that is decoded. -/
  fails : ∀ {s : Span} {e : Error}, r s = .error e → e.InRecord record s.offset

namespace Forward

variable {record : Nat} {r : Read α}

/-- A success leaves the rest of the bytes behind what was taken. -/
theorem exists_front (h : Forward record r) {s t : Span} {a : α} (hr : r s = .ok (a, t)) :
    ∃ front, s = ⟨s.offset, front ++ t.bytes⟩ ∧ t = ⟨s.offset + front.length, t.bytes⟩ ∧
      r.Takes s.offset front a := by
  obtain ⟨front, hs, htakes⟩ := h.takes hr
  have hspan : s = ⟨s.offset, front ++ t.bytes⟩ := by rw [← hs]
  have ht : (.ok (a, t) : Except Error (α × Span))
      = .ok (a, ⟨s.offset + front.length, t.bytes⟩) := by
    rw [← htakes t.bytes, ← hspan, hr]
  injection ht with ht
  exact ⟨front, hspan, congrArg Prod.snd ht, htakes⟩

theorem offset_le (h : Forward record r) {s t : Span} {a : α} (hr : r s = .ok (a, t)) :
    s.offset ≤ t.offset := by
  obtain ⟨front, -, ht, -⟩ := h.exists_front hr
  rw [ht]
  exact Nat.le_add_right _ _

/-- What is left is a suffix of what there was. -/
theorem bytes_suffix (h : Forward record r) {s t : Span} {a : α} (hr : r s = .ok (a, t)) :
    t.bytes <:+ s.bytes := by
  obtain ⟨front, hs, -⟩ := h.takes hr
  exact ⟨front, hs.symm⟩

theorem pure (a : α) : Forward record (Pure.pure a : Read α) where
  takes := by
    intro s t b hr
    cases hr
    exact ⟨[], rfl, Takes.pure a _⟩
  fails := by
    intro s e hr
    cases hr

theorem throw {e : Error} (he : ∀ offset, e.InRecord record offset) :
    Forward record (MonadExcept.throw e : Read α) where
  takes := by
    intro s t a hr
    cases hr
  fails := by
    intro s e' hr
    cases hr
    exact he _

theorem bind {x : Read α} {f : α → Read β} (hx : Forward record x)
    (hf : ∀ a, Forward record (f a)) : Forward record (x >>= f) where
  takes := by
    intro s u b hr
    obtain ⟨a, t, hxs, hft⟩ := bind_eq_ok_iff.mp hr
    obtain ⟨front, hs, ht, hxt⟩ := hx.exists_front hxs
    obtain ⟨more, hmore, hfm⟩ := (hf a).takes hft
    refine ⟨front ++ more, ?_, hxt.bind ?_⟩
    · rw [List.append_assoc, ← hmore, hs]
    · rw [ht] at hfm
      exact hfm
  fails := by
    intro s e hr
    rcases bind_eq_error_iff.mp hr with hxs | ⟨a, t, hxs, hft⟩
    · exact hx.fails hxs
    · exact ((hf a).fails hft).mono (hx.offset_le hxs)

theorem map {x : Read α} (hx : Forward record x) (g : α → β) : Forward record (g <$> x) :=
  hx.bind fun a ↦ Forward.pure (g a)

end Forward

/-! ## The reads go forward -/

variable {record : Nat}

theorem forward_bytes (n : Nat) : Forward record (bytes n) where
  takes := by
    intro s t front hr
    by_cases hn : n ≤ s.bytes.length
    · rw [bytes_of_le hn] at hr
      cases hr
      have hlen : (s.bytes.take n).length = n := by rw [List.length_take, Nat.min_eq_left hn]
      refine ⟨s.bytes.take n, (List.take_append_drop n s.bytes).symm, ?_⟩
      have h := takes_bytes s.offset (s.bytes.take n)
      rwa [hlen] at h
    · rw [bytes_of_gt (by omega)] at hr
      cases hr
  fails := by
    intro s e hr
    by_cases hn : n ≤ s.bytes.length
    · rw [bytes_of_le hn] at hr
      cases hr
    · rw [bytes_of_gt (by omega)] at hr
      cases hr
      exact Nat.le_refl _

theorem forward_byte : Forward record byte where
  takes := by
    intro s t b hr
    obtain ⟨offset, bs⟩ := s
    cases bs with
    | nil => cases hr
    | cons b' bs =>
      cases hr
      exact ⟨[b], rfl, takes_byte _ _⟩
  fails := by
    intro s e hr
    obtain ⟨offset, bs⟩ := s
    cases bs with
    | nil =>
      cases hr
      exact Nat.le_refl _
    | cons b' bs => cases hr

theorem forward_unsigned (width : UInt8) : Forward record (unsigned width) := by
  rw [unsigned]
  split
  · exact (forward_bytes _).bind fun _ ↦ Forward.pure _
  · exact Forward.throw fun _ ↦ trivial

/-- A number of a fixed width takes that many bytes. -/
theorem drop_of_unsigned {width : UInt8} (hw : isWidth width = true) {s t : Span} {value : UInt64}
    (h : unsigned width s = .ok (value, t)) :
    width.toNat ≤ s.bytes.length ∧ t = s.drop width.toNat := by
  rw [unsigned, if_pos hw] at h
  obtain ⟨front, u, hread, hpure⟩ := bind_eq_ok_iff.mp h
  cases hpure
  by_cases hle : width.toNat ≤ s.bytes.length
  · rw [bytes_of_le hle] at hread
    cases hread
    exact ⟨hle, rfl⟩
  · rw [bytes_of_gt (Nat.lt_of_not_le hle)] at hread
    cases hread

theorem forward_signed (width : UInt8) : Forward record (signed width) := by
  rw [signed]
  split
  · exact (forward_bytes _).bind fun _ ↦ Forward.pure _
  · exact Forward.throw fun _ ↦ trivial

/-- The bytes before the first zero hold none, and the zero stands behind them. -/
theorem takeWhile_append_zero {bs : List UInt8}
    (h : (bs.takeWhile (· ≠ 0)).length < bs.length) :
    bs = bs.takeWhile (· ≠ 0) ++ [0] ++ bs.drop ((bs.takeWhile (· ≠ 0)).length + 1) := by
  induction bs with
  | nil => simp at h
  | cons b bs ih =>
    by_cases hb : b = 0
    · subst hb
      simp
    · rw [List.takeWhile_cons_of_pos (by simpa using hb)] at h ⊢
      have hrest := ih (by simpa using h)
      rw [List.length_cons, List.drop_succ_cons, List.cons_append, List.cons_append, ← hrest]

theorem forward_zeroTerminated : Forward record zeroTerminated where
  takes := by
    intro s t text hr
    simp only [zeroTerminated] at hr
    split at hr
    · rename_i hlt
      cases hr
      refine ⟨s.bytes.takeWhile (· ≠ 0) ++ [0], takeWhile_append_zero hlt, ?_⟩
      have hall := List.all_eq_true.mp (List.all_takeWhile (p := (· ≠ 0)) (l := s.bytes))
      exact takes_zeroTerminated _ fun b hb ↦ of_decide_eq_true (hall b hb)
    · cases hr
  fails := by
    intro s e hr
    simp only [zeroTerminated] at hr
    split at hr
    · cases hr
    · cases hr
      exact Nat.le_refl _

end Read

end ElfUnwind
