import ElfUnwind.Proofs.RecordRoundTrip

/-!
# Sections one behind the other

A pass keeps nothing but the index and the place it has come to. So a section that is decoded to its
end can be taken away from the front of another: what is left is decoded as it would be behind as
many zeros, which `.eh_frame` passes over (`FrameIndex.decodeInto_append`). In `.debug_frame` a
length of zero ends the pass, so nothing that stands behind one counts.

## What more bytes change

The front of a section is split off by its own length (`Framing.next_append`). Bytes that are put
behind a section are therefore not seen before its end, and there only if the pass gets that far.
-/

namespace ElfUnwind

namespace Span

/-- The span with more bytes behind it. -/
def append (tail : List UInt8) (s : Span) : Span := ⟨s.offset, s.bytes ++ tail⟩

end Span

namespace Framing

/-! ## Bytes behind a record -/

/-- What stands at the front, with more bytes behind what follows it. -/
def append (tail : List UInt8) : Framing → Framing
  | finished => finished
  | zeroLength offset rest => zeroLength offset (rest.append tail)
  | record r rest => record r (rest.append tail)
  | invalid cause => invalid cause

theorem forward_lengthField (record : Nat) : Read.Forward record lengthField := by
  rw [lengthField]
  refine (Read.forward_unsigned 4).bind fun length ↦ Read.Forward.ite ?_ (Read.Forward.pure _)
  exact (Read.forward_unsigned 8).bind fun long ↦ Read.Forward.pure _

/-- A span is empty, or begins with a length field, or with none. -/
theorem next_cases (s : Span) :
    s.bytes = [] ∨ (∃ e, next s = .invalid e) ∨
      ∃ front length isWide tail, s = ⟨s.offset, front ++ tail⟩ ∧
        lengthField.Takes s.offset front (length, isWide) := by
  by_cases hs : s.bytes = []
  · exact Or.inl hs
  · refine Or.inr ?_
    cases h : lengthField s with
    | error e => exact Or.inl ⟨e, next_of_error hs h⟩
    | ok p =>
      obtain ⟨⟨length, isWide⟩, t⟩ := p
      obtain ⟨front, hspan, -, htakes⟩ := (forward_lengthField s.offset).exists_front h
      exact Or.inr ⟨front, length, isWide, t.bytes, hspan, htakes⟩

/-- **What was split off is split off the same way** whatever is put behind it, and what follows it
ends where it ended. -/
theorem next_append {s : Span} (hs : next s ≠ .finished) (h : ∀ e, next s ≠ .invalid e)
    (tail : List UInt8) : next (s.append tail) = (next s).append tail := by
  rcases next_cases s with hnil | ⟨e, he⟩ | ⟨front, length, isWide, rest, hspan, htakes⟩
  · exact absurd (next_of_nil hnil) hs
  · exact absurd he (h e)
  · have hnext := next_of_takes htakes rest
    have hmore := next_of_takes htakes (rest ++ tail)
    rw [← hspan] at hnext
    rw [hnext] at h ⊢
    rw [hspan, Span.append, List.append_assoc, hmore]
    by_cases hzero : length = 0
    · rw [if_pos hzero, if_pos hzero]
      rfl
    · rw [if_neg hzero] at h ⊢
      by_cases hle : length.toNat ≤ rest.length
      · have hmoreLe : length.toNat ≤ (rest ++ tail).length := by
          rw [List.length_append]
          exact Nat.le_add_right_of_le hle
        rw [if_neg hzero, if_pos hle, if_pos hmoreLe, List.take_append_of_le_length hle,
          List.drop_append_of_le_length hle]
        rfl
      · rw [if_neg hle] at h
        exact absurd rfl (h _)

theorem bytes_eq_nil_of_next {s : Span} (h : next s = .finished) : s.bytes = [] := by
  rcases next_cases s with hnil | ⟨e, he⟩ | ⟨front, length, isWide, tail, hspan, htakes⟩
  · exact hnil
  · rw [he] at h
    cases h
  · have hnext := next_of_takes htakes tail
    rw [← hspan, h] at hnext
    split at hnext
    · cases hnext
    · split at hnext <;> cases hnext

/-- What follows a record ends where the span ends. -/
theorem stop_of_next {s rest : Span}
    (h : (∃ offset, next s = .zeroLength offset rest) ∨ ∃ r, next s = .record r rest) :
    rest.stop = s.stop := by
  rcases next_cases s with hnil | ⟨e, he⟩ | ⟨front, length, isWide, tail, hspan, htakes⟩
  · rw [next_of_nil hnil] at h
    rcases h with ⟨_, h⟩ | ⟨_, h⟩ <;> cases h
  · rw [he] at h
    rcases h with ⟨_, h⟩ | ⟨_, h⟩ <;> cases h
  · have hnext := next_of_takes htakes tail
    rw [← hspan] at hnext
    rw [hnext] at h
    have hstop : s.stop = s.offset + front.length + tail.length := by
      rw [hspan, Span.stop, List.length_append, Nat.add_assoc]
    by_cases hzero : length = 0
    · rw [if_pos hzero] at h
      rcases h with ⟨_, h⟩ | ⟨_, h⟩ <;> cases h
      exact hstop.symm
    · rw [if_neg hzero] at h
      by_cases hle : length.toNat ≤ tail.length
      · rw [if_pos hle] at h
        rcases h with ⟨_, h⟩ | ⟨_, h⟩ <;> cases h
        rw [hstop, Span.stop, List.length_drop, Nat.add_assoc, Nat.add_sub_cancel' hle]
      · rw [if_neg hle] at h
        rcases h with ⟨_, h⟩ | ⟨_, h⟩ <;> cases h

end Framing

/-! ## Bytes behind a section -/

namespace FrameIndex

variable {context : FrameContext} {index grown : FrameIndex} {s : Span}

/-- A length of zero ends the pass in `.debug_frame`. -/
theorem decodeFrom_zeroLength_of_debugFrame {rest : Span} {offset : Nat} (index : FrameIndex)
    (h : Framing.next s = .zeroLength offset rest) (hkind : context.kind = .debugFrame) :
    (index.decodeFrom context s).value = (.ok (), index) := by
  rw [value_decodeFrom, h]
  simp only [hkind]

/-- **A pass over more bytes** begins with the pass over the section in front. Where that comes to
its end, the rest is decoded from there into the index it has left, unless a length of zero has
ended the pass for good. -/
theorem decodeFrom_append (h : (index.decodeFrom context s).value = (.ok (), grown))
    (tail : List UInt8) :
    (index.decodeFrom context (s.append tail)).value =
        (grown.decodeFrom context ⟨s.stop, tail⟩).value ∨
      (context.kind = .debugFrame ∧
        (index.decodeFrom context (s.append tail)).value = (.ok (), grown)) := by
  induction s, index using decodeFrom.induct with
  | case1 s index hnext =>
    rw [decodeFrom_finished index hnext] at h
    cases h
    have hnil : s.bytes = [] := Framing.bytes_eq_nil_of_next hnext
    left
    rw [Span.append, Span.stop, hnil, List.nil_append, List.length_nil, Nat.add_zero]
  | case2 s index cause hnext =>
    rw [decodeFrom_invalid index hnext] at h
    cases h
  | case3 s index offset rest hnext ih =>
    have hmore := Framing.next_append (s := s) (by simp [hnext]) (by simp [hnext]) tail
    rw [hnext, Framing.append] at hmore
    rw [← Framing.stop_of_next (Or.inl ⟨offset, hnext⟩)]
    cases hkind : context.kind with
    | ehFrame =>
      rw [decodeFrom_zeroLength index hnext hkind] at h
      rw [decodeFrom_zeroLength index hmore hkind, ← hkind]
      exact ih h
    | debugFrame =>
      rw [decodeFrom_zeroLength_of_debugFrame index hnext hkind] at h
      rw [decodeFrom_zeroLength_of_debugFrame index hmore hkind]
      exact Or.inr ⟨rfl, h⟩
  | case4 s index r rest hnext ih =>
    have hmore := Framing.next_append (s := s) (by simp [hnext]) (by simp [hnext]) tail
    rw [hnext, Framing.append] at hmore
    rw [← Framing.stop_of_next (Or.inr ⟨r, hnext⟩)]
    cases hr : r.outcome context index with
    | error e =>
      rw [value_decodeFrom, hnext] at h
      simp only [hr] at h
      cases h
    | ok next =>
      rw [decodeFrom_record hnext hr] at h
      rw [decodeFrom_record hmore hr]
      exact ih next h

/-- Zeros are lengths of zero, which `.eh_frame` passes over. -/
theorem decodeFrom_zeros (hkind : context.kind = .ehFrame) (index : FrameIndex) (n offset : Nat)
    (tail : List UInt8) :
    (index.decodeFrom context ⟨offset, List.replicate (4 * n) 0 ++ tail⟩).value =
      (index.decodeFrom context ⟨offset + 4 * n, tail⟩).value := by
  induction n generalizing offset with
  | zero => rfl
  | succ n ih =>
    have hzero : FrameItem.frame false [] = List.replicate 4 0 := by decide
    have hsplit : List.replicate (4 * (n + 1)) (0 : UInt8) ++ tail =
        FrameItem.frame false [] ++ (List.replicate (4 * n) 0 ++ tail) := by
      rw [hzero, ← List.append_assoc, List.replicate_append_replicate]
      congr 2
      omega
    have hnext := FrameItem.next_zeroLength false offset (List.replicate (4 * n) 0 ++ tail)
    rw [hsplit, decodeFrom_zeroLength index hnext hkind, ih, hzero, List.length_replicate]
    congr 3
    omega

/-- **Decoding is compositional.** Behind a section of `.eh_frame` that was decoded to its end, and
whose length is a multiple of four, bytes are decoded as they are into the index it has left, with
zeros in its place. Behind a section of `.debug_frame` and a length of zero nothing counts. -/
theorem decodeInto_append {front : List UInt8}
    (h : (index.decodeInto context front).value.1 = .ok ()) :
    (context.kind = .ehFrame → 4 ∣ front.length → ∀ back,
      (index.decodeInto context (front ++ back)).value =
        ((index.decodeInto context front).value.2.decodeInto context
          (List.replicate front.length 0 ++ back)).value) ∧
      (context.kind = .debugFrame → ∀ isWide junk,
        (index.decodeInto context (front ++ FrameItem.lengthField isWide 0 ++ junk)).value =
          (.ok (), (index.decodeInto context front).value.2)) := by
  have hfront : (index.decodeFrom context ⟨0, front⟩).value =
      (.ok (), (index.decodeInto context front).value.2) := Prod.ext h rfl
  have hstop : (⟨0, front⟩ : Span).stop = front.length := Nat.zero_add _
  constructor
  · intro hkind hdvd back
    obtain ⟨n, hn⟩ := hdvd
    rcases decodeFrom_append hfront back with hrest | ⟨hdebug, -⟩
    · rw [hstop] at hrest
      rw [decodeInto, decodeInto, hn, decodeFrom_zeros hkind, Nat.zero_add, ← hn]
      exact hrest
    · rw [hkind] at hdebug
      cases hdebug
  · intro hkind isWide junk
    rw [List.append_assoc]
    rcases decodeFrom_append hfront (FrameItem.lengthField isWide 0 ++ junk) with hrest | ⟨-, hends⟩
    · -- The pass has come to the length of zero, which ends it.
      have hnext := FrameItem.next_zeroLength isWide front.length junk
      rw [FrameItem.frame, List.append_nil, List.length_nil] at hnext
      rw [hstop, decodeFrom_zeroLength_of_debugFrame _ hnext hkind] at hrest
      exact hrest
    · exact hends

/-- A CIE without augmentation in a section of the given kind. -/
def plainCie (kind : FrameSection) : List UInt8 :=
  FrameItem.frame false (FrameItem.idField false kind.cieId.toNat ++ [1, 0, 1, 0x78, 16, 12, 7, 8])

/-- An FDE that refers to the CIE in front of it. -/
def fdeBehind : List UInt8 :=
  FrameItem.frame false
    (FrameItem.idField false 20 ++ LittleEndian.ofNat 8 0x4000 ++ LittleEndian.ofNat 8 0x20)

theorem decodeInto_append_plainCie :
    (((empty .ehFrame).decodeInto ⟨.ehFrame, 0x1000, 8⟩ (plainCie .ehFrame)).value.1 = .ok () ∧
      4 ∣ (plainCie .ehFrame).length ∧
      ((empty .ehFrame).decodeInto ⟨.ehFrame, 0x1000, 8⟩ (plainCie .ehFrame ++ fdeBehind)).value =
        (((empty .ehFrame).decodeInto ⟨.ehFrame, 0x1000, 8⟩ (plainCie .ehFrame)).value.2.decodeInto
          ⟨.ehFrame, 0x1000, 8⟩
          (List.replicate (plainCie .ehFrame).length 0 ++ fdeBehind)).value) ∧
      (((empty .debugFrame).decodeInto ⟨.debugFrame, 0, 8⟩ (plainCie .debugFrame)).value.1 =
          .ok () ∧
        ((empty .debugFrame).decodeInto ⟨.debugFrame, 0, 8⟩
            (plainCie .debugFrame ++ FrameItem.lengthField true 0 ++ [0xde, 0xad])).value =
          (.ok (), ((empty .debugFrame).decodeInto ⟨.debugFrame, 0, 8⟩
            (plainCie .debugFrame)).value.2)) := by
  have heh : ((empty .ehFrame).decodeInto ⟨.ehFrame, 0x1000, 8⟩ (plainCie .ehFrame)).value.1 =
      .ok () := by cbv
  have hdebug : ((empty .debugFrame).decodeInto ⟨.debugFrame, 0, 8⟩
      (plainCie .debugFrame)).value.1 = .ok () := by cbv
  have hdvd : 4 ∣ (plainCie .ehFrame).length := by decide
  exact ⟨⟨heh, hdvd, (decodeInto_append heh).1 rfl hdvd fdeBehind⟩,
    hdebug, (decodeInto_append hdebug).2 rfl true [0xde, 0xad]⟩

end FrameIndex

end ElfUnwind
