import ElfUnwind.Text.Utf8

/-!
# Bytes of text, and text of bytes

Reading the UTF-8 bytes of some text gives the text (`decodeFrom_encode`). The other way around,
bytes that read as a text without the replacement character are the bytes of that text
(`encode_decodeFrom`). So a text without replacement characters is read from only one byte string,
and that is the exact condition for it (`replacement_notMem_iff`).
-/

namespace ElfUnwind.Text.Utf8

/-- The bytes of some text. -/
def encode (cs : List Char) : List UInt8 := cs.flatMap String.utf8EncodeChar

@[simp] theorem encode_nil : encode [] = [] := rfl

@[simp] theorem encode_cons (c : Char) (cs : List Char) :
    encode (c :: cs) = String.utf8EncodeChar c ++ encode cs := rfl

@[simp] theorem encode_append (cs ds : List Char) : encode (cs ++ ds) = encode cs ++ encode ds :=
  List.flatMap_append

/-! ## The first byte of a sequence -/

/-- The least second byte of a sequence of three bytes. -/
def lowThree (n : Nat) : UInt8 := if n = 0xe0 then 0xa0 else 0x80

/-- The greatest second byte of a sequence of three bytes. -/
def highThree (n : Nat) : UInt8 := if n = 0xed then 0x9f else 0xbf

/-- The least second byte of a sequence of four bytes. -/
def lowFour (n : Nat) : UInt8 := if n = 0xf0 then 0x90 else 0x80

/-- The greatest second byte of a sequence of four bytes. -/
def highFour (n : Nat) : UInt8 := if n = 0xf4 then 0x8f else 0xbf

section Ranges

variable {n : Nat} {b : UInt8}

theorem inRange_iff : (0x80 ≤ b ∧ b ≤ 0xbf) ↔ 0x80 ≤ b.toNat ∧ b.toNat ≤ 0xbf := by
  rw [UInt8.le_iff_toNat_le, UInt8.le_iff_toNat_le]
  rfl

theorem inRangeThree_iff : (lowThree n ≤ b ∧ b ≤ highThree n) ↔
    (0x80 ≤ b.toNat ∧ b.toNat ≤ 0xbf) ∧ (n = 0xe0 → 0xa0 ≤ b.toNat) ∧
      (n = 0xed → b.toNat ≤ 0x9f) := by
  rw [UInt8.le_iff_toNat_le, UInt8.le_iff_toNat_le, lowThree, highThree]
  split <;> split <;> simp only [UInt8.reduceToNat] <;> omega

theorem inRangeFour_iff : (lowFour n ≤ b ∧ b ≤ highFour n) ↔
    (0x80 ≤ b.toNat ∧ b.toNat ≤ 0xbf) ∧ (n = 0xf0 → 0x90 ≤ b.toNat) ∧
      (n = 0xf4 → b.toNat ≤ 0x8f) := by
  rw [UInt8.le_iff_toNat_le, UInt8.le_iff_toNat_le, lowFour, highFour]
  split <;> split <;> simp only [UInt8.reduceToNat] <;> omega

end Ranges

/-- What a byte starts, by its number. -/
theorem start_eq (b : UInt8) : start b =
    if b.toNat < 0x80 then ([Char.ofNat b.toNat], none)
    else if b.toNat < 0xc2 then ([replacement], none)
    else if b.toNat < 0xe0 then ([], some ⟨1, 0x80, 0xbf, b.toNat % 0x20⟩)
    else if b.toNat < 0xf0 then ([], some ⟨2, lowThree b.toNat, highThree b.toNat, b.toNat % 0x10⟩)
    else if b.toNat < 0xf5 then ([], some ⟨3, lowFour b.toNat, highFour b.toNat, b.toNat % 0x08⟩)
    else ([replacement], none) := by
  simp only [start, UInt8.lt_iff_toNat_lt, ← UInt8.toNat_inj, lowThree, highThree, lowFour,
    highFour, UInt8.reduceToNat]
  grind

/-! ## One more byte -/

section Steps

variable {b low high : UInt8} {bits due : Nat} {o : Open}

theorem decodeFrom_cons (b : UInt8) (bs : List UInt8) :
    decodeFrom none (b :: bs) = (start b).1 ++ decodeFrom (start b).2 bs := rfl

/-- The last byte of a sequence gives its character. -/
theorem decodeFrom_last (hb : low ≤ b ∧ b ≤ high) (bs : List UInt8) :
    decodeFrom (some ⟨1, low, high, bits⟩) (b :: bs) =
      Char.ofNat (bits * 0x40 + b.toNat % 0x40) :: decodeFrom none bs := by
  have hstep : step (some ⟨1, low, high, bits⟩) b =
      ([Char.ofNat (bits * 0x40 + b.toNat % 0x40)], none) := by
    rw [step, if_pos hb, if_pos (Nat.le_refl 1)]
  rw [decodeFrom, hstep]
  rfl

/-- A byte before the last is kept in the state. -/
theorem decodeFrom_inner (hb : low ≤ b ∧ b ≤ high) (bs : List UInt8) :
    decodeFrom (some ⟨due + 2, low, high, bits⟩) (b :: bs) =
      decodeFrom (some ⟨due + 1, 0x80, 0xbf, bits * 0x40 + b.toNat % 0x40⟩) bs := by
  have hstep : step (some ⟨due + 2, low, high, bits⟩) b =
      ([], some ⟨due + 1, 0x80, 0xbf, bits * 0x40 + b.toNat % 0x40⟩) := by
    have hdue : ¬due + 2 ≤ 1 := by omega
    rw [step, if_pos hb, if_neg hdue]
    rfl
  rw [decodeFrom, hstep]
  rfl

/-- An open sequence gives a replacement character unless a byte in range comes next. -/
theorem exists_cons_of_notMem {bytes : List UInt8}
    (h : replacement ∉ decodeFrom (some o) bytes) :
    ∃ b bs, bytes = b :: bs ∧ (o.low ≤ b ∧ b ≤ o.high) := by
  cases bytes with
  | nil => exact absurd List.mem_cons_self h
  | cons b bs =>
    by_cases hrange : o.low ≤ b ∧ b ≤ o.high
    · exact ⟨b, bs, rfl, hrange⟩
    · rw [decodeFrom, step, if_neg hrange] at h
      exact absurd List.mem_cons_self h

end Steps

/-! ## Whole sequences -/

section Sequences

variable {a b c d : UInt8}

theorem decodeFrom_one (ha : a.toNat < 0x80) (bs : List UInt8) :
    decodeFrom none (a :: bs) = Char.ofNat a.toNat :: decodeFrom none bs := by
  rw [decodeFrom_cons, start_eq, if_pos ha]
  rfl

theorem start_two (ha : 0xc2 ≤ a.toNat ∧ a.toNat < 0xe0) :
    start a = ([], some ⟨1, 0x80, 0xbf, a.toNat % 0x20⟩) := by
  rw [start_eq, if_neg (by omega), if_neg (by omega), if_pos ha.2]

theorem start_three (ha : 0xe0 ≤ a.toNat ∧ a.toNat < 0xf0) :
    start a = ([], some ⟨2, lowThree a.toNat, highThree a.toNat, a.toNat % 0x10⟩) := by
  rw [start_eq, if_neg (by omega), if_neg (by omega), if_neg (by omega), if_pos ha.2]

theorem start_four (ha : 0xf0 ≤ a.toNat ∧ a.toNat < 0xf5) :
    start a = ([], some ⟨3, lowFour a.toNat, highFour a.toNat, a.toNat % 0x08⟩) := by
  rw [start_eq, if_neg (by omega), if_neg (by omega), if_neg (by omega), if_neg (by omega),
    if_pos ha.2]

theorem decodeFrom_two (ha : 0xc2 ≤ a.toNat ∧ a.toNat < 0xe0) (hb : 0x80 ≤ b ∧ b ≤ 0xbf)
    (bs : List UInt8) :
    decodeFrom none (a :: b :: bs) =
      Char.ofNat (a.toNat % 0x20 * 0x40 + b.toNat % 0x40) :: decodeFrom none bs := by
  rw [decodeFrom_cons, start_two ha]
  exact decodeFrom_last hb bs

theorem decodeFrom_three (ha : 0xe0 ≤ a.toNat ∧ a.toNat < 0xf0)
    (hb : lowThree a.toNat ≤ b ∧ b ≤ highThree a.toNat) (hc : 0x80 ≤ c ∧ c ≤ 0xbf)
    (bs : List UInt8) :
    decodeFrom none (a :: b :: c :: bs) =
      Char.ofNat ((a.toNat % 0x10 * 0x40 + b.toNat % 0x40) * 0x40 + c.toNat % 0x40) ::
        decodeFrom none bs := by
  rw [decodeFrom_cons, start_three ha]
  exact (decodeFrom_inner hb _).trans (decodeFrom_last hc bs)

theorem decodeFrom_four (ha : 0xf0 ≤ a.toNat ∧ a.toNat < 0xf5)
    (hb : lowFour a.toNat ≤ b ∧ b ≤ highFour a.toNat) (hc : 0x80 ≤ c ∧ c ≤ 0xbf)
    (hd : 0x80 ≤ d ∧ d ≤ 0xbf) (bs : List UInt8) :
    decodeFrom none (a :: b :: c :: d :: bs) =
      Char.ofNat (((a.toNat % 0x08 * 0x40 + b.toNat % 0x40) * 0x40 + c.toNat % 0x40) * 0x40 +
        d.toNat % 0x40) :: decodeFrom none bs := by
  rw [decodeFrom_cons, start_four ha]
  exact ((decodeFrom_inner hb _).trans (decodeFrom_inner hc _)).trans (decodeFrom_last hd bs)

end Sequences

/-! ## The bytes of a character -/

section Characters

theorem toNat_ofNat_of_isValidChar {n : Nat} (h : n.isValidChar) : (Char.ofNat n).toNat = n := by
  rw [Char.ofNat, dif_pos h]
  rfl

theorem encodeChar_eq (c : Char) : String.utf8EncodeChar c =
    if c.toNat ≤ 127 then [UInt8.ofNat c.toNat]
    else if c.toNat ≤ 2047 then
      [UInt8.ofNat (c.toNat / 64 % 32 + 192), UInt8.ofNat (c.toNat % 64 + 128)]
    else if c.toNat ≤ 65535 then
      [UInt8.ofNat (c.toNat / 4096 % 16 + 224), UInt8.ofNat (c.toNat / 64 % 64 + 128),
        UInt8.ofNat (c.toNat % 64 + 128)]
    else
      [UInt8.ofNat (c.toNat / 262144 % 8 + 240), UInt8.ofNat (c.toNat / 4096 % 64 + 128),
        UInt8.ofNat (c.toNat / 64 % 64 + 128), UInt8.ofNat (c.toNat % 64 + 128)] := rfl

/-- The bytes of a character are read as that character, whatever follows. -/
theorem decodeFrom_encodeChar (c : Char) (rest : List UInt8) :
    decodeFrom none (String.utf8EncodeChar c ++ rest) = c :: decodeFrom none rest := by
  have hvalid : c.toNat < 55296 ∨ 57343 < c.toNat ∧ c.toNat < 1114112 := c.valid
  have hread {n : Nat} (h : n = c.toNat) : Char.ofNat n = c := by rw [h, Char.ofNat_toNat]
  have hbyte {n : Nat} (h : n < 256) : (UInt8.ofNat n).toNat = n := UInt8.toNat_ofNat_of_lt' h
  rw [encodeChar_eq]
  split
  case isTrue h1 =>
    have ha := hbyte (n := c.toNat) (by omega)
    rw [List.singleton_append, decodeFrom_one (by omega), hread ha]
  split
  case isTrue h1 h2 =>
    have ha := hbyte (n := c.toNat / 64 % 32 + 192) (by omega)
    have hb := hbyte (n := c.toNat % 64 + 128) (by omega)
    refine (decodeFrom_two (by omega) (inRange_iff.mpr (by omega)) rest).trans ?_
    rw [hread (by omega)]
  split
  case isTrue h1 h2 h3 =>
    have ha := hbyte (n := c.toNat / 4096 % 16 + 224) (by omega)
    have hb := hbyte (n := c.toNat / 64 % 64 + 128) (by omega)
    have hc := hbyte (n := c.toNat % 64 + 128) (by omega)
    refine (decodeFrom_three (by omega) (inRangeThree_iff.mpr (by omega))
      (inRange_iff.mpr (by omega)) rest).trans ?_
    rw [hread (by omega)]
  case isFalse h1 h2 h3 =>
    have ha := hbyte (n := c.toNat / 262144 % 8 + 240) (by omega)
    have hb := hbyte (n := c.toNat / 4096 % 64 + 128) (by omega)
    have hc := hbyte (n := c.toNat / 64 % 64 + 128) (by omega)
    have hd := hbyte (n := c.toNat % 64 + 128) (by omega)
    refine (decodeFrom_four (by omega) (inRangeFour_iff.mpr (by omega))
      (inRange_iff.mpr (by omega)) (inRange_iff.mpr (by omega)) rest).trans ?_
    rw [hread (by omega)]

/-- Only the character zero has a zero byte. -/
theorem zero_notMem_encodeChar {c : Char} (h : c ≠ '\x00') :
    (0 : UInt8) ∉ String.utf8EncodeChar c := by
  have hpos : 0 < c.toNat := Nat.pos_of_ne_zero fun heq ↦ h (Char.toNat_inj.mp heq)
  have hvalid : c.toNat < 55296 ∨ 57343 < c.toNat ∧ c.toNat < 1114112 := c.valid
  have hzero {n : Nat} (hn : 0 < n ∧ n < 256) : (0 : UInt8) ≠ UInt8.ofNat n := by
    intro heq
    have hnat := congrArg UInt8.toNat heq
    rw [UInt8.toNat_ofNat_of_lt' hn.2, UInt8.toNat_zero] at hnat
    omega
  rw [encodeChar_eq]
  split
  case isTrue => exact List.not_mem_cons_of_ne_of_not_mem (hzero (by omega)) List.not_mem_nil
  split
  case isTrue =>
    exact List.not_mem_cons_of_ne_of_not_mem (hzero (by omega)) <|
      List.not_mem_cons_of_ne_of_not_mem (hzero (by omega)) List.not_mem_nil
  split
  case isTrue =>
    exact List.not_mem_cons_of_ne_of_not_mem (hzero (by omega)) <|
      List.not_mem_cons_of_ne_of_not_mem (hzero (by omega)) <|
        List.not_mem_cons_of_ne_of_not_mem (hzero (by omega)) List.not_mem_nil
  case isFalse =>
    exact List.not_mem_cons_of_ne_of_not_mem (hzero (by omega)) <|
      List.not_mem_cons_of_ne_of_not_mem (hzero (by omega)) <|
        List.not_mem_cons_of_ne_of_not_mem (hzero (by omega)) <|
          List.not_mem_cons_of_ne_of_not_mem (hzero (by omega)) List.not_mem_nil

variable {a b c d : UInt8}

theorem ofNat_of_eq_toNat {n : Nat} {x : UInt8} (h : n = x.toNat) : UInt8.ofNat n = x := by
  rw [h, UInt8.ofNat_toNat]

theorem encodeChar_one (ha : a.toNat < 0x80) :
    String.utf8EncodeChar (Char.ofNat a.toNat) = [a] := by
  have hchar := toNat_ofNat_of_isValidChar (n := a.toNat) (by unfold Nat.isValidChar; omega)
  rw [encodeChar_eq, hchar, if_pos (by omega), UInt8.ofNat_toNat]

theorem encodeChar_two (ha : 0xc2 ≤ a.toNat ∧ a.toNat < 0xe0) (hb : 0x80 ≤ b ∧ b ≤ 0xbf) :
    String.utf8EncodeChar (Char.ofNat (a.toNat % 0x20 * 0x40 + b.toNat % 0x40)) = [a, b] := by
  have hb := inRange_iff.mp hb
  rw [encodeChar_eq, toNat_ofNat_of_isValidChar (by unfold Nat.isValidChar; omega),
    if_neg (by omega), if_pos (by omega), ofNat_of_eq_toNat (x := a) (by omega),
    ofNat_of_eq_toNat (x := b) (by omega)]

theorem encodeChar_three (ha : 0xe0 ≤ a.toNat ∧ a.toNat < 0xf0)
    (hb : lowThree a.toNat ≤ b ∧ b ≤ highThree a.toNat) (hc : 0x80 ≤ c ∧ c ≤ 0xbf) :
    String.utf8EncodeChar
      (Char.ofNat ((a.toNat % 0x10 * 0x40 + b.toNat % 0x40) * 0x40 + c.toNat % 0x40)) =
      [a, b, c] := by
  have hb := inRangeThree_iff.mp hb
  have hc := inRange_iff.mp hc
  rw [encodeChar_eq, toNat_ofNat_of_isValidChar (by unfold Nat.isValidChar; omega),
    if_neg (by omega), if_neg (by omega), if_pos (by omega), ofNat_of_eq_toNat (x := a) (by omega),
    ofNat_of_eq_toNat (x := b) (by omega), ofNat_of_eq_toNat (x := c) (by omega)]

theorem encodeChar_four (ha : 0xf0 ≤ a.toNat ∧ a.toNat < 0xf5)
    (hb : lowFour a.toNat ≤ b ∧ b ≤ highFour a.toNat) (hc : 0x80 ≤ c ∧ c ≤ 0xbf)
    (hd : 0x80 ≤ d ∧ d ≤ 0xbf) :
    String.utf8EncodeChar
      (Char.ofNat (((a.toNat % 0x08 * 0x40 + b.toNat % 0x40) * 0x40 + c.toNat % 0x40) * 0x40 +
        d.toNat % 0x40)) = [a, b, c, d] := by
  have hb := inRangeFour_iff.mp hb
  have hc := inRange_iff.mp hc
  have hd := inRange_iff.mp hd
  rw [encodeChar_eq, toNat_ofNat_of_isValidChar (by unfold Nat.isValidChar; omega),
    if_neg (by omega), if_neg (by omega), if_neg (by omega), ofNat_of_eq_toNat (x := a) (by omega),
    ofNat_of_eq_toNat (x := b) (by omega), ofNat_of_eq_toNat (x := c) (by omega),
    ofNat_of_eq_toNat (x := d) (by omega)]

end Characters

/-! ## Text -/

/-- **Text comes back from its bytes**, and what follows them is read on its own. -/
theorem decodeFrom_encode_append (cs : List Char) (rest : List UInt8) :
    decodeFrom none (encode cs ++ rest) = cs ++ decodeFrom none rest := by
  induction cs with
  | nil => rfl
  | cons c cs ih => rw [encode_cons, List.append_assoc, decodeFrom_encodeChar, ih, List.cons_append]

/-- Text without the character zero has no zero byte. -/
theorem zero_notMem_encode {cs : List Char} (h : '\x00' ∉ cs) : (0 : UInt8) ∉ encode cs := by
  intro hmem
  obtain ⟨c, hc, hbyte⟩ := List.mem_flatMap.mp hmem
  exact zero_notMem_encodeChar (fun heq ↦ h (heq ▸ hc)) hbyte

@[simp] theorem decodeFrom_encode (cs : List Char) : decodeFrom none (encode cs) = cs := by
  have h := decodeFrom_encode_append cs []
  rwa [List.append_nil, decodeFrom_nil_none, List.append_nil] at h

/-- **Bytes come back from their text** unless some of them were replaced. The first byte says how
long its sequence is, and a byte of the sequence that is out of range would have been replaced. -/
theorem encode_decodeFrom {bytes : List UInt8} (h : replacement ∉ decodeFrom none bytes) :
    encode (decodeFrom none bytes) = bytes := by
  match bytes with
  | [] => rfl
  | a :: bs =>
    by_cases h1 : a.toNat < 0x80
    · rw [decodeFrom_one h1] at h ⊢
      rw [encode_cons, encodeChar_one h1, encode_decodeFrom (List.not_mem_of_not_mem_cons h)]
      rfl
    by_cases hbad : a.toNat < 0xc2 ∨ 0xf5 ≤ a.toNat
    · have hstart : start a = ([replacement], none) := by
        rw [start_eq]
        grind
      rw [decodeFrom_cons, hstart] at h
      exact absurd List.mem_cons_self h
    by_cases h2 : a.toNat < 0xe0
    · have ha : 0xc2 ≤ a.toNat ∧ a.toNat < 0xe0 := by omega
      have hopen := h
      rw [decodeFrom_cons, start_two ha] at hopen
      obtain ⟨b, bs, rfl, hb⟩ := exists_cons_of_notMem hopen
      rw [decodeFrom_two ha hb] at h ⊢
      rw [encode_cons, encodeChar_two ha hb, encode_decodeFrom (List.not_mem_of_not_mem_cons h)]
      rfl
    by_cases h3 : a.toNat < 0xf0
    · have ha : 0xe0 ≤ a.toNat ∧ a.toNat < 0xf0 := by omega
      have hopen := h
      rw [decodeFrom_cons, start_three ha] at hopen
      obtain ⟨b, bs, rfl, hb⟩ := exists_cons_of_notMem hopen
      rw [List.nil_append, decodeFrom_inner hb] at hopen
      obtain ⟨c, bs, rfl, hc⟩ := exists_cons_of_notMem hopen
      rw [decodeFrom_three ha hb hc] at h ⊢
      rw [encode_cons, encodeChar_three ha hb hc,
        encode_decodeFrom (List.not_mem_of_not_mem_cons h)]
      rfl
    · have ha : 0xf0 ≤ a.toNat ∧ a.toNat < 0xf5 := by omega
      have hopen := h
      rw [decodeFrom_cons, start_four ha] at hopen
      obtain ⟨b, bs, rfl, hb⟩ := exists_cons_of_notMem hopen
      rw [List.nil_append, decodeFrom_inner hb] at hopen
      obtain ⟨c, bs, rfl, hc⟩ := exists_cons_of_notMem hopen
      rw [decodeFrom_inner hc] at hopen
      obtain ⟨d, bs, rfl, hd⟩ := exists_cons_of_notMem hopen
      rw [decodeFrom_four ha hb hc hd] at h ⊢
      rw [encode_cons, encodeChar_four ha hb hc hd,
        encode_decodeFrom (List.not_mem_of_not_mem_cons h)]
      rfl
termination_by bytes.length

/-! ## Which bytes are read alike -/

/-- The bytes are those of some text. -/
def IsWellFormed (bytes : List UInt8) : Prop := encode (decodeFrom none bytes) = bytes

instance (bytes : List UInt8) : Decidable (IsWellFormed bytes) :=
  inferInstanceAs (Decidable (encode (decodeFrom none bytes) = bytes))

theorem IsWellFormed.eq_of_decodeFrom_eq {as bs : List UInt8} (ha : IsWellFormed as)
    (hb : IsWellFormed bs) (h : decodeFrom none as = decodeFrom none bs) : as = bs :=
  calc
    as = encode (decodeFrom none as) := ha.symm
    _ = encode (decodeFrom none bs) := by rw [h]
    _ = bs := hb

/-- **Which bytes are read alike.** No other bytes are read as the same text exactly if nothing in
the text is a replacement character, whether it was read from one or stands for what was none. -/
theorem replacement_notMem_iff {bytes : List UInt8} :
    replacement ∉ decodeFrom none bytes ↔
      ∀ others, decodeFrom none others = decodeFrom none bytes → others = bytes := by
  constructor
  · intro h others heq
    have hothers : IsWellFormed others := encode_decodeFrom (heq ▸ h)
    exact hothers.eq_of_decodeFrom_eq (encode_decodeFrom h) heq
  · intro hall hmem
    obtain ⟨front, tail, htext⟩ := List.append_of_mem hmem
    -- The replacement character is written in three bytes, and is also read from one.
    have hwritten := hall (encode (front ++ replacement :: tail)) (by rw [decodeFrom_encode, htext])
    have hbroken : decodeFrom none (encode front ++ 0xff :: encode tail) =
        decodeFrom none bytes := by
      have hstart : start 0xff = ([replacement], none) := rfl
      rw [decodeFrom_encode_append, decodeFrom_cons, hstart, htext, decodeFrom_encode]
      rfl
    have hlength := congrArg List.length (hwritten.trans (hall _ hbroken).symm)
    have hthree : (String.utf8EncodeChar replacement).length = 3 := rfl
    rw [encode_append, encode_cons, List.length_append, List.length_append, List.length_append,
      List.length_cons, hthree] at hlength
    omega

end ElfUnwind.Text.Utf8
