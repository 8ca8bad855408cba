import Mathlib.Data.List.Forall2
import Mathlib.Data.Nat.Digits.Defs
import Mathlib.Tactic.IntervalCases
import Mathlib.Tactic.Ring
import ElfUnwind.CommandLine.Numeral
import ElfUnwind.Text.Hex

/-!
# Which texts are addresses

The grammar of addresses is stated here apart from the reader: digits to a base with the number they
stand for by position, at most one plus sign before them, and `0x` or `0X` before all of it for base
sixteen. Reading accepts exactly the texts of the grammar whose number has 64 bits, with that number
(`readAddress_accepts_iff`). That the reader stops as soon as a number is too large does not matter,
since more digits never make it smaller.
-/

namespace ElfUnwind.CommandLine

variable {base d n value : ℕ} {c : Char} {cs : List Char}

/-! ## The grammar -/

/-- The character is a digit to the base and stands for `d`; a letter may be of either case. -/
def IsDigit (base d : ℕ) (c : Char) : Prop :=
  d < base ∧ (c = d.digitChar ∨ c = d.digitChar.toUpper)

/-- The characters are digits to the base, the highest first, and stand for `n`. -/
def AreDigits (base n : ℕ) (cs : List Char) : Prop :=
  ∃ ds, List.Forall₂ (IsDigit base) ds cs ∧ Nat.ofDigits base ds.reverse = n

/-- The characters are one or more digits to the base, with or without a plus sign before them. -/
inductive IsNumeral (base n : ℕ) : List Char → Prop where
  /-- Digits alone. -/
  | bare {cs : List Char} : cs ≠ [] → AreDigits base n cs → IsNumeral base n cs
  /-- Digits behind a sign. -/
  | signed {cs : List Char} : cs ≠ [] → AreDigits base n cs → IsNumeral base n ('+' :: cs)

/-- The characters are an address. -/
inductive IsAddress (n : ℕ) : List Char → Prop where
  /-- A decimal number. -/
  | decimal {cs : List Char} : IsNumeral 10 n cs → IsAddress n cs
  /-- A hexadecimal number behind its mark. -/
  | hexadecimal {x : Char} {cs : List Char} : x = 'x' ∨ x = 'X' → IsNumeral 16 n cs →
      IsAddress n ('0' :: x :: cs)

/-! ## Digits -/

theorem digitValue?_eq_some_iff (hbase : base ≤ 16) :
    digitValue? base c = some d ↔ IsDigit base d c := by
  rw [digitValue?, Option.filter_eq_some_iff, decide_eq_true_iff, and_comm, IsDigit]
  refine and_congr_right fun hd ↦ ⟨fun h ↦ ?_, ?_⟩
  · -- The code of the character is one of twenty-two, and each is a digit of its own.
    rw [← c.ofNat_toNat]
    split at h
    case isTrue hrange =>
      have hlow : 48 ≤ c.toNat := hrange.1
      have hhigh : c.toNat ≤ 57 := hrange.2
      rw [← Option.some.inj h]
      interval_cases c.toNat <;> decide
    case isFalse =>
      split at h
      case isTrue hrange =>
        have hlow : 97 ≤ c.toNat := hrange.1
        have hhigh : c.toNat ≤ 102 := hrange.2
        rw [← Option.some.inj h]
        interval_cases c.toNat <;> decide
      case isFalse =>
        split at h
        case isTrue hrange =>
          have hlow : 65 ≤ c.toNat := hrange.1
          have hhigh : c.toNat ≤ 70 := hrange.2
          rw [← Option.some.inj h]
          interval_cases c.toNat <;> decide
        case isFalse => cases h
  · have hlt : d < 16 := hd.trans_le hbase
    rintro (rfl | rfl) <;> interval_cases d <;> decide

theorem not_isDigit_plus (hbase : base ≤ 16) : ¬IsDigit base d '+' := by
  intro h
  have hvalue := (digitValue?_eq_some_iff hbase).mpr h
  cases hvalue

/-- The characters are digits which behind those of `value` make up `n`. -/
def AreDigitsBehind (base value n : ℕ) (cs : List Char) : Prop :=
  ∃ ds, List.Forall₂ (IsDigit base) ds cs ∧
    Nat.ofDigits base ds.reverse + base ^ ds.length * value = n

theorem areDigitsBehind_zero : AreDigitsBehind base 0 n cs ↔ AreDigits base n cs := by
  simp only [AreDigitsBehind, AreDigits, Nat.mul_zero, Nat.add_zero]

theorem areDigitsBehind_nil : AreDigitsBehind base value n [] ↔ value = n := by
  simp [AreDigitsBehind]

/-- The digit in front moves those of the value up by one place. -/
theorem areDigitsBehind_cons :
    AreDigitsBehind base value n (c :: cs) ↔
      ∃ d, IsDigit base d c ∧ AreDigitsBehind base (value * base + d) n cs := by
  have hplace : ∀ d ds, Nat.ofDigits base (d :: ds).reverse + base ^ (d :: ds).length * value =
      Nat.ofDigits base ds.reverse + base ^ ds.length * (value * base + d) := by
    intro d ds
    rw [List.reverse_cons, Nat.ofDigits_append, Nat.ofDigits_singleton, List.length_reverse,
      List.length_cons]
    ring
  constructor
  · rintro ⟨_, hds, rfl⟩
    cases hds with
    | cons hd hds => exact ⟨_, hd, _, hds, (hplace _ _).symm⟩
  · rintro ⟨d, hd, ds, hds, rfl⟩
    exact ⟨d :: ds, .cons hd hds, hplace d ds⟩

/-- More digits do not make a number smaller. -/
theorem AreDigitsBehind.le (hpos : 0 < base) (h : AreDigitsBehind base value n cs) : value ≤ n := by
  obtain ⟨ds, -, rfl⟩ := h
  exact (Nat.le_mul_of_pos_left value (Nat.pow_pos hpos)).trans (Nat.le_add_left _ _)

/-! ## Reading -/

/-- Digits are read if all of them are digits and the number that they make up has 64 bits. -/
theorem readDigits_eq_ok_iff (hpos : 0 < base) (hbase : base ≤ 16) (hvalue : value < UInt64.size) :
    readDigits base value cs = .ok n ↔ n < UInt64.size ∧ AreDigitsBehind base value n cs := by
  induction cs generalizing value with
  | nil =>
    rw [readDigits, areDigitsBehind_nil, Except.ok.injEq]
    exact ⟨fun h ↦ ⟨h ▸ hvalue, h⟩, And.right⟩
  | cons c cs ih =>
    rw [readDigits, areDigitsBehind_cons]
    simp only [← digitValue?_eq_some_iff hbase]
    cases digitValue? base c with
    | none => simp
    | some d =>
      simp only [Option.some.injEq, exists_eq_left']
      by_cases hnext : value * base + d < UInt64.size
      · rw [if_pos hnext, ih hnext]
      · rw [if_neg hnext]
        constructor
        · intro h
          cases h
        · rintro ⟨hn, hdigits⟩
          exact absurd ((hdigits.le hpos).trans_lt hn) hnext

theorem not_areDigits_plus (hbase : base ≤ 16) : ¬AreDigits base n ('+' :: cs) := by
  rw [← areDigitsBehind_zero, areDigitsBehind_cons]
  rintro ⟨d, hd, -⟩
  exact not_isDigit_plus hbase hd

/-- A number is read if it has 64 bits. -/
theorem readNumeral_eq_ok_iff (hpos : 0 < base) (hbase : base ≤ 16) :
    readNumeral base cs = .ok n ↔ n < UInt64.size ∧ IsNumeral base n cs := by
  have hread : ∀ cs, readDigits base 0 cs = .ok n ↔ n < UInt64.size ∧ AreDigits base n cs := by
    intro cs
    rw [readDigits_eq_ok_iff hpos hbase (by decide), areDigitsBehind_zero]
  unfold readNumeral
  split
  case h_1 =>
    refine iff_of_false nofun ?_
    rintro ⟨-, ⟨hne, -⟩⟩
    exact hne rfl
  case h_2 =>
    refine iff_of_false nofun ?_
    rintro ⟨-, ⟨-, hdigits⟩ | ⟨hne, -⟩⟩
    · exact not_areDigits_plus hbase hdigits
    · exact hne rfl
  case h_3 cs hne =>
    rw [hread]
    refine and_congr_right fun _ ↦ ⟨.signed ?_, ?_⟩
    · rintro rfl
      exact hne rfl
    · rintro (⟨-, hdigits⟩ | ⟨-, hdigits⟩)
      · exact absurd hdigits (not_areDigits_plus hbase)
      · exact hdigits
  case h_4 cs hne _ hsign =>
    rw [hread]
    refine and_congr_right fun _ ↦ ⟨.bare fun h ↦ hne h, ?_⟩
    rintro (⟨-, hdigits⟩ | ⟨-, -⟩)
    · exact hdigits
    · exact absurd rfl (hsign _)

theorem not_isNumeral_mark {x : Char} (hx : x = 'x' ∨ x = 'X') :
    ¬IsNumeral 10 n ('0' :: x :: cs) := by
  rintro (⟨-, hdigits⟩ | ⟨⟩)
  rw [← areDigitsBehind_zero, areDigitsBehind_cons] at hdigits
  obtain ⟨_, -, hrest⟩ := hdigits
  rw [areDigitsBehind_cons] at hrest
  obtain ⟨d, hd, -⟩ := hrest
  have hvalue := (digitValue?_eq_some_iff (by decide)).mpr hd
  rcases hx with rfl | rfl <;> cases hvalue

theorem isAddress_mark_iff {x : Char} (hx : x = 'x' ∨ x = 'X') :
    IsAddress n ('0' :: x :: cs) ↔ IsNumeral 16 n cs := by
  constructor
  · rintro (h | ⟨-, h⟩)
    · exact absurd h (not_isNumeral_mark hx)
    · exact h
  · exact .hexadecimal hx

theorem map_readNumeral_eq_ok_iff {v : UInt64} (hpos : 0 < base) (hbase : base ≤ 16) :
    UInt64.ofNat <$> readNumeral base cs = .ok v ↔ IsNumeral base v.toNat cs := by
  constructor
  · intro h
    cases hread : readNumeral base cs with
    | error fault =>
      rw [hread] at h
      cases h
    | ok n =>
      rw [hread] at h
      obtain ⟨hn, hnumeral⟩ := (readNumeral_eq_ok_iff hpos hbase).mp hread
      cases h
      rwa [UInt64.toNat_ofNat_of_lt' hn]
  · intro h
    rw [(readNumeral_eq_ok_iff hpos hbase).mpr ⟨v.toNat_lt, h⟩]
    exact congrArg Except.ok UInt64.ofNat_toNat

theorem readAddress_eq_ok_iff {text : String} {v : UInt64} :
    readAddress text = .ok v ↔ IsAddress v.toNat text.toList := by
  rw [readAddress]
  generalize text.toList = cs
  split
  case h_1 =>
    rw [map_readNumeral_eq_ok_iff (by decide) (by decide), isAddress_mark_iff (.inl rfl)]
  case h_2 =>
    rw [map_readNumeral_eq_ok_iff (by decide) (by decide), isAddress_mark_iff (.inr rfl)]
  case h_3 hlower hupper =>
    rw [map_readNumeral_eq_ok_iff (by decide) (by decide)]
    refine ⟨.decimal, ?_⟩
    rintro (h | ⟨rfl | rfl, -⟩)
    · exact h
    · exact absurd rfl (hlower _)
    · exact absurd rfl (hupper _)

/-! ## Written addresses -/

theorem isDigit_digitChar (hd : d < base) : IsDigit base d d.digitChar := ⟨hd, .inl rfl⟩

theorem AreDigits.concat (h : AreDigits base n cs) (hc : IsDigit base d c) :
    AreDigits base (base * n + d) (cs ++ [c]) := by
  obtain ⟨ds, hds, rfl⟩ := h
  refine ⟨ds ++ [d], List.rel_append hds (.cons hc .nil), ?_⟩
  rw [List.reverse_concat, Nat.ofDigits_cons, Nat.add_comm]

theorem areDigits_toDigits (hbase : 1 < base) (n : ℕ) :
    AreDigits base n (Nat.toDigits base n) := by
  induction n using Nat.strongRecOn with
  | ind n ih =>
    rw [Nat.toDigits_eq_if hbase]
    split
    case isTrue hlt =>
      exact ⟨[n], .cons (isDigit_digitChar hlt) .nil, Nat.ofDigits_singleton⟩
    case isFalse hge =>
      have hdiv : n / base < n := Nat.div_lt_self (by omega) hbase
      have hdigits := (ih _ hdiv).concat (isDigit_digitChar (Nat.mod_lt n (by omega)))
      rwa [Nat.div_add_mod] at hdigits

theorem isNumeral_toDigits (hbase : 1 < base) (n : ℕ) : IsNumeral base n (Nat.toDigits base n) :=
  .bare Nat.toDigits_ne_nil (areDigits_toDigits hbase n)

theorem isAddress_toString (n : ℕ) : IsAddress n (toString n).toList := by
  rw [Nat.toString_eq_repr, Nat.toList_repr]
  exact .decimal (isNumeral_toDigits (by decide : 1 < 10) n)

theorem isAddress_hexAddress (n : ℕ) : IsAddress n (Text.hexAddress n).toList := by
  have hmark : "0x".toList = ['0', 'x'] := rfl
  rw [Text.hexAddress, Text.hex, String.toList_append, hmark, String.toList_ofList]
  exact .hexadecimal (.inl rfl) (isNumeral_toDigits (by decide : 1 < 16) n)

/-- **Which texts are read as addresses:** those of the grammar whose number has 64 bits, with that
number, and all others are refused. Every address is read back from its decimal text and from the
hexadecimal one that listings show. -/
theorem readAddress_accepts_iff :
    (∀ text v, readAddress text = .ok v ↔ IsAddress v.toNat text.toList) ∧
      (∀ text, (∃ fault, readAddress text = .error fault) ↔
        ¬∃ n < UInt64.size, IsAddress n text.toList) ∧
      ∀ v : UInt64, readAddress (toString v.toNat) = .ok v ∧
        readAddress (Text.hexAddress v.toNat) = .ok v := by
  refine ⟨fun text v ↦ readAddress_eq_ok_iff, fun text ↦ ?_, fun v ↦ ⟨?_, ?_⟩⟩
  · cases hread : readAddress text with
    | ok v =>
      refine iff_of_false nofun fun h ↦ h ⟨v.toNat, v.toNat_lt, readAddress_eq_ok_iff.mp hread⟩
    | error fault =>
      refine iff_of_true ⟨fault, rfl⟩ ?_
      rintro ⟨n, hn, haddress⟩
      rw [← UInt64.toNat_ofNat_of_lt' hn, ← readAddress_eq_ok_iff, hread] at haddress
      cases haddress
  · exact readAddress_eq_ok_iff.mpr (isAddress_toString _)
  · exact readAddress_eq_ok_iff.mpr (isAddress_hexAddress _)

/-- A sign stands behind the mark, and zeros in front do not count. -/
example : readAddress "0X+00fF" = .ok 255 ∧ readAddress "+0xff" = .error .invalidDigit := by
  decide +kernel

end ElfUnwind.CommandLine
