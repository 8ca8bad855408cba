import ElfUnwind.Text.Quoted

/-!
# Addresses as arguments

An address is written in decimal, or in hexadecimal behind `0x` or `0X`; a plus sign may stand
before the digits. Digits are looked at from the left: the first one that does not belong, or that
takes the number beyond 64 bits, is what is complained about.
-/

namespace ElfUnwind.CommandLine

/-- Why a text is no address. -/
inductive NumeralFault where
  /-- There are no digits. -/
  | empty
  /-- A character is no digit. -/
  | invalidDigit
  /-- The number has more than 64 bits. -/
  | tooLarge
  deriving DecidableEq, Repr

/-- The wording of a fault. -/
def NumeralFault.message : NumeralFault → String
  | empty => "cannot parse integer from empty string"
  | invalidDigit => "invalid digit found in string"
  | tooLarge => "number too large to fit in target type"

/-- The value of a digit of either case, if the base has it. -/
def digitValue? (base : Nat) (c : Char) : Option Nat :=
  let value? :=
    if '0' ≤ c ∧ c ≤ '9' then some (c.toNat - '0'.toNat)
    else if 'a' ≤ c ∧ c ≤ 'f' then some (c.toNat - 'a'.toNat + 10)
    else if 'A' ≤ c ∧ c ≤ 'F' then some (c.toNat - 'A'.toNat + 10)
    else none
  value?.filter (· < base)

/-- Reads digits behind a number. -/
def readDigits (base value : Nat) : List Char → Except NumeralFault Nat
  | [] => .ok value
  | c :: cs =>
    match digitValue? base c with
    | none => .error .invalidDigit
    | some digit =>
      let next := value * base + digit
      if next < UInt64.size then readDigits base next cs else .error .tooLarge

/-- Reads digits that may have a plus sign before them. -/
def readNumeral (base : Nat) : List Char → Except NumeralFault Nat
  | [] => .error .empty
  -- A sign without digits is looked at as a digit.
  | ['+'] => .error .invalidDigit
  | '+' :: cs => readDigits base 0 cs
  | cs => readDigits base 0 cs

/-- Reads an address. -/
def readAddress (text : String) : Except NumeralFault UInt64 :=
  UInt64.ofNat <$>
    match text.toList with
    | '0' :: 'x' :: cs => readNumeral 16 cs
    | '0' :: 'X' :: cs => readNumeral 16 cs
    | cs => readNumeral 10 cs

/-- The wording of the complaint about a text that is no address. -/
def invalidAddress (text : String) (fault : NumeralFault) : String :=
  "invalid address " ++ Text.quote text ++ ": " ++ fault.message

theorem readDigits_lt {base value n : Nat} {cs : List Char} (hv : value < UInt64.size)
    (h : readDigits base value cs = .ok n) : n < UInt64.size := by
  induction cs generalizing value with
  | nil =>
    cases h
    exact hv
  | cons c cs ih =>
    rw [readDigits] at h
    split at h
    · cases h
    · simp only at h
      split at h
      · rename_i hlt
        exact ih hlt h
      · cases h

example : readNumeral 16 "1f".toList = .ok 31 := by cbv

example : readNumeral 10 "18446744073709551616".toList = .error .tooLarge := by cbv

end ElfUnwind.CommandLine
