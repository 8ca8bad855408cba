import ElfUnwind.Text.ColumnClass

/-!
# The width of a line

A line of text is as wide as its characters together, but for characters that join: a skin tone
joins the emoji before it, two flag letters make a flag, joiners make one emoji of several, a
selector decides whether the character before it is shown as text or as an emoji, a selector widens
the quotation mark before it, and some scripts write two letters as one sign.

A line is looked at from its end, as what a character adds depends on what stands behind it. Where
the next character may take a width away again, that width is held back until the character is
known, so no width is ever subtracted. `lineWidth_append_blanks` says that blanks at the end of a
line add their number.
-/

namespace ElfUnwind.Text

/-- How a selector asks for the character before it to be shown. -/
inductive Presentation where
  /-- As text rather than as an emoji. -/
  | text
  /-- As an emoji rather than as text. -/
  | emoji
  /-- A quotation mark as wide as an ideograph. -/
  | fullWidth
  deriving DecidableEq, Repr

/-- What stands behind a character, as far as the character can join it. -/
inductive Joint where
  /-- Nothing that joins. -/
  | plain
  /-- A skin tone. -/
  | skinTone
  /-- An emoji, alone or made of several. -/
  | emoji
  /-- An emoji with a joiner before it. -/
  | joinedEmoji
  /-- A joined emoji with an enclosing key cap before it. -/
  | joinedKeycap
  /-- A flag letter. -/
  | flagLetter
  /-- Two or more flag letters. -/
  | flagLetters
  /-- A joined emoji with one flag letter before it. -/
  | joinedFlagLetter
  /-- A joined emoji with pairs of flag letters before it. -/
  | joinedFlags
  /-- A joined emoji with pairs of flag letters and one more before it. -/
  | joinedFlagsLetter
  /-- A joined emoji with an end tag and this many tag letters before it. -/
  | joinedTagLetters (count : Nat)
  /-- A joined emoji with an end tag and this many tag digits before it. -/
  | joinedTagDigits (count : Nat)
  /-- An Arabic letter of the alef group. -/
  | alef
  /-- The Hebrew letter lamed. -/
  | lamed
  /-- The Buginese letter ya. -/
  | ya
  /-- The Buginese vowel sign i before a joined ya. -/
  | vowelYa
  /-- A Tifinagh consonant. -/
  | consonant
  /-- The Tifinagh joiner before a consonant. -/
  | joinedConsonant
  /-- A Lisu tone that can stand behind another one. -/
  | secondTone
  /-- The Old Turkic letter i. -/
  | orkhonI
  /-- A Khmer letter that can stand below another one. -/
  | subscriptLetter
  /-- The Kirat Rai vowel sign e. -/
  | vowelE
  /-- The Kirat Rai vowel sign ai. -/
  | vowelAi
  deriving DecidableEq, Repr

namespace Joint

/-- Whether marks and joiners may stand between this and what joins it. -/
def isSpaced : Joint → Bool
  | lamed | ya | vowelYa | consonant | joinedConsonant | secondTone | orkhonI | subscriptLetter =>
    true
  | _ => false

/-- Whether this can still be joined across a selector before it, of the given kind. -/
def outlasts (j : Joint) : Presentation → Bool
  | .text | .fullWidth => j = alef || j.isSpaced
  | .emoji => j = alef || j.isSpaced || j = joinedEmoji || j = joinedKeycap

/-- Whether a joiner before this makes it part of a longer emoji. -/
def takesJoiner : Joint → Bool
  | skinTone | emoji | flagLetters | joinedFlags | joinedFlagsLetter => true
  | _ => false

/-- The width held back because the next character may take it away. -/
def held : Joint → Nat
  | joinedFlagLetter | joinedFlagsLetter | joinedConsonant | subscriptLetter => 1
  | _ => 0

/-- What a character adds that joins this, and what then stands there. `joined` says whether a
joiner stands between the two. -/
def join? (j : Joint) (joined : Bool) (c : Char) : Option (Nat × Joint) :=
  let code := c.toNat
  if code = 0x200d && j.takesJoiner then some (j.held, joinedEmoji)
  else
    match j with
    | skinTone => if isToned c then some (0, emoji) else none
    | joinedEmoji =>
      if code = 0x20e3 then some (0, joinedKeycap)
      else if isFlagLetter c then some (0, joinedFlagLetter)
      else if isSkinTone c then some (0, skinTone)
      else if code = 0xe007f then some (0, joinedTagLetters 0)
      else if isEmoji c then some (0, emoji)
      else none
    | flagLetter | flagLetters => if isFlagLetter c then some (1, flagLetters) else none
    | joinedFlagLetter | joinedFlagsLetter =>
      if isFlagLetter c then some (0, joinedFlags) else none
    | joinedFlags => if isFlagLetter c then some (2, joinedFlagsLetter) else none
    -- A region has three to six letters, or three digits behind at least one letter.
    | joinedTagLetters count =>
      if isTagLetter c && count < 6 then some (0, joinedTagLetters (count + 1))
      else if isTagDigit c && count = 0 then some (0, joinedTagDigits 1)
      else if code = 0x1f3f4 && 3 ≤ count then some (0, emoji)
      else none
    | joinedTagDigits count =>
      if isTagDigit c && count < 3 then some (0, joinedTagDigits (count + 1))
      else if isTagLetter c && count = 3 then some (0, joinedTagLetters 4)
      else none
    | alef =>
      if isLam c then some (0, plain)
      else if isTransparent c then some (0, alef)
      else none
    | lamed => if code = 0x5d0 && joined then some (0, plain) else none
    | ya => if code = 0x1a17 && joined then some (0, vowelYa) else none
    | vowelYa => if code = 0x1a15 then some (0, plain) else none
    | consonant =>
      if code = 0x2d7f then some (0, joinedConsonant)
      else if isTifinaghConsonant c && joined then some (0, plain)
      else none
    | joinedConsonant => if isTifinaghConsonant c then some (0, plain) else none
    | secondTone => if isFirstTone c then some (0, plain) else none
    | orkhonI => if code = 0x10c32 && joined then some (0, plain) else none
    | subscriptLetter => if code = 0x17d2 then some (0, plain) else none
    | vowelE =>
      if code = 0x16d63 || code = 0x16d69 then some (0, plain)
      else if code = 0x16d67 then some (0, vowelAi)
      else if code = 0x16d68 then some (1, vowelE)
      else none
    | vowelAi => if code = 0x16d63 then some (0, plain) else none
    | plain | emoji | joinedKeycap => none

end Joint

/-- What is known of the text behind a character. -/
structure Behind where
  /-- What the character can join. -/
  joint : Joint := .plain
  /-- Whether a joiner stands before that. -/
  joined : Bool := false
  /-- What a selector before that asks for. -/
  selector : Option Presentation := none
  deriving DecidableEq, Repr

/-- What a character adds that joins nothing, besides what it holds back, and what it is to the one
before it. -/
def alone (c : Char) : Nat × Behind :=
  let code := c.toNat
  if code ≤ 0xa0 then (1, {})
  else if code = 0x5dc then (1, { joint := .lamed })
  else if isAlef c then (1, { joint := .alef })
  else if isSubscriptLetter c then (0, { joint := .subscriptLetter })
  -- The Khmer sign of abbreviation is wider than any other character.
  else if code = 0x17d8 then (3, {})
  else if code = 0x1a10 then (1, { joint := .ya })
  else if isTifinaghConsonant c then (1, { joint := .consonant })
  else if isSecondTone c then (1, { joint := .secondTone })
  else if code = 0xfe01 then (0, { selector := some .fullWidth })
  else if code = 0xfe0e then (0, { selector := some .text })
  else if code = 0xfe0f then (0, { selector := some .emoji })
  else if code = 0x10c03 then (1, { joint := .orkhonI })
  else if code = 0x16d67 then (1, { joint := .vowelE })
  else if code = 0x16d68 then (1, { joint := .vowelAi })
  else if isFlagLetter c then (1, { joint := .flagLetter })
  else if isSkinTone c then (2, { joint := .skinTone })
  else if isEmoji c then (2, { joint := .emoji })
  else if isColumnless c then (0, {})
  else if isWide c then (2, {})
  else (1, {})

namespace Behind

/-- What stands there once a selector has had no effect on the character before it. -/
def dropSelector (b : Behind) : Behind :=
  match b.selector with
  | some .emoji =>
    -- A joined emoji is joined across a selector only by the character that is selected.
    if b.joint.outlasts .text then { b with selector := none } else {}
  | _ => { b with selector := none }

/-- What a character adds that stands before this, and what it is to the one before it. -/
def before (b : Behind) (c : Char) : Nat × Behind :=
  if b.selector = some .emoji && isSelectable c then
    let added := if b.joint = .joinedEmoji || b.joint = .joinedKeycap then 0 else 2
    (b.joint.held + added, { joint := .emoji })
  else if c.toNat = 0xfe0f && b.dropSelector.joint.outlasts .emoji then
    (0, { b with selector := some .emoji })
  else if c.toNat = 0xfe0e && b.dropSelector.joint.outlasts .text then
    (0, { b with selector := some .text })
  else if c.toNat = 0xfe01 && b.dropSelector.joint.outlasts .fullWidth then
    (0, { b with selector := some .fullWidth })
  else if b.selector = some .text && isNarrowAsText c then (b.joint.held + 1, {})
  else if b.selector = some .fullWidth && isQuotationMark c then (b.joint.held + 2, {})
  else
    let b := b.dropSelector
    if b.joint.isSpaced && c.toNat = 0x200d then (0, { b with joined := true })
    else if b.joint.isSpaced && isIgnorableMark c then (0, b)
    else
      match b.joint.join? b.joined c with
      | some (added, joint) => (added, { joint })
      | none => (b.joint.held + (alone c).1, (alone c).2)

end Behind

/-- The width of a line but for what is held back, and what its first character can be joined
by. -/
def measure : List Char → Nat × Behind
  | [] => (0, {})
  | c :: line =>
    let (width, behind) := measure line
    let (added, first) := behind.before c
    (width + added, first)

/-- The columns a line of text takes. -/
def lineWidth (line : List Char) : Nat :=
  let (width, first) := measure line
  width + first.joint.held

@[simp]
theorem lineWidth_nil : lineWidth [] = 0 := rfl

theorem measure_cons (c : Char) (line : List Char) :
    measure (c :: line) =
      ((measure line).1 + ((measure line).2.before c).1, ((measure line).2.before c).2) := rfl

/-- A character up to the no-break space takes a column before text that joins nothing. -/
theorem before_of_le {c : Char} (h : c.toNat ≤ 0xa0) : Behind.before {} c = (1, {}) := by
  have h₁ : c.toNat ≠ 0xfe0f := by omega
  have h₂ : c.toNat ≠ 0xfe0e := by omega
  have h₃ : c.toNat ≠ 0xfe01 := by omega
  have h₄ : c.toNat ≠ 0x200d := by omega
  simp [Behind.before, Behind.dropSelector, Joint.isSpaced, Joint.join?, Joint.takesJoiner,
    Joint.held, alone, h, h₁, h₂, h₃, h₄]

/-- Characters up to the no-break space join nothing, so they take a column each. -/
theorem measure_of_forall_le {line : List Char} (h : ∀ c ∈ line, c.toNat ≤ 0xa0) :
    measure line = (line.length, {}) := by
  induction line with
  | nil => rfl
  | cons c line ih =>
    rw [measure_cons, ih fun d hd => h d (List.mem_cons_of_mem c hd),
      before_of_le (h c List.mem_cons_self), List.length_cons]

/-- A line of such characters is as wide as it is long. -/
theorem lineWidth_of_forall_le {line : List Char} (h : ∀ c ∈ line, c.toNat ≤ 0xa0) :
    lineWidth line = line.length := by
  simp [lineWidth, measure_of_forall_le h, Joint.held]

/-- Blanks at the end change nothing before them. -/
theorem measure_append_blanks (line : List Char) (n : Nat) :
    measure (line ++ List.replicate n ' ') = ((measure line).1 + n, (measure line).2) := by
  induction line with
  | nil =>
    rw [List.nil_append, measure_of_forall_le fun c hc => by simp [List.eq_of_mem_replicate hc]]
    simp [measure]
  | cons c line ih =>
    rw [List.cons_append, measure_cons, ih, measure_cons, Nat.add_right_comm]

/-- Each blank at the end of a line takes a column. -/
theorem lineWidth_append_blanks (line : List Char) (n : Nat) :
    lineWidth (line ++ List.replicate n ' ') = lineWidth line + n := by
  simp only [lineWidth, measure_append_blanks]
  omega

example : lineWidth ['a', '\u0301'] = 1 ∧ lineWidth ['中', 'é'] = 3 := by decide +kernel

example : lineWidth ['\u0644', '\u0627'] = 1 ∧ lineWidth ['\u0627', '\u0644'] = 2 := by
  decide +kernel

example : lineWidth ['“', '\ufe01'] = 2 ∧ lineWidth ['“', '\ufe00'] = 1 := by decide +kernel

example : lineWidth ['👩', '\u200d', '🚀'] = 2 ∧ lineWidth ['👩', '🚀'] = 4 := by decide +kernel

end ElfUnwind.Text
