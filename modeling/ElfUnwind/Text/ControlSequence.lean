/-!
# Control sequences

A terminal takes some characters of a text as orders: control characters, and sequences that begin
with an escape character. Text that is not meant for a terminal is shown without them. Tabs, line
ends and form feeds stay.

A sequence that a line end breaks off is not over: the text behind it is shown, and the next control
character goes on with the sequence.
-/

namespace ElfUnwind.Text

/-- Where in a control sequence a character stands. -/
inductive Control where
  /-- In no sequence. -/
  | outside
  /-- Behind the escape character. -/
  | escape
  /-- Behind the first marks of a short sequence. -/
  | marks
  /-- In the parameters of an order. -/
  | order
  /-- In a command of the operating system. -/
  | command
  /-- At the beginning of a device string. -/
  | deviceStart
  /-- In the parameters of a device string. -/
  | deviceParameters
  /-- Behind the parameters of a device string. -/
  | deviceMarks
  /-- In the rest of a device string, or in a string for an application. -/
  | string
  deriving DecidableEq, Repr

/-- Whether the character is a control that moves to another column or line. -/
def isLayout (c : Char) : Bool := c = '\t' || c = '\n' || c = '\x0c' || c = '\r'

/-- Whether the character is shown where no sequence has begun. -/
def isShown (c : Char) : Bool :=
  isLayout c || 0x80 ≤ c.toNat || (0x20 ≤ c.toNat && c.toNat < 0x7f)

/-- Whether the code of the character, in bytes, has the byte that ends a string. -/
def endsString (c : Char) : Bool := (String.singleton c).toUTF8.toList.contains 0x9c

namespace Control

/-- Whether a character at this place is shown. -/
def shows : Control → Char → Bool
  | outside, c => isShown c
  | escape, c | marks, c | order, c => isLayout c
  | _, _ => false

/-- The place behind a character that is not shown. -/
def after (s : Control) (c : Char) : Control :=
  let code := c.toNat
  -- These three are the same everywhere.
  if c = '\x1b' then escape
  else if c = '\x18' || c = '\x1a' then outside
  else
    match s with
    | outside => outside
    | escape =>
      if c = '[' then order
      else if c = ']' then command
      else if c = 'P' then deviceStart
      else if c = 'X' || c = '^' || c = '_' then string
      else if 0x30 ≤ code && code ≤ 0x7e then outside
      else if 0x20 ≤ code && code ≤ 0x2f then marks
      else escape
    | marks => if 0x30 ≤ code && code ≤ 0x7e then outside else marks
    | order => if 0x40 ≤ code && code ≤ 0x7e then outside else order
    | command => if c = '\x07' then outside else command
    | deviceStart =>
      if 0x40 ≤ code && code ≤ 0x7e || c = ':' then string
      else if 0x30 ≤ code && code ≤ 0x3f then deviceParameters
      else if 0x20 ≤ code && code ≤ 0x2f then deviceMarks
      else deviceStart
    | deviceParameters =>
      if 0x3c ≤ code && code ≤ 0x7e || c = ':' then string
      else if 0x20 ≤ code && code ≤ 0x2f then deviceMarks
      else deviceParameters
    | deviceMarks => if 0x30 ≤ code && code ≤ 0x7e then string else deviceMarks
    | string => if endsString c then outside else string

end Control

/-- What is shown of a text from a place on. While characters are `showing`, a sequence that was
broken off does not take more of them. -/
def shown (showing : Bool) (s : Control) : List Char → List Char
  | [] => []
  | c :: cs =>
    if (if showing then isShown c else s.shows c) then
      -- A character that no sequence could hold ends the one that was broken off.
      c :: shown true (if c.toNat < 0x80 then s else .outside) cs
    else shown false (s.after c) cs

/-- A text without its control sequences. -/
def withoutControls (text : String) : String := String.ofList (shown false .outside text.toList)

theorem isShown_of_shows {s : Control} {c : Char} (h : s.shows c = true) : isShown c = true := by
  cases s <;> simp_all [Control.shows, isShown]

/-- Only characters that can be shown are left. -/
theorem isShown_of_mem_shown {showing : Bool} {s : Control} {cs : List Char} {c : Char}
    (h : c ∈ shown showing s cs) : isShown c = true := by
  fun_induction shown showing s cs with
  | case1 => simp at h
  | case2 showing s d cs hd ih =>
    rcases List.mem_cons.1 h with rfl | h
    · cases showing
      · exact isShown_of_shows (by simpa using hd)
      · simpa using hd
    · exact ih h
  | case3 showing s d cs hd ih => exact ih h

/-- Text without controls is shown as it is. -/
theorem shown_of_forall_isShown {showing : Bool} {cs : List Char}
    (h : ∀ c ∈ cs, isShown c = true) : shown showing .outside cs = cs := by
  induction cs generalizing showing with
  | nil => rfl
  | cons c cs ih =>
    have hc := h c List.mem_cons_self
    have hcs : ∀ d ∈ cs, isShown d = true := fun d hd => h d (List.mem_cons_of_mem c hd)
    rw [shown, if_pos (by simp [Control.shows, hc]), ite_self, ih hcs]

example : shown false .outside "\x1b[31mred\x1b[0m".toList = "red".toList := by decide +kernel

example : shown false .outside "a\x1b]0;t\x07b".toList = ['a', 'b'] := by decide +kernel

end ElfUnwind.Text
