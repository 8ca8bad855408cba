/-!
# Frame sections

Call frame information stands in one of two sections. They hold the same records but number them
differently: in `.eh_frame` a CIE has the identifier zero and an FDE says how far back its CIE lies,
in `.debug_frame` a CIE has all bits set and an FDE gives the offset of its CIE.
-/

namespace ElfUnwind

/-- The two sections that hold call frame information. -/
inductive FrameSection where
  /-- `.eh_frame`. -/
  | ehFrame
  /-- `.debug_frame`. -/
  | debugFrame
  deriving DecidableEq, Repr

namespace FrameSection

/-- The name of the section. -/
def name : FrameSection → String
  | ehFrame => ".eh_frame"
  | debugFrame => ".debug_frame"

/-- The spellings of a section, in lower case. -/
def spellings : FrameSection → List String
  | ehFrame => ["ehframe", "eh_frame", ".eh_frame"]
  | debugFrame => ["debugframe", "debug_frame", ".debug_frame"]

/-- The section that a text spells, whatever the case of its letters. -/
def ofText? (text : String) : Option FrameSection :=
  let lower := String.ofList (text.toList.map Char.toLower)
  if lower ∈ ehFrame.spellings then some ehFrame
  else if lower ∈ debugFrame.spellings then some debugFrame
  else none

/-- The wording of the complaint about a text that spells no section. -/
def unknownMessage (text : String) : String := "Unknown frame section: " ++ text

/-- The identifier that marks a CIE. -/
def cieId : FrameSection → UInt64
  | ehFrame => 0
  | debugFrame => -1

/-- The offset of the CIE that an FDE refers to by the identifier `id` at `idOffset`. -/
def cieOffset (kind : FrameSection) (idOffset : Nat) (id : UInt64) : UInt64 :=
  match kind with
  | ehFrame => UInt64.ofNat idOffset - id
  | debugFrame => id

example : ofText? "Eh_Frame" = some ehFrame ∧ ofText? "eh-frame" = none := by cbv

end FrameSection

end ElfUnwind
