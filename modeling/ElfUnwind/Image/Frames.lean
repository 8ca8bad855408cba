import ElfUnwind.Frame.Decode
import ElfUnwind.Image.Structure

/-!
# The frames of an image

A frame section is decoded when it is first asked for. A decode that reached the end is kept and
answers every later request. One that met a malformed augmentation is kept as well, and later
requests get the same error; its partial index can still be looked at. Any other failure is
forgotten as soon as the section is asked for again, with a decode from the start.

Every decode gets a number of its own, so that a kept answer can be told from a new one.
-/

namespace ElfUnwind

/-- The index of one decode. -/
structure DecodedFrames where
  /-- The number of the decode. -/
  stamp : Nat
  /-- What it decoded. -/
  index : FrameIndex

/-- How the last decode of a frame section ended. -/
inductive FrameState where
  /-- All records were decoded. -/
  | complete (frames : DecodedFrames)
  /-- It failed, and the next request decodes again. -/
  | failed (frames : DecodedFrames)
  /-- It met a malformed augmentation, and the section is not decoded again. -/
  | abandoned (frames : DecodedFrames) (offset : Nat) (augmentation : String)

namespace FrameState

/-- What was decoded, complete or not. -/
def frames : FrameState → DecodedFrames
  | complete frames => frames
  | failed frames => frames
  | abandoned frames _ _ => frames

/-- The state after a decode that ended with an error. -/
def ofError (frames : DecodedFrames) : Error → FrameState
  | .malformedAugmentation offset augmentation => abandoned frames offset augmentation
  | _ => failed frames

end FrameState

/-- What is kept of the decodes of an image. -/
structure FrameMemo where
  /-- The last decode of `.eh_frame`. -/
  ehFrame : Option FrameState := none
  /-- The last decode of `.debug_frame`. -/
  debugFrame : Option FrameState := none
  /-- How many decodes there were. -/
  decodes : Nat := 0

namespace FrameMemo

/-- The last decode of a kind. -/
def state? (memo : FrameMemo) : FrameSection → Option FrameState
  | .ehFrame => memo.ehFrame
  | .debugFrame => memo.debugFrame

/-- What the last decode of a kind gave, complete or not. -/
def frames? (memo : FrameMemo) (kind : FrameSection) : Option DecodedFrames :=
  (memo.state? kind).map FrameState.frames

/-- Keeps the outcome of a new decode. -/
def keep (memo : FrameMemo) (kind : FrameSection) (state : FrameState) : FrameMemo :=
  match kind with
  | .ehFrame => { memo with ehFrame := some state, decodes := memo.decodes + 1 }
  | .debugFrame => { memo with debugFrame := some state, decodes := memo.decodes + 1 }

@[simp]
theorem state?_keep_self (memo : FrameMemo) (kind : FrameSection) (state : FrameState) :
    (memo.keep kind state).state? kind = some state := by
  cases kind <;> rfl

theorem state?_keep_of_ne {memo : FrameMemo} {kind other : FrameSection} {state : FrameState}
    (h : other ≠ kind) : (memo.keep kind state).state? other = memo.state? other := by
  match kind, other with
  | .ehFrame, .ehFrame => exact absurd rfl h
  | .ehFrame, .debugFrame => rfl
  | .debugFrame, .ehFrame => rfl
  | .debugFrame, .debugFrame => exact absurd rfl h

end FrameMemo

namespace Image

variable {σ : Type}

/-- What the decoding of a section of the image depends on. -/
def frameContext (image : Image σ) (kind : FrameSection) (found : Section) : FrameContext :=
  { kind, base := found.address, addressSize := image.elfClass.pointerSize }

/-- Decodes the bytes of a frame section and keeps the outcome. -/
def decodeFrames (image : Image σ) (kind : FrameSection) (found : Section) (bytes : List UInt8) :
    Task (FrameMemo × σ) DecodedFrames := do
  let (outcome, index) ← Task.ofTold <|
    FrameIndex.decodeInto (image.frameContext kind found) bytes (.empty kind)
  let stamp := (← get).1.decodes
  let keep (state : FrameState) : Task (FrameMemo × σ) Unit :=
    modify fun s => (s.1.keep kind state, s.2)
  match outcome with
  | .ok () =>
    let frames : DecodedFrames := ⟨stamp, index.completed⟩
    Task.tell (.decoded kind index.cies.size index.fdes.size)
    keep (.complete frames)
    return frames
  | .error cause =>
    Task.tell (.notDecoded kind image.path cause)
    keep (.ofError ⟨stamp, index⟩ cause)
    throw cause

/-- The frames of a kind, decoded unless a kept outcome answers the request. -/
def readFrames (image : Image σ) (kind : FrameSection) : Task (FrameMemo × σ) DecodedFrames := do
  match (← get).1.state? kind with
  | some (.complete frames) => return frames
  | some (.abandoned _ offset augmentation) => throw (.malformedAugmentation offset augmentation)
  -- A failure that may not come again is not an answer.
  | _ =>
    match image.section? kind.name with
    | none =>
      Task.tell (.noFrames kind image.path)
      throw (.missingSection kind.name)
    | some found =>
      let bytes ← (image.medium.readRange found.size found.offset).onSecond
      image.decodeFrames kind found bytes

end Image

end ElfUnwind
