import ElfUnwind.CommandLine.Arguments
import ElfUnwind.CommandLine.Rows
import ElfUnwind.Image.Frames

/-!
# Running the command

A run opens an image, finds what was asked for and gives the text that is shown. Where the frames of
a section could not be decoded to the end, what was decoded is shown under a warning, unless the
section had to be given up; then, and where there is nothing to show, the run fails and says why.
-/

namespace ElfUnwind.CommandLine

/-- What a run leaves. -/
structure Outcome where
  /-- Zero if the request was answered. -/
  exitCode : Nat
  /-- What was asked for. -/
  output : String
  /-- Warnings, or why there is no answer. -/
  complaint : String
  deriving DecidableEq, Repr

/-- Lines with line ends. -/
def unlines (lines : List String) : String := String.join (lines.map (· ++ "\n"))

/-- The causes of an error, the nearest first. -/
def causes : Error → List String
  | .openFailed path cause => [(Error.openFailed path cause).message, cause.message]
  | error => [error.message]

/-- A text that stands behind `first`, and whose further lines stand behind `rest`. -/
def indented (first rest text : String) : String :=
  first ++ String.ofList (text.toList.flatMap fun c => if c = '\n' then c :: rest.toList else [c])

/-- Causes, each with its number if there are several. -/
def numbered (causes : List String) : List String :=
  match causes with
  | [cause] => [indented "    " "    " cause]
  | _ => causes.zipIdx.map fun (cause, i) => indented ("    " ++ toString i ++ ": ") "       " cause

/-- The outcome of a run that failed. -/
def failure (what : String) (error : Error) : Outcome where
  exitCode := 1
  output := ""
  complaint := unlines (["Error: " ++ what, "", "Caused by:"] ++ numbered (causes error))

/-- The outcome of a run that answered. -/
def success (output : String) (warning : String) : Outcome := ⟨0, output, warning⟩

/-- The outcome of a run whose arguments cannot be used. -/
def misuse (fault : UsageFault) : Outcome := ⟨2, "", fault.message⟩

/-- A listing as it is shown: as objects, as a grid, or as a sentence if it is empty. -/
def showListing (listing : Listing) (json : Bool) (none : String) : String :=
  if json then listing.json ++ "\n"
  else if listing.rows.isEmpty then none ++ "\n"
  else listing.grid ++ "\n"

/-- The lines about a file header. -/
def headerText (path : String) (h : FileHeader) : String :=
  unlines
    [path,
     "Class:        ELF" ++ toString h.elfClass.bits,
     "Type:         " ++ h.objectTypeName,
     "Machine:      " ++ toString h.machine.toNat,
     "Entry point:  " ++ Text.hexAddress h.entry.toNat,
     "Sections:     " ++ toString h.sectionCount.toNat ++ " at " ++
       Text.hexAddress h.sectionTable.toNat,
     "Segments:     " ++ toString h.segmentCount.toNat ++ " at " ++
       Text.hexAddress h.segmentTable.toNat]

/-- The line about the lowest address that may be executed. -/
def lowestText : Option UInt64 → String
  | some address => "Lowest executable load address: " ++ Text.hexAddress address.toNat ++ "\n"
  | none => "No executable PT_LOAD segment.\n"

/-- The lines about the FDE that covers an address. -/
def lookupText (address : UInt64) (kind : FrameSection) : Option Fde → String
  | some f =>
    unlines
      [Text.hexAddress address.toNat ++ " is in [" ++ Text.hexAddress f.start.toNat ++ " - " ++
         Text.hexAddress f.stop.toNat ++ ") (FDE at " ++ Text.hexAddress f.offset ++ ", CIE at " ++
         Text.hexAddress f.cie.offset ++ ")",
       "Pointer encoding: " ++ f.addressEncoding.name,
       "Instructions: [" ++ ", ".intercalate (f.instructions.map Text.hexByte) ++ "]"]
  | none =>
    "No FDE in " ++ kind.name ++ " covers " ++ Text.hexAddress address.toNat ++ ".\n"

/-- What is shown of the entries of a frame section. -/
def framesText (request : Request) (json : Bool) (index : FrameIndex) : String :=
  match request with
  | .cies kind =>
    showListing (cieListing index.cies.values) json ("No CIEs in " ++ kind.name ++ ".")
  | .fdes kind =>
    showListing (fdeListing index.fdes.values) json ("No FDEs in " ++ kind.name ++ ".")
  | .lookup address kind => lookupText address kind (index.findFde? address)
  | _ => ""

/-- The warning that a section was not decoded to the end. -/
def partialWarning (error : Error) (index : FrameIndex) : String :=
  "warning: " ++ error.message ++ "; showing " ++ toString index.cies.size ++ " CIEs and " ++
    toString index.fdes.size ++ " FDEs decoded before the failure\n"

/-- The answer to a request about frames, from how reading them ended and what is kept of them. -/
def answerFrames (request : Request) (json : Bool) (kind : FrameSection)
    (outcome : Except Error DecodedFrames) (memo : FrameMemo) : Outcome :=
  let failed (error : Error) : Outcome := failure ("failed to decode " ++ kind.name) error
  match outcome with
  | .ok frames => success (framesText request json frames.index) ""
  | .error error =>
    -- What was decoded before a failure is shown, unless the failure puts all of it in doubt.
    match memo.frames? kind with
    | some frames =>
      if error.isFatal then failed error
      else success (framesText request json frames.index) (partialWarning error frames.index)
    | none => failed error

variable {σ : Type}

/-- Reads the frames of a kind and answers a request about them. -/
def runFrames (request : Request) (json : Bool) (image : Image σ) (kind : FrameSection) :
    StateT σ Told Outcome := fun s => do
  Told.tell (.decoding kind image.path)
  let (outcome, (memo, s)) ← (image.readFrames kind).runFrom ({}, s)
  return (answerFrames request json kind outcome memo, s)

/-- Answers a request about an open image. -/
def Request.run (request : Request) (json : Bool) (image : Image σ) : StateT σ Told Outcome :=
  match request with
  | .header => return success (headerText image.path image.header) ""
  | .sections =>
    let listing := sectionListing image.sections.values
    return success (showListing listing json "No named sections found.") ""
  | .segments =>
    let listing := segmentListing image.segments
    let lowest := if json then "" else lowestText image.lowestExecutable?
    return success (showListing listing json "No program headers found." ++ lowest) ""
  | .cies kind => runFrames request json image kind
  | .fdes kind => runFrames request json image kind
  | .lookup _ kind => runFrames request json image kind

/-- Opens the image that `source` gives, and answers the request of an invocation. -/
def Invocation.run (i : Invocation) (source : Task σ (Medium σ)) : StateT σ Told Outcome := do
  match ← (do Image.read i.path (← source)).run with
  | .ok image => i.request.run i.json image
  | .error error => return failure ("failed to open " ++ i.path) error

end ElfUnwind.CommandLine
