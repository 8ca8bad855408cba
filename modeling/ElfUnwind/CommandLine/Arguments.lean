import ElfUnwind.CommandLine.Numeral
import ElfUnwind.Event
import ElfUnwind.Text.ControlSequence

/-!
# Arguments

The command takes the path of an image, the name of what to show, and options that may stand
anywhere. Arguments are looked at from the left, and the first one that cannot be used is what is
complained about. A word that names something to show always means that, so no image has such a
path.
-/

namespace ElfUnwind.CommandLine

/-- What to show of an image. -/
inductive Request where
  /-- The file header. -/
  | header
  /-- The named sections. -/
  | sections
  /-- The segments. -/
  | segments
  /-- The CIEs of a frame section. -/
  | cies (kind : FrameSection)
  /-- The FDEs of a frame section. -/
  | fdes (kind : FrameSection)
  /-- The FDE that covers an address. -/
  | lookup (address : UInt64) (kind : FrameSection)
  deriving DecidableEq, Repr

/-- What the command was asked to do. -/
structure Invocation where
  /-- The path of the image. -/
  path : String
  /-- Whether listings are shown as objects. -/
  json : Bool
  /-- How much is told on the way. -/
  verbosity : Nat
  /-- What to show. -/
  request : Request
  deriving DecidableEq, Repr

namespace Invocation

/-- The least important events that are shown. -/
def level (i : Invocation) : Level :=
  match i.verbosity with
  | 0 => .warn
  | 1 => .info
  | 2 => .debug
  | _ => .trace

end Invocation

/-- Why arguments cannot be used. -/
inductive UsageFault where
  /-- The value of an argument is not understood. -/
  | invalidValue (value argument reason : String)
  /-- An option has no value. -/
  | missingValue (argument : String)
  /-- An option is there twice. -/
  | repeated (argument : String)
  /-- There is no such option, or no more words are expected. -/
  | unexpected (argument : String)
  /-- The word names nothing that can be shown. -/
  | unknownRequest (word : String)
  /-- A word is missing at the end. -/
  | missingArguments
  deriving DecidableEq, Repr

namespace UsageFault

/-- The parts of a complaint that goes on with `rest`. Every second part is set off from the text
around it, so no part runs on into the next one. -/
def parts (rest : String) : UsageFault → List String
  | invalidValue value argument reason =>
    ["error:", " invalid value '", value, "' for '", argument, "': " ++ reason ++ rest]
  | missingValue argument =>
    ["error:", " a value is required for '", argument, "' but none was supplied" ++ rest]
  | repeated argument =>
    ["error:", " the argument '", argument, "' cannot be used multiple times" ++ rest]
  | unexpected argument => ["error:", " unexpected argument '", argument, "' found" ++ rest]
  | unknownRequest word => ["error:", " unrecognized subcommand '", word, "'" ++ rest]
  | missingArguments => ["error:", " the following required arguments were not provided:" ++ rest]

/-- The wording of a complaint, with the advice below it. -/
def message (fault : UsageFault) : String :=
  let parts := fault.parts "\n\nFor more information, try '" ++ ["--help", "'.\n"]
  String.join (parts.map Text.withoutControls)

end UsageFault

/-- What can be shown, before its own arguments are known. -/
inductive Topic where
  | header
  | sections
  | segments
  | cies
  | fdes
  | lookup
  deriving DecidableEq, Repr

namespace Topic

/-- What a word names. -/
def ofWord? : String → Option Topic
  | "header" => some header
  | "sections" => some sections
  | "segments" => some segments
  | "cies" => some cies
  | "fdes" => some fdes
  | "lookup" => some lookup
  | _ => none

/-- Whether a frame section can be chosen. -/
def hasKind : Topic → Bool
  | cies => true
  | fdes => true
  | lookup => true
  | _ => false

end Topic

/-- What is known of the arguments so far. -/
structure Arguments where
  /-- The path of the image. -/
  path : Option String := none
  /-- What to show. -/
  topic : Option Topic := none
  /-- The address to look up. -/
  address : Option UInt64 := none
  /-- The frame section that was chosen. -/
  kind : Option FrameSection := none
  /-- Whether listings are shown as objects. -/
  json : Bool := false
  /-- Whether that was said where it counts once. -/
  jsonHere : Bool := false
  /-- How much is told on the way. -/
  verbosity : Nat := 0
  deriving Repr

namespace Arguments

/-- How the option that chooses a frame section is shown. -/
def sectionOption : String := "--section <SECTION>"

/-- Takes the value of the option that chooses a frame section. -/
def takeSection (a : Arguments) (value : String) : Except UsageFault Arguments :=
  if a.kind.isSome then .error (.repeated sectionOption)
  else
    match FrameSection.ofText? value with
    | some kind => .ok { a with kind := some kind }
    | none => .error (.invalidValue value sectionOption (FrameSection.unknownMessage value))

/-- Takes a word that is no option. -/
def takeWord (a : Arguments) (word : String) : Except UsageFault Arguments :=
  match a.topic with
  | none =>
    match Topic.ofWord? word with
    | some topic => .ok { a with topic := some topic, jsonHere := false }
    | none =>
      if a.path.isSome then .error (.unknownRequest word) else .ok { a with path := some word }
  | some .lookup =>
    if a.address.isSome then .error (.unexpected word)
    else
      match readAddress word with
      | .ok address => .ok { a with address := some address }
      | .error fault => .error (.invalidValue word "<ADDR>" (invalidAddress word fault))
  | some _ => .error (.unexpected word)

/-- Takes a word that stands behind two dashes and so is no option and names nothing to show. -/
def takePlain (a : Arguments) (word : String) : Except UsageFault Arguments :=
  match a.topic, a.path with
  | none, none => .ok { a with path := some word }
  | none, some _ => .error (.unexpected word)
  | some _, _ => a.takeWord word

/-- Takes the option that shows listings as objects. -/
def takeJson (a : Arguments) : Except UsageFault Arguments :=
  if a.jsonHere then .error (.repeated "--json")
  else .ok { a with json := true, jsonHere := true }

/-- Takes single-letter options. -/
def takeLetters (a : Arguments) : List Char → Except UsageFault Arguments
  | [] => .ok a
  | 'v' :: letters => { a with verbosity := a.verbosity + 1 }.takeLetters letters
  | letter :: _ => .error (.unexpected (String.ofList ['-', letter]))

/-- Whether the option that chooses a frame section may stand here. -/
def hasKind (a : Arguments) : Bool := (a.topic.map Topic.hasKind).getD false

/-- Whether a word is an option rather than a value: a dash with something behind it. -/
def isOption (word : String) : Bool := word.toList.head? = some '-' && word.toList.length > 1

/-- Takes all arguments in their order. -/
def takeAll (a : Arguments) : List String → Except UsageFault Arguments
  | [] => .ok a
  -- Behind two dashes nothing is an option any more.
  | "--" :: rest => rest.foldlM takePlain a
  | "--json" :: rest => do (← a.takeJson).takeAll rest
  | "--verbose" :: rest => { a with verbosity := a.verbosity + 1 }.takeAll rest
  | "--section" :: rest =>
    if a.hasKind then
      match rest with
      | value :: rest =>
        if isOption value then .error (.missingValue sectionOption)
        else do (← a.takeSection value).takeAll rest
      | [] => .error (.missingValue sectionOption)
    else .error (.unexpected "--section")
  | word :: rest =>
    match word.toList with
    | '-' :: '-' :: 's' :: 'e' :: 'c' :: 't' :: 'i' :: 'o' :: 'n' :: '=' :: value =>
      if a.hasKind then do (← a.takeSection (String.ofList value)).takeAll rest
      else .error (.unexpected "--section")
    | '-' :: '-' :: _ => .error (.unexpected word)
    | '-' :: letter :: letters => do (← a.takeLetters (letter :: letters)).takeAll rest
    | _ => do (← a.takeWord word).takeAll rest

/-- What the arguments ask for, once they are all known. -/
def request (a : Arguments) : Except UsageFault Request :=
  let kind := a.kind.getD .ehFrame
  match a.topic, a.address with
  | some .header, _ => .ok .header
  | some .sections, _ => .ok .sections
  | some .segments, _ => .ok .segments
  | some .cies, _ => .ok (.cies kind)
  | some .fdes, _ => .ok (.fdes kind)
  | some .lookup, some address => .ok (.lookup address kind)
  | _, _ => .error .missingArguments

end Arguments

namespace Invocation

/-- Reads the arguments of the command. -/
def ofArguments (words : List String) : Except UsageFault Invocation := do
  let a ← ({} : Arguments).takeAll words
  let request ← a.request
  match a.path with
  | some path => return { path, json := a.json, verbosity := a.verbosity, request }
  | none => throw .missingArguments

end Invocation

end ElfUnwind.CommandLine
