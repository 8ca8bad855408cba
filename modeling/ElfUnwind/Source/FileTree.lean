import ElfUnwind.Source.Medium
import ElfUnwind.Source.Path

/-!
# Files

A tree of directories and files as far as reading images depends on it: what a path leads to, and
what a file that was opened shows when it is overwritten or removed later. A file has an identity of
its own; a path leads to it only as long as the tree says so, and a file that is open is read by its
identity.

The working directory lies at some place below the root, so that a path may lead out of it and back.
-/

namespace ElfUnwind

/-- What a path can lead to. -/
inductive FileNode where
  /-- A directory. -/
  | directory
  /-- A file, by its identity. -/
  | file (id : Nat)
  deriving DecidableEq, Repr

/-- Where something lies: the names on the way from the root. -/
abbrev Place := List String

/-- A tree of directories and files. -/
structure FileTree where
  /-- The working directory. -/
  working : Place
  /-- What lies where, besides the root. -/
  nodes : List (Place × FileNode)
  /-- The contents of the files, by identity; of removed ones too. -/
  contents : List (List UInt8)
  deriving Repr

namespace FileTree

/-- A tree with nothing but a working directory and those on the way to it. -/
def empty (working : Place) : FileTree where
  working := working
  nodes := (List.range working.length).map fun i => (working.take (i + 1), .directory)
  contents := []

/-- What lies at a place. -/
def node? (t : FileTree) (place : Place) : Option FileNode :=
  if place = [] then some .directory else t.nodes.lookup place

/-- The most bytes that a name may have. -/
def nameLimit : Nat := 255

/-- The bytes that a path must stay below. -/
def pathLimit : Nat := 4096

/-- One step of following a path: only a directory leads on. -/
def enter (t : FileTree) (place : Place) (step : String) : Except IoError Place :=
  match t.node? place with
  | none => .error .notFound
  -- A file does not lead on, not even by a step that stays where it is.
  | some (.file _) => .error .notADirectory
  | some .directory =>
    if Path.stays step then .ok place
    else if step = ".." then .ok place.dropLast
    else if nameLimit < step.utf8ByteSize then .error .nameTooLong
    else
      let next := place ++ [step]
      if (t.node? next).isSome then .ok next else .error .notFound

/-- Where following a path begins. -/
def origin (t : FileTree) (path : String) : Place := if Path.isAbsolute path then [] else t.working

/-- What a path leads to from the working directory. -/
def resolve (t : FileTree) (path : String) : Except IoError FileNode := do
  -- What is wrong with a path as a whole comes before what it leads to.
  if path.toList.contains '\x00' then throw .zeroInName
  if pathLimit ≤ path.utf8ByteSize then throw .nameTooLong
  if path = "" then throw .notFound
  let place ← (Path.steps path).foldlM t.enter (t.origin path)
  match t.node? place with
  | some node => return node
  | none => throw .notFound

/-- The contents of a file. -/
def content (t : FileTree) (id : Nat) : List UInt8 := t.contents.getD id []

/-- The place that a path names from the working directory, whether or not something lies there. -/
def place (t : FileTree) (path : String) : Place :=
  (Path.steps path).foldl
    (fun place step =>
      if Path.stays step then place
      else if step = ".." then place.dropLast
      else place ++ [step])
    (t.origin path)

/-- Gives a file new contents, or makes it. -/
def write (t : FileTree) (path : String) (bytes : List UInt8) : FileTree :=
  match t.node? (t.place path) with
  -- The identity stays, so a file that is open shows the new contents.
  | some (.file id) => { t with contents := t.contents.set id bytes }
  | some .directory => t
  | none =>
    { t with
      nodes := (t.place path, .file t.contents.length) :: t.nodes
      contents := t.contents ++ [bytes] }

/-- Takes a file, or a directory with what lies in it, out of the tree. -/
def remove (t : FileTree) (path : String) : FileTree :=
  { t with nodes := t.nodes.filter fun n => !(t.place path).isPrefixOf n.1 }

/-- Makes a directory, with the directories on the way to it. -/
def makeDirectory (t : FileTree) (path : String) : FileTree :=
  let goal := t.place path
  let way := (List.range (goal.length + 1)).map goal.take
  let missing := way.filter fun p => (t.node? p).isNone
  { t with nodes := missing.map (·, .directory) ++ t.nodes }

/-! ## Open files -/

/-- The size that a directory reports. -/
def directorySize : Nat := 4096

/-- What positions in a file must stay below. -/
def positionLimit : Nat := 0x8000000000000000

/-- Why a read of a file is refused, if it is. Reading nothing is never refused. -/
def refusal? (available : Option Nat) (length : Nat) (offset : UInt64) : Option IoError :=
  if length = 0 then none
  -- The position is checked before it matters what is read.
  else if positionLimit ≤ offset.toNat + length then some .invalidArgument
  else
    match available with
    | none => some .isADirectory
    | some size => if size < offset.toNat + length then some .endOfFile else none

/-- What an open file or directory shows. The size is that of the moment it was opened, the bytes
are those of the moment they are read. A read of nothing always succeeds. -/
def medium (node : FileNode) (size : Nat) : Medium FileTree where
  size := size
  read length offset := do
    let t ← get
    let bytes? := match node with
      | .file id => some (t.content id)
      | .directory => none
    match refusal? (bytes?.map List.length) length offset with
    | some cause =>
      Task.tell (.readRefused length offset cause)
      throw (.truncatedRead offset.toNat length)
    | none => return ((bytes?.getD []).drop offset.toNat).take length

/-- Opens what a path leads to. -/
def openFile (path : String) : Task FileTree (Medium FileTree) := do
  let t ← get
  match t.resolve path with
  | .error cause => throw (.openFailed path cause)
  | .ok .directory => return medium .directory directorySize
  | .ok (.file id) => return medium (.file id) (t.content id).length

end FileTree

end ElfUnwind
