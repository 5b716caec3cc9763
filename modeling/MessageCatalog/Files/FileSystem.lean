/-
  MessageCatalog.Files.FileSystem
  ────────────────────────────────
  **A TREE OF FILES.**

  A file system is a finite tree: at each location there is a directory, a file
  with its bytes and the time of its last change, or nothing.  A path is
  followed name by name from the working directory, and each name has to be
  looked up in a directory.  Of the directories above the working directory
  nothing is known but that they exist.  Some locations can be locked, which
  makes every write to them fail.

  A write either replaces the whole file or leaves everything as it was.
-/
import MessageCatalog.Files.Path
import MessageCatalog.OrderedMap
import MessageCatalog.Text.Utf8

namespace MessageCatalog

open MessageCatalog.Text

/-! ## §1. Trees. -/

/-- The names from the working directory, or from the root if the first one is
a slash. -/
abbrev Location := List (List Char)

/-- What can be at a location. -/
inductive Node where
  | directory
  /-- A file: its bytes, and the time of its last change in seconds. -/
  | file (bytes : Bytes) (modified : Int)
  deriving DecidableEq, Repr

/-- Why a file cannot be opened. -/
inductive FileFault where
  | notFound
  | notDirectory
  | isDirectory
  | nameTooLong
  | zeroInName
  deriving DecidableEq, Repr

/-- What is reported about the fault. -/
def FileFault.message : FileFault → String
  | .notFound => "No such file or directory (os error 2)"
  | .notDirectory => "Not a directory (os error 20)"
  | .isDirectory => "Is a directory (os error 21)"
  | .nameTooLong => "File name too long (os error 36)"
  | .zeroInName => "file name contained an unexpected NUL byte"

/-- What tells whether there is still the same thing at a path: the time at which a
file was last changed, or that it is a directory. -/
inductive Stamp where
  | directory
  | file (modified : Int)
  deriving DecidableEq, Repr

/-- A tree of files, and the locations that cannot be written. -/
structure FileSystem where
  nodes : OrderedMap Location Node
  locked : List Location
  /-- How many bytes the path of the working directory has. -/
  base : Nat
  deriving DecidableEq

namespace FileSystem

/-- The tree that has nothing but the working directory. -/
def empty : FileSystem :=
  ⟨.empty, [], 0⟩

instance : Inhabited FileSystem :=
  ⟨empty⟩

/-- The step to the directory above. -/
def up : List Char := ['.', '.']

/-- Whether a location is above all files that are known: the working directory,
one above it, or the root. -/
def isOuter (loc : Location) : Bool :=
  loc.all (· == up) || loc == [['/']]

/-- What is at a location; the working directory, those above it and the root
always exist. -/
def node? (fs : FileSystem) (loc : Location) : Option Node :=
  if isOuter loc then some .directory else fs.nodes.get? loc

/-- The location of the directory above. -/
def above (loc : Location) : Location :=
  if loc = [['/']] then loc
  else if isOuter loc then loc ++ [up]
  else loc.dropLast

/-- Whether a location is a directory. -/
def isDirectoryAt (fs : FileSystem) (loc : Location) : Bool :=
  fs.node? loc == some .directory

/-! ## §2. Following paths. -/

/-- The longest name, in bytes. -/
def maxNameBytes : Nat := 255

/-- The longest path, in bytes. -/
def maxPathBytes : Nat := 4095

/-- Whether a path is too long to be followed. -/
def isTooLong (path : String) : Bool :=
  maxPathBytes < path.utf8ByteSize

/-- One part of a path, looked up from a location that has been reached. -/
def stepInto (fs : FileSystem) (loc : Location) (part : List Char) : Except FileFault Location :=
  match fs.node? loc with
  | none => .error .notFound
  | some (.file _ _) => .error .notDirectory
  | some .directory =>
      if part = [] ∨ part = ['.'] then .ok loc
      else if part = up then .ok (above loc)
      else if maxNameBytes < (Utf8.encode part).length then .error .nameTooLong
      else .ok (loc ++ [part])

/-- The location that a path leads to.  There may be nothing at it, but what
comes before its last name are directories. -/
def resolve (fs : FileSystem) (path : String) : Except FileFault Location :=
  let cs := path.toList
  if cs.isEmpty then .error .notFound
  else if cs.contains '\x00' then .error .zeroInName
  else if isTooLong path then .error .nameTooLong
  else if Path.isAbsolute cs then ((Path.parts cs).drop 1).foldlM fs.stepInto [['/']]
  else (Path.parts cs).foldlM fs.stepInto []

/-- What a path leads to. -/
def lookup (fs : FileSystem) (path : String) : Except FileFault Node := do
  let loc ← fs.resolve path
  match fs.node? loc with
  | some node => .ok node
  | none => .error .notFound

/-! ## §3. Asking. -/

/-- Whether there is anything at a path. -/
def pathExists (fs : FileSystem) (path : String) : Bool :=
  (fs.lookup path).isOk

/-- Whether a path leads to a directory. -/
def isDirectory (fs : FileSystem) (path : String) : Bool :=
  match fs.lookup path with
  | .ok .directory => true
  | _ => false

/-- Whether a path leads to a file. -/
def isFile (fs : FileSystem) (path : String) : Bool :=
  match fs.lookup path with
  | .ok (.file _ _) => true
  | _ => false

/-- The bytes of a file. -/
def read (fs : FileSystem) (path : String) : Except FileFault Bytes := do
  match ← fs.lookup path with
  | .file bytes _ => .ok bytes
  | .directory => .error .isDirectory

/-- What tells whether there is still the same thing at a path; `none` if there is
nothing. -/
def stamp? (fs : FileSystem) (path : String) : Option Stamp :=
  match fs.lookup path with
  | .ok (.file _ time) => some (.file time)
  | .ok .directory => some .directory
  | .error _ => none

/-! ## §4. Changing. -/

/-- The tree with another node at a location. -/
def put (fs : FileSystem) (loc : Location) (node : Node) : FileSystem :=
  { fs with nodes := fs.nodes.insert loc node }

/-- The tree with a file written, if there is a directory to hold it and nothing
stands in the way. -/
def write? (fs : FileSystem) (path : String) (bytes : Bytes) (time : Int) : Option FileSystem :=
  match fs.resolve path with
  | .error _ => none
  | .ok loc =>
      if fs.isDirectoryAt loc || fs.locked.contains loc then none
      else some (fs.put loc (.file bytes time))

/-- How many bytes the path of a temporary file beside a file has, from the root on.
Its name has ten. -/
def temporaryBytes (fs : FileSystem) (path : String) : Nat :=
  let dir := Path.parent path.toList
  let base := if Path.isAbsolute dir then 0 else fs.base + 1
  base + (if dir.isEmpty then 0 else (String.ofList dir).utf8ByteSize + 1) + 10

/-- The tree with a file replaced by one that was first written beside it. -/
def replace? (fs : FileSystem) (path : String) (bytes : Bytes) (time : Int) :
    Option FileSystem :=
  if maxPathBytes < fs.temporaryBytes path then none else fs.write? path bytes time

/-- The tree with a file ready to be added to, which is made if there is none. -/
def openToAppend? (fs : FileSystem) (path : String) (time : Int) : Option FileSystem :=
  match fs.lookup path with
  | .ok (.file _ _) => some fs
  | _ => fs.write? path [] time

/-- Whether the parts of a path after a directory that is to be made lead to it by
dots alone.  They cannot be followed before there is one. -/
def isDotted (rest : List (List Char)) : Bool :=
  rest.contains ['.'] && rest.all fun part => part.isEmpty || part == ['.']

/-- Makes the directories at the end of the given parts, one after the other, and
tells whether this worked for all of them. -/
def makeDirectoriesFrom (fs : FileSystem) (loc : Location) :
    List (List Char) → Bool × FileSystem
  | [] => (true, fs)
  | part :: rest =>
      match fs.stepInto loc part with
      | .error _ => (false, fs)
      | .ok next =>
          match fs.node? next with
          | some .directory => fs.makeDirectoriesFrom next rest
          | some (.file _ _) => (false, fs)
          | none =>
              if isDotted rest then (false, fs)
              else (fs.put next .directory).makeDirectoriesFrom next rest

/-- Makes a directory at a path, and all directories above it, as far as this works. -/
def makeDirectories (fs : FileSystem) (path : String) : Bool × FileSystem :=
  let cs := path.toList
  if cs.contains '\x00' || isTooLong path then (false, fs)
  else if Path.isAbsolute cs then fs.makeDirectoriesFrom [['/']] ((Path.parts cs).drop 1)
  else fs.makeDirectoriesFrom [] (Path.parts cs)

/-- The tree without a file. -/
def removeFile? (fs : FileSystem) (path : String) : Option FileSystem :=
  match fs.resolve path with
  | .error _ => none
  | .ok loc =>
      match fs.node? loc with
      | some (.file _ _) => some { fs with nodes := fs.nodes.erase loc }
      | _ => none

/-- Removes a directory and all that is below it, and tells whether this worked.  What
is below it is also gone if the directory itself stays, because the path ends in dots. -/
def removeDirectory (fs : FileSystem) (path : String) : Bool × FileSystem :=
  match fs.resolve path with
  | .error _ => (false, fs)
  | .ok loc =>
      match fs.node? loc with
      | some .directory =>
          let last := ((Path.parts path.toList).filter fun part => !part.isEmpty).getLast?
          let isNamed := last != some ['.'] && last != some up && !isOuter loc
          let keep (l : Location) : Bool := !loc.isPrefixOf l || l == loc && !isNamed
          (isNamed, { fs with nodes := fs.nodes.filter fun l _ => keep l })
      | _ => (false, fs)

/-- The tree with a file written, and the directories above it made. -/
def install? (fs : FileSystem) (path : String) (bytes : Bytes) (time : Int) :
    Option FileSystem :=
  match fs.makeDirectories (String.ofList (Path.parent path.toList)) with
  | (true, fs) => fs.write? path bytes time
  | (false, _) => none

end FileSystem

end MessageCatalog
