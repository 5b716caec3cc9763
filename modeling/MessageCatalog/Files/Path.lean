/-
  MessageCatalog.Files.Path
  ────────────────────────────────
  **PATHS.**

  A path is a text whose names stand between slashes.  What is defined here
  looks at the text alone: joining a directory and a name, and the last name of
  a path with its extension.
-/
import MessageCatalog.Text.Search

namespace MessageCatalog.Path

open MessageCatalog.Text

/-! ## §1. Joining. -/

/-- Whether a path starts from the root and not from the working directory. -/
def isAbsolute (path : List Char) : Bool :=
  path.head? == some '/'

/-- A path below a directory.  An absolute path stays as it is. -/
def join (dir path : String) : String :=
  if isAbsolute path.toList || dir.isEmpty then path
  else if dir.toList.getLast? = some '/' then dir ++ path
  else dir ++ "/" ++ path

/-- The parts between slashes. -/
def parts (path : List Char) : List (List Char) :=
  pieces (· == '/') path

/-! ## §2. Names and extensions. -/

/-- Parts without those at the end that lead nowhere.  A dot at the start of a path
stays. -/
def withoutIdleEnd (ps : List (List Char)) : List (List Char) :=
  match ps with
  | [] => []
  | first :: rest =>
      first :: (rest.reverse.dropWhile fun part => part.isEmpty || part == ['.']).reverse

/-- The path without its last name. -/
def parent (path : List Char) : List Char :=
  let kept := withoutIdleEnd (withoutIdleEnd (parts path)).dropLast
  if isAbsolute path && kept.length ≤ 1 then ['/'] else ['/'].intercalate kept

/-- The last name of a path, unless the path ends in `.` alone, in `..`, or has
no name. -/
def fileName? (path : List Char) : Option (List Char) :=
  let named := (parts path).filter fun part => !part.isEmpty && part != ['.']
  match named.getLast? with
  | some name => if name = ['.', '.'] then none else some name
  | none => none

/-- A name in two at its last dot: what stands before and after it.  A dot at
the start of a name does not count. -/
def splitName (name : List Char) : List Char × Option (List Char) :=
  let after := (name.reverse.takeWhile (· != '.')).reverse
  let before := name.take (name.length - after.length - 1)
  if after.length = name.length || before.isEmpty then (name, none) else (before, some after)

/-- The extension of the last name of a path. -/
def extension? (path : List Char) : Option (List Char) :=
  (fileName? path).bind fun name => (splitName name).2

/-- The path with another extension.  The old extension is taken off first; if
what is left then has no last name, it stays as it is. -/
def withExtension (path : List Char) (new : List Char) : List Char :=
  let kept := path.take (path.length - ((extension? path).getD []).length)
  match fileName? kept with
  | none => kept
  | some name =>
      kept.take (kept.length - (name.length - (splitName name).1.length)) ++ '.' :: new

example : withExtension "loc/cs.default.mo".toList "po".toList = "loc/cs.default.po".toList := by
  decide
example : withExtension "dir/..mo".toList "po".toList = "dir/..".toList := by decide
example : extension? ".toml".toList = none := by decide
example : parent "./a/./b".toList = "./a".toList := by decide
example : parent "a".toList = [] := by decide

/-! ## §3. Catalog files. -/

/-- The file of a source's catalog for a language. -/
def catalogFile (dir lang identifier : String) : String :=
  join dir (lang ++ "." ++ identifier ++ ".mo")

/-- The file of the text form beside a binary catalog. -/
def textFormOf (catalogFile : String) : String :=
  String.ofList (withExtension catalogFile.toList "po".toList)

end MessageCatalog.Path
