/-
  MessageCatalog.Logging
  ────────────────────────────────
  **SETTING UP THE LOG.**

  A log is set up once in a run of the program.  Its filter says which records
  are kept: it is a list of directives, each a level for all records, or for
  those of one target.  The filter is looked at first, then the file is opened
  if the log goes to one; that the log was set up before is noticed last.
-/
import MessageCatalog.Settings.Basic
import MessageCatalog.Text.Alphanumeric
import MessageCatalog.Text.Blank
import MessageCatalog.Text.Number
import MessageCatalog.Text.Quoted
import MessageCatalog.Text.Search

namespace MessageCatalog

open MessageCatalog.Text

/-! ## §1. Filters. -/

/-- The names of the levels. -/
def logLevels : List (List Char) :=
  ["trace", "debug", "info", "warn", "error", "off"].map String.toList

/-- Whether a text is a level: a name in any case, or a number up to 5. -/
def isLogLevel (cs : List Char) : Bool :=
  logLevels.contains (cs.map Char.toLower) ||
    match readWord cs with
    | .ok n => n ≤ 5
    | .error _ => false

/-- What a directive is read as from some place on. -/
inductive DirectivePart where
  | start
  /-- A level or a target. -/
  | name
  /-- The name of a span, in square brackets. -/
  | span
  /-- A field of the span, in braces. -/
  | field (isEmpty : Bool)
  /-- What follows the fields. -/
  | fieldsEnd
  /-- What follows the span. -/
  | spanEnd
  deriving DecidableEq, Repr

/-- Where the level behind the equals sign of a directive starts, after `place` bytes
of it have been read; `none` within if there is no level.  A directive that cannot be
read has no such place. -/
def levelPlace? : DirectivePart → (place : Nat) → List Char → Option (Option Nat)
  | .name, _, [] => some none
  | .spanEnd, _, [] => some none
  | _, _, [] => none
  | .start, place, c :: cs =>
      if c == '[' then levelPlace? .span (place + c.utf8Size) cs
      else if isLetterOrNumber c || c == '-' || c == ':' || c == '_' then
        levelPlace? .name (place + c.utf8Size) cs
      else none
  | .name, place, c :: cs =>
      if c == '=' then some (some (place + c.utf8Size))
      else levelPlace? (if c == '[' then .span else .name) (place + c.utf8Size) cs
  | .span, place, c :: cs =>
      let next : DirectivePart :=
        if c == ']' then .spanEnd else if c == '\x7b' then .field true else .span
      levelPlace? next (place + c.utf8Size) cs
  | .field isEmpty, place, c :: cs =>
      if c != '\x7d' then levelPlace? (.field false) (place + c.utf8Size) cs
      else if isEmpty then none
      else levelPlace? .fieldsEnd (place + c.utf8Size) cs
  | .fieldsEnd, place, c :: cs =>
      if c == ']' then levelPlace? .spanEnd (place + c.utf8Size) cs else none
  | .spanEnd, place, c :: _ =>
      if c == '=' then some (some (place + c.utf8Size)) else none

/-- A text without its first `n` bytes; there is none when a character would be cut. -/
def withoutBytes? : (n : Nat) → List Char → Option (List Char)
  | 0, cs => some cs
  | _, [] => none
  | n, c :: cs => if c.utf8Size ≤ n then withoutBytes? (n - c.utf8Size) cs else none

/-- Whether a text is a directive: a level, a target, or a target or span with a level
behind an equals sign, where nothing stands for every level.  The directive stands
between blanks, but a level is looked for as far into the text as it is into the
directive, and goes on to the end of the text. -/
def isLogDirective (cs : List Char) : Bool :=
  match levelPlace? .start 0 (trim cs) with
  | none => false
  | some none => true
  | some (some place) =>
      match withoutBytes? place cs with
      | none => false
      | some level => level.isEmpty || isLogLevel level

/-- Whether a text is a filter: directives with commas between them, or nothing in the
place of any of them. -/
def isLogFilter (filter : String) : Bool :=
  (pieces (· == ',') filter.toList).all fun piece => piece.isEmpty || isLogDirective piece

example : isLogFilter "gettext_catalog=info,gettext_tool=OFF" = true := by decide
example : isLogFilter "gettext=verbose" = false := by decide
example : isLogFilter "a=b=c" = false := by decide
example : isLogFilter "a[b]=info, warn" = true := by decide
example : isLogFilter "a=info, b=warn" = false := by decide

/-! ## §2. Logs. -/

/-- How records are written. -/
inductive LogFormat where
  | plain
  /-- On several lines. -/
  | pretty
  | json
  deriving DecidableEq, Repr

/-- The name of a format. -/
def LogFormat.name : LogFormat → String
  | .plain => "Plain"
  | .pretty => "Pretty"
  | .json => "Json"

/-- What a log is to be. -/
structure LogConfig where
  filter : String
  format : LogFormat
  /-- The file that records are added to; none for the standard error. -/
  file : Option String := none
  deriving DecidableEq, Repr

/-- The log that settings ask for. -/
def LogSettings.toConfig (s : LogSettings) : LogConfig where
  filter := s.level
  format := if s.json then .json else .plain

/-- Why a log cannot be set up. -/
inductive LogError where
  | invalidFilter (filter : String)
  | unusableFile (path : String)
  | alreadySetUp
  deriving DecidableEq, Repr

/-- What is reported about an error, as far as its text is the library's own. -/
def LogError.message : LogError → String
  | .invalidFilter filter => "Invalid log filter '" ++ filter ++ "'"
  | .unusableFile path => "Failed to open log file " ++ quoted path
  | .alreadySetUp => "Logging already initialised"

/-- Sets up a log, unless one was set up before.  The file of the log is made
even if this fails. -/
def LogConfig.setUp (c : LogConfig) (before : Bool) (fs : FileSystem) (time : Int) :
    Except LogError Unit × FileSystem :=
  if !isLogFilter c.filter then (.error (.invalidFilter c.filter), fs)
  else
    let last : Except LogError Unit := if before then .error .alreadySetUp else .ok ()
    match c.file with
    | none => (last, fs)
    | some path =>
        match fs.openToAppend? path time with
        | some fs => (last, fs)
        | none => (.error (.unusableFile path), fs)

end MessageCatalog
