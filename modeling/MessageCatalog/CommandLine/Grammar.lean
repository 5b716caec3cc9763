/-
  MessageCatalog.CommandLine.Grammar
  ────────────────────────────────
  **WHAT A COMMAND LINE CAN SAY.**

  A scope is what can be said at one level of a command line: options, which
  are named, and places, which are filled by the words without a name in their
  order.  A scope can also have commands, each of which opens a scope of its
  own for the words after it.
-/
import MessageCatalog.OrderedMap
import MessageCatalog.Text.Number

namespace MessageCatalog.CommandLine

open MessageCatalog.Text

/-! ## §1. Scopes. -/

/-- What a value has to be. -/
inductive ValueKind where
  | text
  /-- A text that is not empty. -/
  | path
  /-- A number of 64 bits. -/
  | count
  deriving DecidableEq, Repr

/-- What naming an option does. -/
inductive Effect where
  /-- It is noted. -/
  | flag
  /-- A value is expected. -/
  | value (kind : ValueKind)
  /-- Nothing else is looked at any more. -/
  | help
  | version
  deriving DecidableEq, Repr

/-- An option, named in full after two dashes or by a letter after one. -/
structure Named where
  long : String
  short : Option Char
  effect : Effect
  deriving DecidableEq, Repr

/-- A place for words without a name. -/
structure Place where
  name : String
  kind : ValueKind
  required : Bool := true
  /-- Whether it takes all the words that follow. -/
  repeated : Bool := false
  /-- Whether it takes words that look like options but are none, and everything
  after its first word as it is. -/
  raw : Bool := false
  deriving DecidableEq, Repr

/-- What can be said at one level. -/
structure Scope where
  named : List Named
  places : List Place := []
  /-- The options that must be given. -/
  required : List String := []
  commands : List String := []
  deriving DecidableEq, Repr

/-! ## §2. Errors. -/

/-- Why a command line is not carried out. -/
inductive UsageError where
  | helpWanted
  | versionWanted
  /-- There is no command, nor anything else. -/
  | nothingGiven
  /-- There are options but no command. -/
  | missingCommand
  | unknownCommand
  | unknownArgument
  | missingArgument
  /-- An option is without its value, or a value that must not be empty is. -/
  | missingValue
  /-- An option that takes no value has one. -/
  | unwantedValue
  /-- A value is no number. -/
  | badValue
  /-- An option is given twice. -/
  | repetition
  deriving DecidableEq, Repr

/-- Whether a value is one of its kind. -/
def ValueKind.check (kind : ValueKind) (value : String) : Except UsageError Unit :=
  match kind with
  | .text => .ok ()
  | .path => if value.isEmpty then .error .missingValue else .ok ()
  | .count => if (readWord value.toList).isOk then .ok () else .error .badValue

/-! ## §3. Words. -/

/-- What a word looks like. -/
inductive Word where
  /-- Two dashes alone: what follows is not looked at for options. -/
  | separator
  /-- A name after two dashes, and what follows an equals sign. -/
  | long (name : String) (value : Option String)
  /-- Letters after one dash. -/
  | short (letters : List Char)
  | plain
  deriving DecidableEq, Repr

/-- What a word looks like; a dash alone is a plain word. -/
def Word.ofText (word : String) : Word :=
  match word.toList with
  | ['-', '-'] => .separator
  | '-' :: '-' :: cs =>
      let (name, rest) := cs.span (· != '=')
      .long (String.ofList name)
        (if rest.isEmpty then none else some (String.ofList (rest.drop 1)))
  | '-' :: c :: cs => .short (c :: cs)
  | _ => .plain

example : Word.ofText "--lang=cs" = .long "lang" (some "cs") := by decide
example : Word.ofText "-" = .plain := by decide

end MessageCatalog.CommandLine
