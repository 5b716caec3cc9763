/-
  MessageCatalog.CommandLine.Command
  ────────────────────────────────
  **THE COMMANDS OF THE CATALOG TOOL.**

      inspect FILE [--json]                        what a binary catalog holds
      plural FORMULA N...                          the plural forms of some counts
      translate --lang L [OPTIONS] MESSAGE [ARGS]  a message in a language
      resave --lang L [OPTIONS] SOURCE             a source, written anew

  Two options of the program itself can stand at either level, once at each.
-/
import MessageCatalog.CommandLine.Reader

namespace MessageCatalog.CommandLine

open MessageCatalog.Text

/-! ## §1. Commands. -/

/-- What is to be done. -/
inductive Command where
  | inspect (file : String) (json : Bool)
  | plural (formula : String) (counts : List Nat)
  | translate (config : Option String) (lang : String) (plural : Option String) (count : Nat)
      (message : String) (arguments : List String)
  | resave (config : Option String) (lang source : String)
  deriving DecidableEq, Repr

/-- A command, and how it is to be logged. -/
structure Invocation where
  verbose : Bool
  logJson : Bool
  command : Command
  deriving DecidableEq, Repr

/-! ## §2. Scopes. -/

/-- The options that every level has. -/
def sharedOptions : List Named :=
  [⟨"verbose", some 'v', .flag⟩, ⟨"log-json", none, .flag⟩, ⟨"help", some 'h', .help⟩]

/-- The names of the commands.  The last one is for help on the others. -/
def commandNames : List String :=
  ["inspect", "plural", "translate", "resave", "help"]

/-- The words before the command. -/
def rootScope : Scope where
  named := sharedOptions ++ [⟨"version", some 'V', .version⟩]
  commands := commandNames

/-- An option with a value. -/
def valued (long : String) (kind : ValueKind) : Named :=
  ⟨long, none, .value kind⟩

def inspectScope : Scope where
  named := sharedOptions ++ [⟨"json", none, .flag⟩]
  places := [{ name := "FILE", kind := .path }]

def pluralScope : Scope where
  named := sharedOptions
  places := [{ name := "FORMULA", kind := .text },
    { name := "N", kind := .count, repeated := true }]

def translateScope : Scope where
  named := sharedOptions ++
    [valued "config" .path, valued "lang" .text, valued "plural" .text, valued "count" .count]
  places := [{ name := "MESSAGE", kind := .text },
    { name := "ARGS", kind := .text, required := false, repeated := true, raw := true }]
  required := ["lang"]

def resaveScope : Scope where
  named := sharedOptions ++ [valued "config" .path, valued "lang" .text]
  places := [{ name := "SOURCE", kind := .text }]
  required := ["lang"]

/-! ## §3. From words to a command. -/

/-- The value under a name, if there is one. -/
def Progress.value? (p : Progress) (name : String) : Option String :=
  (p.valuesOf name).head?

/-- The value under a name that has been found to be there. -/
def Progress.value (p : Progress) (name : String) : String :=
  (p.value? name).getD ""

/-- The counts under a name. -/
def Progress.counts (p : Progress) (name : String) : List Nat :=
  (p.valuesOf name).filterMap fun text => (readWord text.toList).toOption

/-- What the words of a scope say, with the command that they make up. -/
def commandIn (scope : Scope) (make : Progress → Command) (texts : List String) :
    Except UsageError (Progress × Command) := do
  let p ← scope.read texts
  .ok (p, make p)

/-- The words after the name of a command. -/
def readCommand (name : String) (texts : List String) : Except UsageError (Progress × Command) :=
  match name with
  | "inspect" => commandIn inspectScope (fun p => .inspect (p.value "FILE") (p.has "json")) texts
  | "plural" => commandIn pluralScope (fun p => .plural (p.value "FORMULA") (p.counts "N")) texts
  | "translate" =>
      commandIn translateScope (fun p =>
        .translate (p.value? "config") (p.value "lang") (p.value? "plural")
          ((p.counts "count").headD 1) (p.value "MESSAGE") (p.valuesOf "ARGS")) texts
  | "resave" =>
      commandIn resaveScope (fun p =>
        .resave (p.value? "config") (p.value "lang") (p.value "SOURCE")) texts
  | _ =>
      match texts with
      | [] => .error .helpWanted
      | [topic] => if topic ∈ commandNames then .error .helpWanted else .error .unknownCommand
      | _ => .error .unknownCommand

/-- What the words of a command line say. -/
def parse (texts : List String) : Except UsageError Invocation := do
  let (before, found) ← rootScope.words {} texts
  match found with
  | none => .error (if before.given.isEmpty then .nothingGiven else .missingCommand)
  | some (name, rest) => do
      let (after, command) ← readCommand name rest
      let isGiven (flag : String) : Bool := before.has flag || after.has flag
      .ok ⟨isGiven "verbose", isGiven "log-json", command⟩

end MessageCatalog.CommandLine
