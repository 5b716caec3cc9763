/-
  MessageCatalog.Settings.Loading
  ────────────────────────────────
  **WHERE SETTINGS COME FROM.**

  Settings are read from a file, whose extension tells its notation; variables
  of the environment override what the file says, and the result must make
  sense.  Without a file named, a variable may name one; else one of three
  files in the working directory is taken, or none at all.
-/
import MessageCatalog.Document.Toml.Reader
import MessageCatalog.Document.Yaml.Reader
import MessageCatalog.Settings.Decode
import MessageCatalog.Text.Quoted

namespace MessageCatalog

open MessageCatalog.Text

/-! ## §1. Errors. -/

/-- Why a file gives no text. -/
inductive ReadFault where
  | file (fault : FileFault)
  /-- The bytes are not UTF-8. -/
  | notText
  deriving DecidableEq, Repr

/-- What is reported about the fault. -/
def ReadFault.message : ReadFault → String
  | .file fault => fault.message
  | .notText => "stream did not contain valid UTF-8"

/-- Why a variable cannot be used. -/
inductive VariableFault where
  /-- The text, trimmed and in lower case, that is neither yes nor no. -/
  | notTruth (text : String)
  | notCount (fault : NumberFault)
  deriving DecidableEq, Repr

/-- What is reported about the fault. -/
def VariableFault.message : VariableFault → String
  | .notTruth text => "expected a boolean, got '" ++ text ++ "'"
  | .notCount fault => fault.message

/-- The notations of settings. -/
inductive Notation where
  | yaml
  | toml
  deriving DecidableEq, Repr

/-- Why there are no settings. -/
inductive SettingsError where
  | unreadable (path : String) (fault : ReadFault)
  /-- The text is no document of its notation, or not one of settings. -/
  | malformed (written : Notation)
  | environment (name : String) (fault : VariableFault)
  | invalid (violation : Violation)
  deriving DecidableEq, Repr

/-- What is reported about an error, as far as its text is the library's own. -/
def SettingsError.message : SettingsError → String
  | .unreadable path fault =>
      "Failed to read configuration file " ++ quoted path ++ ": " ++ fault.message
  | .malformed .yaml => "Failed to parse YAML configuration"
  | .malformed .toml => "Failed to parse TOML configuration"
  | .environment name fault =>
      "Failed to parse environment variable '" ++ name ++ "': " ++ fault.message
  | .invalid violation =>
      "Invalid configuration field '" ++ violation.field ++ "': " ++ violation.message

/-! ## §2. Documents. -/

/-- The notation that the extension of a file tells. -/
def Notation.ofPath (path : String) : Notation :=
  match Path.extension? path.toList with
  | some extension => if extension.map Char.toLower = "toml".toList then .toml else .yaml
  | none => .yaml

/-- The tree that a text in a notation spells. -/
def Notation.read? : Notation → List Char → Option Tree
  | .yaml, cs => Yaml.read? cs
  | .toml, cs => Toml.read? cs

/-- The settings that a text gives, in the notation of the path. -/
def Settings.parse (text path : String) : Except SettingsError Settings :=
  let written := Notation.ofPath path
  match (written.read? text.toList).bind Settings.ofTree? with
  | some settings => .ok settings
  | none => .error (.malformed written)

/-! ## §3. The environment. -/

/-- The variables of the environment. -/
abbrev Environment := OrderedMap String String

/-- A yes or no; nothing at all is a no. -/
def readTruth (text : String) : Except VariableFault Bool :=
  let word := String.ofList ((trim text.toList).map Char.toLower)
  if word ∈ ["1", "true", "yes", "on"] then .ok true
  else if word ∈ ["0", "false", "no", "off", ""] then .ok false
  else .error (.notTruth word)

/-- A number of seconds. -/
def readSeconds (text : String) : Except VariableFault Nat :=
  (readWord (trim text.toList)).mapError .notCount

/-- The value of a variable, read in its own way; `usual` when it is not set. -/
def fromVariable {α : Type} (env : Environment) (name : String)
    (read : String → Except VariableFault α) (usual : α) : Except SettingsError α :=
  match env.get? name with
  | none => .ok usual
  | some text => (read text).mapError (.environment name)

/-- The settings with those that the environment overrides. -/
def Settings.override (s : Settings) (env : Environment) : Except SettingsError Settings := do
  let lang := (env.get? "GETTEXT_LANG").getD s.lang
  let mode ← fromVariable env "GETTEXT_PRODUCTION_MODE" readTruth s.productionMode
  let ns := (env.get? "GETTEXT_NAMESPACE").getD s.ns
  let expire ← fromVariable env "GETTEXT_CACHE_EXPIRE_SECONDS" readSeconds s.expireSeconds
  .ok { s with lang, ns, productionMode := mode, expireSeconds := expire }

/-- The settings, if they make sense. -/
def Settings.validate (s : Settings) : Except SettingsError Settings :=
  match s.violation? with
  | some violation => .error (.invalid violation)
  | none => .ok s

/-! ## §4. Files. -/

/-- The text of a file. -/
def readText (fs : FileSystem) (path : String) : Except ReadFault String :=
  match fs.read path with
  | .error fault => .error (.file fault)
  | .ok bytes => if Utf8.isValid bytes then .ok (textOf bytes) else .error .notText

/-- The settings of a file. -/
def Settings.ofFile (fs : FileSystem) (env : Environment) (path : String) :
    Except SettingsError Settings := do
  let text ← (readText fs path).mapError (.unreadable path)
  let settings ← Settings.parse text path
  let settings ← settings.override env
  settings.validate

/-- The files that are looked for. -/
def Settings.usualFiles : List String :=
  ["gettext.yaml", "gettext.yml", "gettext.toml"]

/-- The file to read when none is named, if there is one. -/
def Settings.file? (fs : FileSystem) (env : Environment) : Option String :=
  match env.get? "GETTEXT_CONFIG_PATH" with
  | some path => some path
  | none => Settings.usualFiles.find? fs.pathExists

/-- The settings of the file given, or else of the one that is found, or else the
usual ones. -/
def Settings.load (fs : FileSystem) (env : Environment) (path? : Option String) :
    Except SettingsError Settings :=
  match path?.or (Settings.file? fs env) with
  | some path => Settings.ofFile fs env path
  | none => do
      let settings ← Settings.override {} env
      settings.validate

end MessageCatalog
