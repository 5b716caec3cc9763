/-
  MessageCatalog.CommandLine.Run
  ────────────────────────────────
  **CARRYING OUT A COMMAND.**

  A command answers with a text, or with an error that names what was being
  done and the fault behind it.  Only `resave` changes files.  How a command is
  to be logged comes from its settings too, and from the usual ones if those
  cannot be read.
-/
import MessageCatalog.CommandLine.Command
import MessageCatalog.Settings.Loading
import MessageCatalog.Text.Json
import MessageCatalog.Translator.Lookup
import MessageCatalog.Translator.Saving
import MessageCatalog.Translator.Setup

namespace MessageCatalog.CommandLine

open MessageCatalog.Text

/-! ## §1. Errors. -/

/-- What was being done when a command failed, and why it did. -/
inductive CommandError where
  | reading (file : String) (fault : FileFault)
  | parsing (file : String) (fault : Mo.Fault)
  | evaluating (count : Nat) (fault : Plural.Fault)
  | configuring (file : Option String) (cause : SettingsError)
  | preparing (cause : CatalogError)
  | translating (message : String) (cause : CatalogError)
  | loading (lang : String) (cause : CatalogError)
  | saving (source : String) (cause : CatalogError)
  deriving DecidableEq, Repr

/-- An error with its causes; none if one of them is told in words that are not
the library's own. -/
def settingsCauses? (e : SettingsError) : Option (List String) :=
  match e with
  | .malformed _ => none
  | .unreadable _ fault => some [e.message, fault.message]
  | _ => some [e.message]

/-- An error with its causes; none if one of them is told in words that are not
the library's own. -/
def catalogCauses? (e : CatalogError) : Option (List String) :=
  match e with
  | .io => none
  | .plural fault => some [e.message, fault.message]
  | .format fault => some [e.message, fault.message]
  | _ => some [e.message]

/-- What was being done, and then one cause after the other. -/
def CommandError.causes? : CommandError → Option (List String)
  | .reading file fault => some ["Failed to read " ++ file, fault.message]
  | .parsing file fault =>
      (catalogCauses? (.invalidFormat none fault)).map (("Failed to parse " ++ file) :: ·)
  | .evaluating count fault =>
      some ["Failed to evaluate for n = " ++ toString count, fault.message]
  | .configuring none e => (settingsCauses? e).map ("Failed to load configuration" :: ·)
  | .configuring (some file) e =>
      (settingsCauses? e).map (("Failed to load configuration from " ++ file) :: ·)
  | .preparing e => (catalogCauses? e).map ("Failed to set up translator" :: ·)
  | .translating message e =>
      (catalogCauses? e).map (("Failed to translate " ++ quoted message) :: ·)
  | .loading lang e => (catalogCauses? e).map (("Failed to load '" ++ lang ++ "' catalogs") :: ·)
  | .saving source e => (catalogCauses? e).map (("Failed to save source '" ++ source ++ "'") :: ·)

/-- What is reported about an error. -/
def CommandError.message? (e : CommandError) : Option String :=
  e.causes?.map (String.intercalate ": ")

/-! ## §2. Inspecting. -/

/-- A binary catalog on lines. -/
def inspectionText (file : String) (header : Mo.Header) (c : Catalog) : String :=
  let metadata := match c.metadata with
    | none => []
    | some m => "Metadata:" :: m.values.pairs.map fun (key, value) => "  " ++ key ++ ": " ++ value
  let lines :=
    ["File: " ++ file,
      "Byte order: " ++ header.byteOrder.name ++ ", revision " ++ toString header.revision ++ ", "
        ++ toString header.count ++ " strings"]
      ++ metadata
      ++ ["Entries (" ++ toString c.entries.length ++ "):"]
      ++ c.entries.map fun e => "  " ++ quotedList e.original ++ " => " ++ quotedList e.translation
  String.join (lines.map (· ++ "\n"))

/-- A binary catalog as JSON. -/
def inspectionJson (header : Mo.Header) (c : Catalog) : String :=
  let metadata := match c.metadata with
    | none => []
    | some m => m.values.pairs.map fun (key, value) => (key, .string value)
  Json.pretty (.object
    [("byteOrder", .string header.byteOrder.name), ("revision", .ofNat header.revision),
     ("count", .ofNat header.count), ("metadata", .object metadata),
     ("entries", .array (c.entries.map fun e =>
       .object [("original", .ofStrings e.original), ("translation", .ofStrings e.translation)]))])

/-- What a binary catalog holds. -/
def inspect (fs : FileSystem) (file : String) (json : Bool) : Except CommandError String := do
  let bytes ← (fs.read file).mapError (.reading file)
  let header ← (Mo.Header.read bytes).mapError (.parsing file)
  let c ← (Mo.parse bytes "inspect").mapError (.parsing file)
  .ok (if json then inspectionJson header c else inspectionText file header c)

/-! ## §3. Plural forms. -/

/-- The line that tells the form of one count. -/
def pluralLine (formula : String) (n : Nat) : Except CommandError String := do
  let index ← (Plural.evaluate formula n).mapError (.evaluating n)
  .ok (toString n ++ " -> " ++ toString index ++ "\n")

/-- The number of forms that a formula declares, and the forms of some counts. -/
def plural (formula : String) (counts : List Nat) : Except CommandError String := do
  let declared := match Plural.declaredCount? formula with
    | some n => "nplurals = " ++ toString n ++ "\n"
    | none => ""
  let lines ← counts.mapM (pluralLine formula)
  .ok (declared ++ String.join lines)

/-! ## §4. Translating and saving. -/

/-- A translator and what it works on. -/
abbrev Ready := Translator × Workspace

/-- A translator set up for a language. -/
def prepare (fs : FileSystem) (env : Environment) (config : Option String) (lang : String) :
    Except CommandError Ready := do
  let settings ← (Settings.load fs env config).mapError (.configuring config)
  let t ← (Translator.ofSettings { settings with lang } fs).mapError .preparing
  .ok (t, { Workspace.empty with files := fs })

/-- A message in a language, with its arguments filled in. -/
def translate (ready : Ready) (message : String) (form : Form) (arguments : List String) :
    Except CommandError String :=
  let o := ready.1.translate ready.2 message form (arguments.map Format.Argument.ofTyped)
  o.result.mapError (.translating message)

/-- Loads a language and writes one source anew. -/
def resave (ready : Ready) (lang source : String) (now : Moment) :
    Except CommandError String × FileSystem :=
  let loaded := ready.1.ensureLoaded ready.2
  match loaded.result with
  | .error e => (.error (.loading lang e), loaded.workspace.files)
  | .ok _ =>
      let saved := loaded.translator.save loaded.workspace source now
      match saved.result with
      | .error e => (.error (.saving source e), saved.workspace.files)
      | .ok (catalog, text) => (.ok ("Wrote " ++ catalog ++ "\nWrote " ++ text),
          saved.workspace.files)

/-! ## §5. Commands. -/

/-- The answer to a command, and the files after it. -/
def run (fs : FileSystem) (env : Environment) (now : Moment) (c : Command) :
    Except CommandError String × FileSystem :=
  match c with
  | .inspect file json => (inspect fs file json, fs)
  | .plural formula counts => (plural formula counts, fs)
  | .translate config lang plural? count message arguments =>
      let form := match plural? with
        | some plural => .withPlural plural count
        | none => .bare count
      let answer := do
        let ready ← prepare fs env config lang
        translate ready message form arguments
      (answer, fs)
  | .resave config lang source =>
      match prepare fs env config lang with
      | .error e => (.error e, fs)
      | .ok ready => resave ready lang source now

/-- The filter for much to be logged. -/
def verboseLevel : String :=
  "gettext_catalog=debug,gettext_config=debug,gettext_tool=debug"

/-- How the settings of a command say it is to be logged. -/
def configuredLog (fs : FileSystem) (env : Environment) : Command → LogSettings
  | .translate config .. | .resave config .. =>
      match Settings.load fs env config with
      | .ok settings => settings.log
      | .error _ => {}
  | _ => {}

/-- How a command is to be logged. -/
def logSettings (fs : FileSystem) (env : Environment) (i : Invocation) : LogSettings :=
  let configured := configuredLog fs env i.command
  ⟨if i.verbose then verboseLevel else configured.level, i.logJson || configured.json⟩

end MessageCatalog.CommandLine
