/-
  MessageCatalog.CommandLine.Files
  ────────────────────────────────
  **THE FILES THAT A COMMAND LOOKS AT.**

  A command works on a tree of files, of which it looks at a few only: those
  that may hold its settings, and, once these are known, the catalogs of its
  language.  Whoever carries out a command has to have those in the tree.
-/
import MessageCatalog.CommandLine.Run

namespace MessageCatalog.CommandLine

/-- The files that may hold the settings when one is named or not. -/
def settingsFilesOf (env : Environment) (config : Option String) : List String :=
  match config.or (env.get? "GETTEXT_CONFIG_PATH") with
  | some file => [file]
  | none => Settings.usualFiles

/-- The files that may hold the settings of a command. -/
def settingsFiles (env : Environment) : Command → List String
  | .translate config .. => settingsFilesOf env config
  | .resave config .. => settingsFilesOf env config
  | _ => []

/-- The directories of the sources and the catalogs of a language in them, in
both forms. -/
def catalogsOf (fs : FileSystem) (env : Environment) (config : Option String) (lang : String) :
    List String :=
  match Settings.load fs env config with
  | .error _ => []
  | .ok s =>
      s.sources.pairs.flatMap fun (identifier, dir) =>
        let catalog := Path.catalogFile dir lang identifier
        [dir, catalog, Path.textFormOf catalog]

/-- The files that a command looks at besides its settings. -/
def catalogFiles (fs : FileSystem) (env : Environment) : Command → List String
  | .inspect file _ => [file]
  | .plural .. => []
  | .translate config lang .. => catalogsOf fs env config lang
  | .resave config lang _ => catalogsOf fs env config lang

/-- The files among some whose bytes are others than before, with those. -/
def changedFiles (before after : FileSystem) (paths : List String) :
    List (String × Text.Bytes) :=
  paths.filterMap fun path =>
    match after.read path with
    | .error _ => none
    | .ok bytes => if (before.read path).toOption = some bytes then none else some (path, bytes)

end MessageCatalog.CommandLine
