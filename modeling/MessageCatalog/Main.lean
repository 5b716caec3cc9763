/-
  MessageCatalog.Main
  ────────────────────────────────
  **THE CATALOG TOOL.**

  The program takes its words, its environment, the time and the files that
  its command looks at from outside, carries the command out on those, and
  gives back the text and the files that have changed.
-/
import MessageCatalog.CommandLine.Files
import MessageCatalog.CommandLine.Help
import MessageCatalog.Logging
import Std.Time.Format

namespace MessageCatalog

open MessageCatalog.Text

/-! ## §1. What comes from outside. -/

/-- The variables that settings are read from. -/
def readEnvironment : IO Environment := do
  let mut env : Environment := .empty
  for name in ["GETTEXT_CONFIG_PATH", "GETTEXT_LANG", "GETTEXT_PRODUCTION_MODE",
      "GETTEXT_NAMESPACE", "GETTEXT_CACHE_EXPIRE_SECONDS"] do
    if let some value ← IO.getEnv name then env := env.insert name value
  return env

/-- The present time. -/
def readClock : IO Moment := do
  let now ← Std.Time.DateTime.now
  return ⟨⟨now.year, now.month.toNat, now.day.toNat, now.hour.toNat, now.minute.toNat,
    now.second.toNat, now.offset.second.val⟩, now.toTimestamp.toSecondsSinceUnixEpoch.val⟩

/-- The tree with what is found at a path. -/
def fetch (fs : FileSystem) (path : String) : IO FileSystem := do
  try
    if ← (← IO.FS.realPath path).isDir then return (fs.makeDirectories path).2
    let bytes ← IO.FS.readBinFile path
    return (fs.install? path bytes.toList 0).getD fs
  catch _ => return fs

/-! ## §2. What goes back. -/

/-- Carries out a command: the text, or what is reported, and whether it went
well. -/
def carryOut (env : Environment) (i : CommandLine.Invocation) : IO (Except String String) := do
  let base := (← IO.currentDir).toString.utf8ByteSize
  let fs ← (CommandLine.settingsFiles env i.command).foldlM fetch { FileSystem.empty with base }
  match ((CommandLine.logSettings fs env i).toConfig.setUp false fs 0).1 with
  | .error e => return .error ("Failed to initialise logging: " ++ e.message)
  | .ok _ =>
      let catalogs := CommandLine.catalogFiles fs env i.command
      let fs ← catalogs.foldlM fetch fs
      let (answer, after) := CommandLine.run fs env (← readClock) i.command
      for (path, bytes) in CommandLine.changedFiles fs after catalogs do
        IO.FS.writeBinFile path ⟨bytes.toArray⟩
      match answer with
      | .ok text => return .ok (String.ofList (trimEnd text.toList))
      | .error e => return .error (e.message?.getD "The command failed")

end MessageCatalog

open MessageCatalog in
/-- The catalog tool. -/
def main (words : List String) : IO UInt32 := do
  match CommandLine.parse words with
  | .error e =>
      if e.isRequest then IO.println e.message else IO.eprintln e.message
      return if e.isRequest then 0 else 2
  | .ok i =>
      match ← carryOut (← readEnvironment) i with
      | .ok text =>
          IO.println text
          return 0
      | .error report =>
          IO.eprintln report
          return 1
