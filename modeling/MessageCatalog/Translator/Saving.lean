/-
  MessageCatalog.Translator.Saving
  ────────────────────────────────
  **SAVING A SOURCE.**

  Saving writes the entries of one source back, as a binary catalog and in its
  text form beside it.  The text form also has the pending messages that the
  dictionary does not know.  When both files are written, the pending messages
  of the language are forgotten, and in production mode the cached dictionary
  is dropped.
-/
import MessageCatalog.Mo.Writer
import MessageCatalog.Po.Writer
import MessageCatalog.Translator.Loading

namespace MessageCatalog.Translator

open MessageCatalog.Text

/-! ## §1. What is written. -/

/-- The forms of the pending messages that the dictionary does not have. -/
def unknownForms (d : Dictionary) (pending : PendingStrings) : List (List String) :=
  pending.values.filter fun
    | [] => false
    | original :: _ => !d.contains original

/-- The two files of an export: their paths and their bytes. -/
structure Export where
  catalogPath : String
  catalog : Bytes
  textPath : String
  textForm : Bytes

/-- What saving a source writes at a given time. -/
def exportOf (t : Translator) (session : SessionStore) (source : String) (stamp : Timestamp) :
    Except CatalogError Export := do
  if !t.loaded then .error .dictionaryNotLoaded
  match t.sources.get? source with
  | none => .error (.unknownSource source)
  | some dir => do
      let lang ← t.language
      let pending ← t.tracker.pending session lang
      let d := t.dictionary
      let metadata := d.metadataOf? source
      let path := Path.catalogFile dir lang source
      match Mo.write (d.sortedEntriesFor source) metadata stamp with
      | .error fault => .error (.invalidFormat none fault)
      | .ok catalog =>
          let text := Po.write (d.entriesFor source) metadata (unknownForms d pending) stamp
          .ok ⟨path, catalog, Path.textFormOf path, bytesOf text⟩

/-! ## §2. Writing it. -/

/-- Forgets what is pending in the language, and drops its cached dictionary in
production mode. -/
def settle (t : Translator) (w : Workspace) (lang : String) : Except CatalogError Workspace := do
  let session ← t.tracker.clear w.session lang
  let w := { w with session := session }
  .ok (if t.productionMode then { w with cache := t.cache.invalidate w.cache lang } else w)

/-- Writes the two files, one after the other. -/
def Export.writeTo (x : Export) (fs : FileSystem) (seconds : Int) :
    Except CatalogError Unit × FileSystem :=
  match fs.replace? x.catalogPath x.catalog seconds with
  | none => (.error .io, fs)
  | some fs =>
      match fs.replace? x.textPath x.textForm seconds with
      | none => (.error .io, fs)
      | some fs => (.ok (), fs)

/-- Saves a source.  Answers with the paths of the two files. -/
def save (t : Translator) (w : Workspace) (source : String) (now : Moment) :
    Outcome (String × String) :=
  match t.exportOf w.session source now.stamp with
  | .error e => t.answer w (.error e)
  | .ok x =>
      match x.writeTo w.files now.seconds with
      | (.error e, fs) => t.answer { w with files := fs } (.error e)
      | (.ok _, fs) =>
          match t.language.bind (t.settle { w with files := fs }) with
          | .error e => t.answer { w with files := fs } (.error e)
          | .ok w => t.answer w (.ok (x.catalogPath, x.textPath))

end MessageCatalog.Translator
