/-
  MessageCatalog.Catalog.Error
  ────────────────────────────────
  **WHAT CAN GO WRONG WITH CATALOGS.**

  One type for the faults of loading, asking and saving.  A fault of the bytes
  of a file names the file once it is known.
-/
import MessageCatalog.Format.Template
import MessageCatalog.Mo.Header
import MessageCatalog.Plural.Forms
import MessageCatalog.Text.Quoted

namespace MessageCatalog

open MessageCatalog.Text

/-- Why catalogs cannot be loaded, asked or saved. -/
inductive CatalogError where
  /-- Bytes that are no catalog, and the file they come from. -/
  | invalidFormat (path : Option String) (fault : Mo.Fault)
  /-- A source is registered already. -/
  | duplicateIdentifier (identifier : String)
  | missingDirectory (path : String)
  /-- No language has been set. -/
  | undefinedLanguage
  /-- The language that is to be set is blank. -/
  | emptyLanguage
  /-- No source is registered. -/
  | sourcesUndefined
  /-- There is nothing to save yet. -/
  | dictionaryNotLoaded
  /-- A source was never registered. -/
  | unknownSource (identifier : String)
  | plural (fault : Plural.Fault)
  | format (fault : Format.Fault)
  /-- The session holds something that is no list of pending messages. -/
  | serialization
  /-- The file system refuses. -/
  | io
  deriving DecidableEq, Repr

namespace CatalogError

/-- The error, of bytes that come from the given file. -/
def withPath (file : String) : CatalogError → CatalogError
  | .invalidFormat none fault => .invalidFormat (some file) fault
  | other => other

/-- What is reported about an error, as far as its text is the library's own. -/
def message : CatalogError → String
  | .invalidFormat none fault => "Not a gettext MO file: " ++ fault.message
  | .invalidFormat (some path) fault =>
      "Not a gettext MO file (" ++ path ++ "): " ++ fault.message
  | .duplicateIdentifier identifier =>
      "Language file identified '" ++ identifier ++ "' is already registered"
  | .missingDirectory path => "Directory " ++ quoted path ++ " doesn't exist"
  | .undefinedLanguage => "Language must be defined"
  | .emptyLanguage => "Language must be a non-empty string"
  | .sourcesUndefined => "Language file(s) must be defined"
  | .dictionaryNotLoaded => "Nothing to save, translations are not loaded"
  | .unknownSource identifier => "Gettext file identified as '" ++ identifier ++ "' does not exist"
  | .plural fault => "Plural expression error: " ++ fault.message
  | .format fault => "Format error: " ++ fault.message
  | .serialization => "Serialization error"
  | .io => "IO error"

end CatalogError

end MessageCatalog
