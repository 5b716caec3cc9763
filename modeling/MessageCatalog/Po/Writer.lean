/-
  MessageCatalog.Po.Writer
  ────────────────────────────────
  **WRITING THE TEXT FORM OF A CATALOG.**

  The text form is a list of lines: a banner with the time of the export, the
  header, one block for each message, and one for each message that is still
  pending, with an empty translation.  Inside the quotes a double quote gets a
  backslash; nothing else is escaped.
-/
import MessageCatalog.Catalog.Dictionary

namespace MessageCatalog.Po

open MessageCatalog.Text

/-! ## §1. Lines. -/

/-- The first line of the text form. -/
def banner : String :=
  "# Gettext keys exported by GettextTranslator and Translation Panel"

/-- The text with a backslash in front of each double quote. -/
def escape (text : String) : String :=
  String.ofList (text.toList.flatMap fun c => if c = '"' then ['\\', '"'] else [c])

/-- A keyword and a text in quotes. -/
def field (keyword text : String) : String :=
  keyword ++ " \"" ++ escape text ++ "\""

/-- A line of the header. -/
def headerLine (text : String) : String :=
  "\"" ++ escape text ++ "\\n\""

/-! ## §2. Blocks. -/

/-- The translations of a message, numbered if there are several. -/
def translationLines (variants : List String) : List String :=
  match variants with
  | [] => [field "msgstr" ""]
  | [variant] => [field "msgstr" variant]
  | variants =>
      variants.zipIdx.map fun (variant, index) =>
        field ("msgstr[" ++ toString index ++ "]") variant

/-- The originals of a message. -/
def originalLines (key : String) (plural : Option String) : List String :=
  field "msgid" key :: (plural.map (field "msgid_plural")).toList

/-- The block of a message. -/
def entryBlock (e : Entry) : List String :=
  originalLines e.key e.plural? ++ translationLines e.translation ++ [""]

/-- The block of a pending message, none if it is blank. -/
def pendingBlock : List String → List String
  | [] => []
  | singular :: more =>
      if isBlank singular then []
      else originalLines singular more.getLast? ++ [field "msgstr" "", ""]

/-! ## §3. The whole text. -/

/-- The lines of the text form. -/
def lines (entries : List Entry) (metadata : Option Metadata) (pending : List (List String))
    (now : Timestamp) : List String :=
  [banner, "# Created: " ++ now.created, "msgid \"\"", "msgstr \"\""]
    ++ (Metadata.headerLinesOf metadata now).map headerLine
    ++ ["", ""]
    ++ entries.flatMap entryBlock
    ++ pending.flatMap pendingBlock

/-- The text form of one source: its entries as they come, and the messages that
wait for a translation. -/
def write (entries : List Entry) (metadata : Option Metadata) (pending : List (List String))
    (now : Timestamp) : String :=
  String.join ((lines entries metadata pending now).map (· ++ "\n"))

end MessageCatalog.Po
