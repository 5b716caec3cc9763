/-
  MessageCatalog.Catalog.Metadata
  ────────────────────────────────
  **THE HEADER OF A CATALOG.**

  The translation of the empty message is the header of its catalog: lines of
  the form `Key: Value`, where a comma ends a line just as a line break does.
  On export the header is written anew: the time of the export, the keys that
  are recognized, in a fixed order and some with a default, and then all other
  keys in the order in which they were read.
-/
import MessageCatalog.Catalog.Timestamp
import MessageCatalog.OrderedMap
import MessageCatalog.Text.Blank
import MessageCatalog.Text.Search

namespace MessageCatalog

open MessageCatalog.Text

/-! ## §1. Keys. -/

/-- The key of the plural formula. -/
def pluralFormsKey : String := "Plural-Forms"

/-- The key of the time of the last export. -/
def revisionKey : String := "PO-Revision-Date"

/-- The keys that are written in a fixed order, with their defaults. -/
def recognizedKeys : List (String × Option String) :=
  [("Project-Id-Version", none),
   ("Report-Msgid-Bugs-To", none),
   ("POT-Creation-Date", none),
   ("Last-Translator", none),
   ("Language-Team", none),
   ("MIME-Version", some "1.0"),
   ("Content-Type", some "text/plain; charset=UTF-8"),
   ("Content-Transfer-Encoding", some "8bit"),
   (pluralFormsKey, some "nplurals=3; plural=((n==1) ? 0 : (n>=2 && n<=4 ? 1 : 2));"),
   ("X-Poedit-Language", none),
   ("X-Poedit-Country", none),
   ("X-Poedit-SourceCharset", none),
   ("X-Poedit-KeywordsList", none)]

/-! ## §2. Reading. -/

/-- The pairs of one source's header. -/
structure Metadata where
  values : OrderedMap String String
  deriving DecidableEq

namespace Metadata

/-- The header without pairs. -/
def empty : Metadata :=
  ⟨.empty⟩

/-- The pair that a header line holds. -/
def pair? (line : List Char) : Option (String × String) :=
  (cutAt? ": ".toList line).map fun (key, value) =>
    (String.ofList (trim key), String.ofList value)

/-- The lines of a header text; a comma ends a line too. -/
def lines (text : List Char) : List (List Char) :=
  (pieces (fun c => c == '\n' || c == ',') (trim text)).filter (!·.isEmpty)

/-- The pairs of a header text, in order. -/
def pairsOf (text : String) : List (String × String) :=
  (lines text.toList).filterMap pair?

/-- The header with the pairs of a text added to it. -/
def mergeText (m : Metadata) (text : String) : Metadata :=
  ⟨m.values.insertAll (pairsOf text)⟩

/-- The header that a text holds. -/
def parse (text : String) : Metadata :=
  empty.mergeText text

/-- The value of a key. -/
def get? (m : Metadata) (key : String) : Option String :=
  m.values.get? key

/-- The header with another value for a key. -/
def insert (m : Metadata) (key value : String) : Metadata :=
  ⟨m.values.insert key value⟩

/-- The header with all pairs of another one added to it. -/
def merge (m other : Metadata) : Metadata :=
  ⟨m.values.insertAll other.values.pairs⟩

/-- The plural formula. -/
def pluralForms? (m : Metadata) : Option String :=
  m.get? pluralFormsKey

/-! ## §3. Writing. -/

/-- A header line. -/
def line (key value : String) : String :=
  key ++ ": " ++ value

/-- Whether a key is written by itself, apart from the recognized ones. -/
def isExtra (key : String) : Bool :=
  !(recognizedKeys.map Prod.fst).contains key && key != revisionKey

/-- The lines of the header for an export at the given time. -/
def headerLines (m : Metadata) (revised : Timestamp) : List String :=
  line revisionKey revised.revision
    :: recognizedKeys.filterMap (fun (key, default) =>
        ((m.get? key).or default).map (line key))
    ++ (m.values.pairs.filter fun pair => isExtra pair.1).map fun pair => line pair.1 pair.2

/-- The lines for a source that may have no header. -/
def headerLinesOf (m : Option Metadata) (revised : Timestamp) : List String :=
  (m.getD empty).headerLines revised

end Metadata

end MessageCatalog
