/-
  MessageCatalog.Mo.Reader
  ────────────────────────────────
  **FROM RECORDS TO A CATALOG.**

  A record without a translation says nothing and is left out.  One without an
  original carries header text, and several of them add up in order.  All
  others are messages: their strings are read as text and split at the zero
  characters, the original into singular and plural, the translation into its
  variants.
-/
import MessageCatalog.Catalog.Dictionary
import MessageCatalog.Catalog.Error
import MessageCatalog.Mo.Record

namespace MessageCatalog.Mo

open MessageCatalog.Text

/-- The texts between zero bytes. -/
def splitNul (bytes : Bytes) : List String :=
  (pieces (· == '\x00') (Utf8.decode bytes)).map String.ofList

namespace Record

/-- Whether the record holds header text. -/
def isHeader (r : Record) : Bool :=
  r.original.isEmpty && !r.translation.isEmpty

/-- Whether the record holds a message. -/
def isMessage (r : Record) : Bool :=
  !r.original.isEmpty && !r.translation.isEmpty

/-- The message that a record holds. -/
def toEntry (source : String) (r : Record) : Entry :=
  ⟨splitNul r.original, splitNul r.translation, source⟩

end Record

/-- The header that records hold together, if one of them holds any. -/
def metadataOf (records : List Record) : Option Metadata :=
  (records.filter Record.isHeader).foldl
    (fun m r => some ((m.getD .empty).mergeText (textOf r.translation))) none

/-- The catalog that records hold for a source. -/
def catalogOf (source : String) (records : List Record) : Catalog where
  source := source
  entries := (records.filter Record.isMessage).map (Record.toEntry source)
  metadata := metadataOf records

/-- Reads a binary catalog for a source. -/
def parse (file : Bytes) (source : String) : Except Fault Catalog := do
  let records ← Record.readAll file
  .ok (catalogOf source records)

end MessageCatalog.Mo

namespace MessageCatalog

open MessageCatalog.Text

/-- The catalog of bytes that come from no known file. -/
def Catalog.ofBytes (file : Bytes) (source : String) : Except CatalogError Catalog :=
  (Mo.parse file source).mapError (.invalidFormat none)

end MessageCatalog
