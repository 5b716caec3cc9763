/-
  MessageCatalog.Mo.Writer
  ────────────────────────────────
  **WRITING A BINARY CATALOG.**

  The file is written with the least significant byte of a word first.  Its
  first record has no original and carries the header; the messages follow in
  the order of the bytes of their keys, which lets readers search the table of
  originals by halves.  There is no hash table.  A catalog too large for its
  words is refused.
-/
import MessageCatalog.Catalog.Dictionary
import MessageCatalog.Mo.Record

namespace MessageCatalog.Mo

open MessageCatalog.Text

/-! ## §1. Strings. -/

/-- The original of a message: its key, and its plural where it has one. -/
def originalOf (e : Entry) : Bytes :=
  match e.plural? with
  | some plural => bytesOf e.key ++ 0 :: bytesOf plural
  | none => bytesOf e.key

/-- The variants of a message. -/
def translationOf (e : Entry) : Bytes :=
  joinNul e.translation

/-- The header text: its lines with a line break between them. -/
def headerText (metadata : Option Metadata) (revised : Timestamp) : String :=
  String.intercalate "\n" (Metadata.headerLinesOf metadata revised)

/-! ## §2. Layout. -/

/-- The slots of strings that stand one after the other from an offset on, each
closed by a zero byte. -/
def slotsFrom (offset : Nat) : List Bytes → List (Nat × Nat)
  | [] => []
  | text :: texts => (text.length, offset) :: slotsFrom (offset + text.length + 1) texts

/-- Strings one after the other, each closed by a zero byte. -/
def blob (texts : List Bytes) : Bytes :=
  texts.flatMap fun text => text ++ [0]

/-- A number as a word, if it is one. -/
def checkedWord (n : Nat) : Except Fault Bytes :=
  if n < wordLimit then .ok (ByteOrder.little.encode n) else .error .exceedsLimit

/-- Writes the entries of one source, ordered by key. -/
def write (entries : List Entry) (metadata : Option Metadata) (revised : Timestamp) :
    Except Fault Bytes := do
  let sorted := entries.mergeSort Entry.keyLE
  let originals := [] :: sorted.map originalOf
  let translations := bytesOf (headerText metadata revised) :: sorted.map translationOf
  let items := sorted.length + 1
  let start := headerSize + 16 * items
  let middle := start + (blob originals).length
  let slots := slotsFrom start originals ++ slotsFrom middle translations
  let words ← ([magic, 0, items, headerSize, headerSize + 8 * items, 0, start]
    ++ slots.flatMap fun slot => [slot.1, slot.2]).mapM checkedWord
  .ok (words.flatten ++ blob originals ++ blob translations)

end MessageCatalog.Mo
