/-
  MessageCatalog.Mo.Record
  ────────────────────────────────
  **THE RECORDS OF A BINARY CATALOG.**

  A record is an original and its translation, as bytes.  Two tables hold the
  length and the offset of each string; the tables and the strings may stand
  anywhere in the file, as long as they stand inside it.  A string without
  bytes may have any offset.

  `Record.readAll` reads the records of a file, `image` lays a list of records
  out as a file: header, table of originals, table of translations, originals,
  translations, each string closed by a zero byte.
-/
import MessageCatalog.Mo.Header

namespace MessageCatalog.Mo

open MessageCatalog.Text

/-! ## §1. Records. -/

/-- An original and its translation. -/
structure Record where
  original : Bytes
  translation : Bytes
  deriving DecidableEq, Repr

/-- Strings with a zero byte between them. -/
def joinNul (texts : List String) : Bytes :=
  [(0 : UInt8)].intercalate (texts.map bytesOf)

namespace Record

/-- The record that carries the header text. -/
def ofHeader (text : String) : Record :=
  ⟨[], bytesOf text⟩

/-- A message without a plural. -/
def ofSingular (original translation : String) : Record :=
  ⟨bytesOf original, bytesOf translation⟩

/-- A message with a plural and a variant for each form. -/
def ofPlural (singular plural : String) (variants : List String) : Record :=
  ⟨joinNul [singular, plural], joinNul variants⟩

end Record

/-! ## §2. Reading. -/

/-- The string that the slot at an offset describes: its length, and where it is. -/
def stringAt (order : ByteOrder) (file : Bytes) (slot : Nat) : Except Fault Bytes := do
  let length ← wordAt order file slot
  let offset ← wordAt order file (slot + 4)
  if length = 0 then .ok []
  else
    match slice? file offset length with
    | some bytes => .ok bytes
    | none => .error (.stringOutOfBounds length offset)

/-- The record with an index. -/
def Header.recordAt (h : Header) (file : Bytes) (index : Nat) : Except Fault Record := do
  let original ← stringAt h.byteOrder file (h.originals + 8 * index)
  let translation ← stringAt h.byteOrder file (h.translations + 8 * index)
  .ok ⟨original, translation⟩

/-- The `count` records from an index on. -/
def Header.recordsFrom (h : Header) (file : Bytes) :
    (count index : Nat) → Except Fault (List Record)
  | 0, _ => .ok []
  | count + 1, index => do
      let first ← h.recordAt file index
      let rest ← h.recordsFrom file count (index + 1)
      .ok (first :: rest)

/-- All records of a file, in order. -/
def Record.readAll (file : Bytes) : Except Fault (List Record) := do
  let h ← Header.read file
  h.recordsFrom file h.count 0

/-! ## §3. Writing. -/

/-- Strings laid out so far: their slots, each a length and an offset, and their
bytes. -/
structure Pool where
  slots : List (Nat × Nat)
  bytes : Bytes

/-- One more string at the end, closed by a zero byte, where `start` is the
offset of the first string. -/
def Pool.add (start : Nat) (pool : Pool) (text : Bytes) : Pool :=
  ⟨pool.slots ++ [(text.length, start + pool.bytes.length)], pool.bytes ++ text ++ [0]⟩

/-- The bytes of words. -/
def ByteOrder.encodeAll (order : ByteOrder) (words : List Nat) : Bytes :=
  words.flatMap order.encode

/-- The file of a list of records. -/
def image (order : ByteOrder) (records : List Record) : Bytes :=
  let count := records.length
  let originals := headerSize
  let translations := originals + 8 * count
  let start := translations + 8 * count
  let strings := records.map Record.original ++ records.map Record.translation
  let pool := strings.foldl (Pool.add start) ⟨[], []⟩
  order.encodeAll
      ([magic, 0, count, originals, translations, 0, start]
        ++ pool.slots.flatMap fun slot => [slot.1, slot.2])
    ++ pool.bytes

end MessageCatalog.Mo
