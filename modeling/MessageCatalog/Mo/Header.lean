/-
  MessageCatalog.Mo.Header
  ────────────────────────────────
  **THE FIXED HEADER OF A BINARY CATALOG.**

  Seven words open the file: a magic number, which also tells the byte order,
  the revision, the number of strings, the offsets of the two tables, and the
  size and offset of a hash table that nobody needs.
-/
import MessageCatalog.Mo.Word

namespace MessageCatalog.Mo

open MessageCatalog.Text

/-! ## §1. Faults. -/

/-- The size of the header in bytes. -/
def headerSize : Nat := 28

/-- Why bytes are no binary catalog. -/
inductive Fault where
  /-- The file has fewer bytes than the header. -/
  | shorterThanHeader (size : Nat)
  /-- The first word, read with the least significant byte first, is no magic number. -/
  | badMagic (magic : Nat)
  | wordOutOfBounds (offset : Nat)
  | stringOutOfBounds (length offset : Nat)
  /-- A size or an offset does not fit a word. -/
  | exceedsLimit
  /-- Any other reason, in words. -/
  | described (reason : String)
  deriving DecidableEq, Repr

/-- A word in hexadecimal, with all its eight digits. -/
def hexWord (n : Nat) : String :=
  let ds := Nat.toDigits 16 n
  "0x" ++ String.ofList (List.replicate (8 - ds.length) '0' ++ ds)

/-- What is reported about a fault. -/
def Fault.message : Fault → String
  | .shorterThanHeader size =>
      "file is " ++ toString size ++ " bytes, shorter than the " ++ toString headerSize
        ++ "-byte header"
  | .badMagic magic => "bad magic number " ++ hexWord magic
  | .wordOutOfBounds offset => "word at offset " ++ toString offset ++ " is out of bounds"
  | .stringOutOfBounds length offset =>
      "string of " ++ toString length ++ " bytes at offset " ++ toString offset
        ++ " is out of bounds"
  | .exceedsLimit => "catalog exceeds the 4 GiB MO limit"
  | .described reason => reason

/-! ## §2. The header. -/

/-- The magic number of a catalog. -/
def magic : Nat := 0x950412de

/-- The magic number with its bytes in reverse. -/
def magicReversed : Nat := 0xde120495

/-- The byte order that a first word tells. -/
def ByteOrder.ofMagic? (word : Nat) : Option ByteOrder :=
  if word = magic then some .little
  else if word = magicReversed then some .big
  else none

/-- The header of a binary catalog. -/
structure Header where
  byteOrder : ByteOrder
  revision : Nat
  /-- The number of pairs of strings. -/
  count : Nat
  /-- The offset of the table of originals. -/
  originals : Nat
  /-- The offset of the table of translations. -/
  translations : Nat
  hashSize : Nat
  hashOffset : Nat
  deriving DecidableEq, Repr

/-- The word at an offset. -/
def wordAt (order : ByteOrder) (file : Bytes) (offset : Nat) : Except Fault Nat :=
  match wordAt? order file offset with
  | some word => .ok word
  | none => .error (.wordOutOfBounds offset)

/-- Reads the header. -/
def Header.read (file : Bytes) : Except Fault Header :=
  if file.length < headerSize then .error (.shorterThanHeader file.length)
  else do
    let first ← wordAt .little file 0
    match ByteOrder.ofMagic? first with
    | none => .error (.badMagic first)
    | some order => do
        let revision ← wordAt order file 4
        let count ← wordAt order file 8
        let originals ← wordAt order file 12
        let translations ← wordAt order file 16
        let hashSize ← wordAt order file 20
        let hashOffset ← wordAt order file 24
        .ok ⟨order, revision, count, originals, translations, hashSize, hashOffset⟩

end MessageCatalog.Mo
