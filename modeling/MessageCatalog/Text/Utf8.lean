/-
  MessageCatalog.Text.Utf8
  ────────────────────────────────
  **TEXT AS BYTES AND BYTES AS TEXT.**

  Catalog files hold text in UTF-8.  Every text has its bytes; bytes that are
  not UTF-8 are read all the same, with one U+FFFD for each longest run of
  bytes that starts a character and breaks off, or for a byte that starts none.
-/

namespace MessageCatalog.Text

/-- A row of bytes. -/
abbrev Bytes := List UInt8

namespace Utf8

/-! ## §1. Writing. -/

/-- The bytes of a list of characters. -/
def encode (cs : List Char) : Bytes :=
  cs.flatMap String.utf8EncodeChar

@[simp] theorem encode_nil : encode [] = [] := rfl

@[simp] theorem encode_cons (c : Char) (cs : List Char) :
    encode (c :: cs) = String.utf8EncodeChar c ++ encode cs := rfl

theorem encode_append (xs ys : List Char) : encode (xs ++ ys) = encode xs ++ encode ys :=
  List.flatMap_append

/-! ## §2. Reading one character. -/

/-- For the first byte of a character of several bytes: how many bytes follow,
and the least and the greatest value of the next one. -/
def lead? (b : UInt8) : Option (Nat × UInt8 × UInt8) :=
  if 0xC2 ≤ b && b ≤ 0xDF then some (1, 0x80, 0xBF)
  else if b == 0xE0 then some (2, 0xA0, 0xBF)
  else if b == 0xED then some (2, 0x80, 0x9F)
  else if 0xE1 ≤ b && b ≤ 0xEF then some (2, 0x80, 0xBF)
  else if b == 0xF0 then some (3, 0x90, 0xBF)
  else if 0xF1 ≤ b && b ≤ 0xF3 then some (3, 0x80, 0xBF)
  else if b == 0xF4 then some (3, 0x80, 0x8F)
  else none

/-- Up to `count` bytes that may follow, the first of them from `low` to `high`. -/
def followers : (count : Nat) → (low high : UInt8) → Bytes → Bytes
  | count + 1, low, high, b :: bs =>
      if low ≤ b && b ≤ high then b :: followers count 0x80 0xBF bs else []
  | _, _, _, _ => []

/-- What stands for bytes that are no character. -/
def replacement : Char := '\ufffd'

/-- The first character of the bytes `b :: bs`, and how many bytes it takes. -/
def next (b : UInt8) (bs : Bytes) : Char × Nat :=
  if b < 0x80 then (Char.ofNat b.toNat, 1)
  else
    match lead? b with
    | none => (replacement, 1)
    | some (count, low, high) =>
        let tail := followers count low high bs
        if tail.length = count then
          let top := b.toNat % (64 >>> count)
          (Char.ofNat (tail.foldl (fun v t => v * 64 + t.toNat % 64) top), count + 1)
        else (replacement, tail.length + 1)

/-! ## §3. Reading all characters. -/

/-- The characters of bytes whose first `skip` belong to a character already
read. -/
def decodeFrom : (skip : Nat) → Bytes → List Char
  | _, [] => []
  | skip + 1, _ :: bs => decodeFrom skip bs
  | 0, b :: bs => (next b bs).1 :: decodeFrom ((next b bs).2 - 1) bs

/-- The characters that bytes hold, whatever the bytes are. -/
def decode (bs : Bytes) : List Char :=
  decodeFrom 0 bs

/-- Whether bytes are the bytes of a text. -/
def isValid (bs : Bytes) : Bool :=
  encode (decode bs) == bs

example : decode [0x61, 0xC5, 0xBE, 0xE2, 0x82, 0x62] = ['a', 'ž', '\ufffd', 'b'] := by decide

end Utf8

/-- The bytes of a text. -/
def bytesOf (s : String) : Bytes :=
  Utf8.encode s.toList

/-- The text that bytes hold. -/
def textOf (bs : Bytes) : String :=
  String.ofList (Utf8.decode bs)

end MessageCatalog.Text
