/-
  MessageCatalog.Mo.Word
  ────────────────────────────────
  **THE 32-BIT WORDS OF A BINARY CATALOG.**

  A binary catalog consists of words of four bytes and of strings that words
  point at.  The words stand in one of two byte orders; positions are counted
  in bytes from the start of the file.
-/
import MessageCatalog.Text.Utf8

namespace MessageCatalog.Mo

open MessageCatalog.Text

/-! ## §1. Byte orders. -/

/-- The order of the bytes of a word. -/
inductive ByteOrder where
  | little
  | big
  deriving DecidableEq, Repr

/-- The name of a byte order. -/
def ByteOrder.name : ByteOrder → String
  | .little => "Little"
  | .big => "Big"

/-- The least number that no word holds. -/
def wordLimit : Nat := 0x100000000

/-- The word of four bytes, given the least significant one first. -/
def wordOfBytes (b₀ b₁ b₂ b₃ : UInt8) : Nat :=
  b₀.toNat + 0x100 * b₁.toNat + 0x10000 * b₂.toNat + 0x1000000 * b₃.toNat

/-- The four bytes of a word, the least significant one first. -/
def bytesOfWord (n : Nat) : Bytes :=
  [UInt8.ofNat n, UInt8.ofNat (n / 0x100), UInt8.ofNat (n / 0x10000), UInt8.ofNat (n / 0x1000000)]

/-- The bytes of a word in the given order. -/
def ByteOrder.encode : ByteOrder → Nat → Bytes
  | .little, n => bytesOfWord n
  | .big, n => (bytesOfWord n).reverse

/-- The word that four bytes hold in the given order. -/
def ByteOrder.decode : ByteOrder → UInt8 → UInt8 → UInt8 → UInt8 → Nat
  | .little, a, b, c, d => wordOfBytes a b c d
  | .big, a, b, c, d => wordOfBytes d c b a

/-! ## §2. Words and strings of a file. -/

/-- The word at an offset, if all of it is in the file. -/
def wordAt? (order : ByteOrder) (file : Bytes) (offset : Nat) : Option Nat :=
  match file.drop offset with
  | a :: b :: c :: d :: _ => some (order.decode a b c d)
  | _ => none

/-- The bytes from an offset on, if all of them are in the file. -/
def slice? (file : Bytes) (offset length : Nat) : Option Bytes :=
  if offset + length ≤ file.length then some ((file.drop offset).take length) else none

@[simp] theorem length_encode (order : ByteOrder) (n : Nat) : (order.encode n).length = 4 := by
  cases order <;> rfl

/-- A word that was written is read back, in either order. -/
theorem wordAt?_encode_append (order : ByteOrder) {n : Nat} (h : n < wordLimit) (rest : Bytes) :
    wordAt? order (order.encode n ++ rest) 0 = some n := by
  unfold wordLimit at h
  cases order with
  | little | big =>
      simp only [wordAt?, ByteOrder.encode, ByteOrder.decode, bytesOfWord, wordOfBytes,
        List.reverse_cons, List.reverse_nil, List.nil_append, List.cons_append, List.drop_zero,
        UInt8.toNat_ofNat', Option.some.injEq]
      omega

end MessageCatalog.Mo
