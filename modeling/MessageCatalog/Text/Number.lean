/-
  MessageCatalog.Text.Number
  ────────────────────────────────
  **DECIMAL INTEGERS.**

  Counts, sizes and literals are read from decimal digits, an optional sign in
  front, and refused when they do not fit the word they are meant for.  The
  digits are read from the left, so the first of two faults is the one that is
  reported: `1x` is an invalid digit, and so is `x` after twenty nines only if
  no digit before it made the number too large.
-/

namespace MessageCatalog.Text

/-! ## §1. Digits. -/

/-- The value of one decimal digit. -/
def digitValue (c : Char) : Nat :=
  c.toNat - '0'.toNat

/-- The number that a run of decimal digits spells. -/
def digitsValue (cs : List Char) : Nat :=
  cs.foldl (fun v c => 10 * v + digitValue c) 0

/-- The decimal digits of `n`. -/
def digits (n : Nat) : List Char :=
  Nat.toDigits 10 n

/-- The decimal text of `n`, with `-` in front of a negative number. -/
def decimal (n : Int) : List Char :=
  if n < 0 then '-' :: digits n.natAbs else digits n.natAbs

/-- A number with at least `width` digits. -/
def zeroPadded (width n : Nat) : String :=
  let ds := digits n
  String.ofList (List.replicate (width - ds.length) '0' ++ ds)

/-! ## §2. Reading. -/

/-- Why a text is not an integer of the wanted size. -/
inductive NumberFault where
  /-- There is no character at all. -/
  | empty
  /-- A character is no digit, or a sign stands alone. -/
  | invalidDigit
  /-- The number exceeds the largest one. -/
  | tooLarge
  deriving DecidableEq, Repr

/-- What is reported about the fault. -/
def NumberFault.message : NumberFault → String
  | .empty => "cannot parse integer from empty string"
  | .invalidDigit => "invalid digit found in string"
  | .tooLarge => "number too large to fit in target type"

/-- Digits after those that made `v`, up to `limit`. -/
def readDigits (limit : Nat) : Nat → List Char → Except NumberFault Nat
  | v, [] => .ok v
  | v, c :: cs =>
      if c.isDigit then
        if 10 * v + digitValue c ≤ limit then readDigits limit (10 * v + digitValue c) cs
        else .error .tooLarge
      else .error .invalidDigit

/-- At least one digit, up to `limit`. -/
def readMagnitude (limit : Nat) : List Char → Except NumberFault Nat
  | [] => .error .invalidDigit
  | c :: cs => readDigits limit 0 (c :: cs)

/-- A number from 0 to `limit`, `+` allowed in front. -/
def readNat (limit : Nat) : List Char → Except NumberFault Nat
  | [] => .error .empty
  | '+' :: cs => readMagnitude limit cs
  | cs => readMagnitude limit cs

/-- The largest unsigned 64-bit number. -/
def maxWord : Nat := 0xFFFFFFFFFFFFFFFF

/-- The largest signed 64-bit number. -/
def maxSigned : Nat := 0x7FFFFFFFFFFFFFFF

/-- An unsigned 64-bit number. -/
def readWord (cs : List Char) : Except NumberFault Nat :=
  readNat maxWord cs

/-- A signed 64-bit number, `+` or `-` allowed in front. -/
def readSigned : List Char → Except NumberFault Int64
  | '-' :: cs => (readMagnitude (maxSigned + 1) cs).map fun v => Int64.ofInt (-v)
  | cs => (readNat maxSigned cs).map fun v => Int64.ofInt v

example : readWord "+007".toList = .ok 7 := rfl
example : readWord "18446744073709551616".toList = .error .tooLarge := rfl
example : readWord "-1".toList = .error .invalidDigit := rfl

end MessageCatalog.Text
