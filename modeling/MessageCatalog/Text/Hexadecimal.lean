/-
  MessageCatalog.Text.Hexadecimal
  ────────────────────────────────
  **NUMBERS IN OTHER BASES, AND CHARACTERS WRITTEN BY THEIR NUMBER.**

  A digit of a base up to sixteen is a decimal digit or a letter, in either
  case.  An escape in a quoted text gives the number of a character in
  hexadecimal; numbers that no character has are refused.
-/
import MessageCatalog.Text.Number

namespace MessageCatalog.Text

/-- The value of a digit in a base up to sixteen. -/
def digitIn? (base : Nat) (c : Char) : Option Nat :=
  let value :=
    if c.isDigit then c.toNat - '0'.toNat
    else if 'a' ≤ c ∧ c ≤ 'f' then c.toNat - 'a'.toNat + 10
    else if 'A' ≤ c ∧ c ≤ 'F' then c.toNat - 'A'.toNat + 10
    else base
  if value < base then some value else none

/-- The number that at least one digit of a base spells. -/
def readInBase? (base : Nat) (cs : List Char) : Option Nat :=
  if cs.isEmpty then none
  else cs.foldlM (fun v c => (digitIn? base c).map fun d => base * v + d) 0

/-- The character with a given number. -/
def charOfNumber? (n : Nat) : Option Char :=
  if n.isValidChar then some (Char.ofNat n) else none

/-- The character whose number the hexadecimal digits spell. -/
def charOfHex? (cs : List Char) : Option Char := do
  charOfNumber? (← readInBase? 16 cs)

example : readInBase? 16 "fF".toList = some 255 := by decide
example : readInBase? 8 "8".toList = none := by decide
example : charOfHex? "D800".toList = none := by decide

end MessageCatalog.Text
