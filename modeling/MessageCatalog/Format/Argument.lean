/-
  MessageCatalog.Format.Argument
  ────────────────────────────────
  **ARGUMENTS OF A TEMPLATE.**

  An argument is a text, an integer or a floating point number, and each
  conversion of a template asks for it as one of the three.  A text stands for
  the number it starts with, and for 0 when it starts with none.
-/
import MessageCatalog.Decimal.Notation
import MessageCatalog.Decimal.Reader
import MessageCatalog.Text.Blank

namespace MessageCatalog.Format

open MessageCatalog.Text MessageCatalog.Decimal

/-! ## §1. Arguments. -/

/-- What is filled into a template. -/
inductive Argument where
  | text (value : String)
  | integer (value : Int64)
  | real (value : Binary64)
  deriving DecidableEq, Repr

/-- An argument as it is typed: an integer if it is one, else a floating point
number if it is one, else text. -/
def Argument.ofTyped (raw : String) : Argument :=
  match readSigned raw.toList with
  | .ok v => .integer v
  | .error _ =>
      match Binary64.read? raw.toList with
      | some x => .real x
      | none => .text raw

/-! ## §2. As text and as numbers. -/

/-- The integer that a text starts with after blanks and a sign; 0 when there is
none or its digits do not fit. -/
def leadingInteger (cs : List Char) : Int64 :=
  let (negative, rest) := takeSign (trimStart cs)
  match readMagnitude maxSigned (rest.takeWhile Char.isDigit) with
  | .ok v => Int64.ofInt (if negative then -v else v)
  | .error _ => 0

/-- The argument as text. -/
def Argument.asText : Argument → List Char
  | .text value => value.toList
  | .integer value => decimal value.toInt
  | .real value => value.toShortest

/-- The argument as an integer. -/
def Argument.asInteger : Argument → Int64
  | .text value => leadingInteger value.toList
  | .integer value => value
  | .real value => value.toInt64

/-- The argument as a floating point number. -/
def Argument.asReal : Argument → Binary64
  | .text value =>
      match Binary64.read? (trim value.toList) with
      | some x => x
      | none => .ofInt (leadingInteger value.toList).toInt
  | .integer value => .ofInt value.toInt
  | .real value => value

end MessageCatalog.Format
