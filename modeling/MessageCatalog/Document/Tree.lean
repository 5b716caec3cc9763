/-
  MessageCatalog.Document.Tree
  ────────────────────────────────
  **WHAT A SETTINGS DOCUMENT SAYS.**

  Settings are written in one of two notations.  Both come down to a tree of
  tables and values.  One notation tells texts, integers and truth values
  apart by the way they are written; the other has plain words, and what a
  plain word means is decided by who asks for it.
-/
import MessageCatalog.Text.Hexadecimal

namespace MessageCatalog

open MessageCatalog.Text

/-! ## §1. Trees. -/

/-- A value of a settings document. -/
inductive Tree where
  /-- A text in quotes. -/
  | text (value : String)
  /-- A word without quotes, which can be a text as well as a number. -/
  | plain (value : String)
  | integer (value : Int)
  | truth (value : Bool)
  /-- A value of a kind that no setting has. -/
  | other
  | list (items : List Tree)
  /-- Fields in the order in which they stand, a name given twice included. -/
  | table (fields : List (String × Tree))
  deriving Repr

namespace Tree

/-! ## §2. What a value can be read as. -/

/-- A text: one in quotes, or any word. -/
def asText? : Tree → Option String
  | .text value => some value
  | .plain value => some value
  | _ => none

/-- A truth value, in one of three spellings as a word. -/
def asTruth? : Tree → Option Bool
  | .truth value => some value
  | .plain value =>
      if value ∈ ["true", "True", "TRUE"] then some true
      else if value ∈ ["false", "False", "FALSE"] then some false
      else none
  | _ => none

/-- Whether a word has digits only, the first of several being zero. -/
def hasLeadingZero (cs : List Char) : Bool :=
  1 < cs.length && cs.head? == some '0' && cs.all Char.isDigit

/-- The digits of a number in a base other than ten, after the sign that says so. -/
def basedDigits? : List Char → Option (Nat × List Char)
  | '0' :: 'x' :: cs => some (16, cs)
  | '0' :: 'o' :: cs => some (8, cs)
  | '0' :: 'b' :: cs => some (2, cs)
  | _ => none

/-- The number from 0 on that a word spells: decimal, or in another base after
`0x`, `0o` or `0b`; a `+` may stand in front. -/
def wordCount? (cs : List Char) : Option Nat :=
  let unsigned := match cs with
    | '+' :: cs => cs
    | cs => cs
  let value? := match basedDigits? unsigned with
    | some (base, digits) => readInBase? base digits
    | none => if hasLeadingZero unsigned then none else readInBase? 10 unsigned
  value?.filter (· ≤ maxWord)

/-- A count. -/
def asCount? : Tree → Option Nat
  | .integer value => if 0 ≤ value then some value.toNat else none
  | .plain value => wordCount? value.toList
  | _ => none

/-- The fields of a table; a word of no characters has none. -/
def fields? : Tree → Option (List (String × Tree))
  | .table fields => some fields
  | .plain value => if value.isEmpty then some [] else none
  | _ => none

/-- The fields of a record with the given names.  A list gives the first of them
by position. -/
def record? (names : List String) : Tree → Option (List (String × Tree))
  | .list items => some (names.zip items)
  | tree => tree.fields?

/-- The field with the given name, read in its own way; `missing` when there is
none.  A field that is given twice cannot be read. -/
def field? {α : Type} (fields : List (String × Tree)) (name : String)
    (read : Tree → Option α) (missing : α) : Option α :=
  match fields.filter (·.1 == name) with
  | [] => some missing
  | [(_, value)] => read value
  | _ => none

example : wordCount? "+12".toList = some 12 := by decide
example : wordCount? "007".toList = none := by decide
example : wordCount? "0x1F".toList = some 31 := by decide
example : wordCount? "1.5".toList = none := by decide

end Tree

end MessageCatalog
