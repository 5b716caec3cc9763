/-
  MessageCatalog.Translator.Form
  ────────────────────────────────
  **THE QUANTITY A MESSAGE IS ASKED FOR.**

  A message is asked for with a count, and often with its plural, which is the
  answer for counts above one as long as there is no translation.
-/
import MessageCatalog.Text.Blank
import MessageCatalog.Text.Number

namespace MessageCatalog

open MessageCatalog.Text

/-- A quantity, with the plural of the message or without it. -/
inductive Form where
  | bare (count : Nat)
  | withPlural (plural : String) (count : Nat)
  deriving DecidableEq, Repr

namespace Form

/-- One. -/
def one : Form :=
  .bare 1

/-- The count that a text spells; whatever is no count counts as one. -/
def ofText (text : String) : Form :=
  match readWord (trim text.toList) with
  | .ok n => .bare n
  | .error _ => one

/-- The quantity. -/
def count : Form → Nat
  | .bare n => n
  | .withPlural _ n => n

/-- The plural, unless it is empty. -/
def plural? : Form → Option String
  | .bare _ => none
  | .withPlural plural _ => if plural.isEmpty then none else some plural

/-- What answers for a message without a translation. -/
def untranslated (f : Form) (message : String) : String :=
  match f.plural? with
  | some plural => if 1 < f.count then plural else message
  | none => message

/-- The form that counts as the index when no plural formula can be asked. -/
def fallbackIndex (count : Nat) : Nat :=
  if 1 < count then 1 else 0

end Form

end MessageCatalog
