/-
  MessageCatalog.Catalog.Entry
  ────────────────────────────────
  **ONE MESSAGE AND ITS TRANSLATIONS.**

  The original of a message is its singular, and its plural where it has one.
  The singular is the key under which the message is found; the translations
  are the variants for the plural forms, in order.
-/
import MessageCatalog.Text.Utf8

namespace MessageCatalog

open MessageCatalog.Text

/-- A translated message. -/
structure Entry where
  /-- The singular, and after it the plural. -/
  original : List String
  /-- The variants, one for each plural form. -/
  translation : List String
  /-- The identifier of the source that the message belongs to. -/
  source : String
  deriving DecidableEq, Repr

namespace Entry

/-- The singular of the original. -/
def key (e : Entry) : String :=
  e.original.headD ""

/-- The plural of the original. -/
def plural? (e : Entry) : Option String :=
  match e.original with
  | _ :: next :: rest => some ((next :: rest).getLast (by simp))
  | _ => none

/-- The variant with the given index, or the first one if there is none. -/
def variant (e : Entry) (index : Nat) : String :=
  match e.translation[index]? with
  | some text => text
  | none => e.translation.headD ""

/-- The bytes of the key, by which catalog files are ordered. -/
def keyBytes (e : Entry) : Bytes :=
  bytesOf e.key

/-- Orders entries by the bytes of their keys. -/
def keyLE (a b : Entry) : Bool :=
  decide (a.keyBytes ≤ b.keyBytes)

end Entry

end MessageCatalog
