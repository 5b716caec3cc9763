/-
  MessageCatalog.Session.Pending
  ────────────────────────────────
  **MESSAGES THAT WAIT FOR A TRANSLATION.**

  A session remembers, for each language, the originals that were asked for and
  not found, each with its forms: the original itself, and its plural where one
  was given.  It keeps them as a JSON object of the languages, in it an object
  of the originals, in it a list of the forms.
-/
import MessageCatalog.OrderedMap
import MessageCatalog.Text.Blank
import MessageCatalog.Text.Json

namespace MessageCatalog

open MessageCatalog.Text

/-! ## §1. Pending messages. -/

/-- The pending originals of one language with their forms, in the order in
which they were recorded. -/
abbrev PendingStrings := OrderedMap String (List String)

/-- The pending originals of all languages. -/
abbrev Pending := OrderedMap String PendingStrings

namespace Pending

/-- The pending originals of a language that are not blank. -/
def forLanguage (p : Pending) (lang : String) : PendingStrings :=
  ((p.get? lang).getD .empty).filter fun original _ => !isBlank original

/-- With an original of a language recorded.  If it is pending already, it keeps
its place and takes the new forms. -/
def record (p : Pending) (lang original : String) (forms : List String) : Pending :=
  p.insert lang (((p.get? lang).getD .empty).insert original forms)

/-- Without the originals of a language. -/
def clear (p : Pending) (lang : String) : Pending :=
  p.erase lang

/-! ## §2. As JSON. -/

/-- The fields of an object, each read by `read`. -/
def readFields {α : Type} (read : Json → Option α) :
    List (String × Json) → Option (List (String × α))
  | [] => some []
  | (key, value) :: fields => do
      let first ← read value
      let rest ← readFields read fields
      some ((key, first) :: rest)

/-- An object as a map. -/
def mapOfJson {α : Type} (read : Json → Option α) : Json → Option (OrderedMap String α)
  | .object fields => (readFields read fields).map .ofList
  | _ => none

/-- A text. -/
def textOfJson : Json → Option String
  | .string text => some text
  | _ => none

/-- A list of forms. -/
def formsOfJson : Json → Option (List String)
  | .array items => items.mapM textOfJson
  | _ => none

/-- The pending messages that a JSON value holds, if it has their shape. -/
def ofJson (value : Json) : Option Pending :=
  mapOfJson (mapOfJson formsOfJson) value

/-- The pending messages as a JSON value. -/
def toJson (p : Pending) : Json :=
  .object (p.pairs.map fun (lang, strings) =>
    (lang, .object (strings.pairs.map fun (original, forms) => (original, .ofStrings forms))))

end Pending

end MessageCatalog
