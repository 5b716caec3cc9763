/-
  MessageCatalog.Translator.Lookup
  ────────────────────────────────
  **LOOKING MESSAGES UP.**

  A message that the dictionary has is answered with the variant that the
  plural formula of its own source selects.  Where there is no formula, or it
  fails, counts above one get the second variant.  A message that is not found
  becomes pending and answers for itself.
-/
import MessageCatalog.Format.Placeholder
import MessageCatalog.Translator.Form
import MessageCatalog.Translator.Loading

namespace MessageCatalog.Translator

open MessageCatalog.Text

/-! ## §1. Choosing a variant. -/

/-- The plural formula of a source. -/
def formula? (t : Translator) (source : String) : Option String :=
  (t.dictionary.metadataOf? source).bind Metadata.pluralForms?

/-- The index of the variant for a count. -/
def pluralIndex (t : Translator) (e : Entry) (count : Nat) : Nat :=
  match t.formula? e.source with
  | none => Form.fallbackIndex count
  | some header =>
      match Plural.evaluate header count with
      | .ok index => index
      | .error _ => Form.fallbackIndex count

/-- The entry of a message; the empty message has none. -/
def entry? (t : Translator) (message : String) : Option Entry :=
  if message.isEmpty then none else t.dictionary.get? message

/-! ## §2. Looking up. -/

/-- Records a message that was not found, and answers for it. -/
def miss (t : Translator) (w : Workspace) (message : String) (form : Form) : Outcome String :=
  match t.language with
  | .error e => t.answer w (.error e)
  | .ok lang =>
      match t.tracker.record w.session lang message form.plural? with
      | .error e => t.answer w (.error e)
      | .ok session => t.answer { w with session := session } (.ok (form.untranslated message))

/-- The translation of a message for a quantity, its arguments not yet filled in. -/
def lookup (t : Translator) (w : Workspace) (message : String) (form : Form) : Outcome String :=
  (t.ensureLoaded w).andThen fun _ t w =>
    match t.entry? message with
    | some e => t.answer w (.ok (e.variant (t.pluralIndex e form.count)))
    | none => t.miss w message form

/-- The translation of a message for one. -/
def gettext (t : Translator) (w : Workspace) (message : String) : Outcome String :=
  t.lookup w message .one

/-- The translation of a message with a plural for a count. -/
def ngettext (t : Translator) (w : Workspace) (singular plural : String) (count : Nat) :
    Outcome String :=
  t.lookup w singular (.withPlural plural count)

/-- The translation of a message with its arguments filled in. -/
def translate (t : Translator) (w : Workspace) (message : String) (form : Form)
    (args : List Format.Argument) : Outcome String :=
  (t.lookup w message form).andThen fun text t w =>
    match Format.interpolate text args with
    | .ok filled => t.answer w (.ok filled)
    | .error fault => t.answer w (.error (.format fault))

end MessageCatalog.Translator
