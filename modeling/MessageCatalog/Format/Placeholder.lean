/-
  MessageCatalog.Format.Placeholder
  ────────────────────────────────
  **PLACEHOLDERS THAT SURVIVE.**

  `%label`, `%name` and `%value` stand for parts of a form and are filled in
  later by others.  They are masked while the arguments are filled in, so they
  take no argument and are no conversions: each is replaced by its name between
  two characters U+0001, and put back afterwards.
-/
import MessageCatalog.Format.Template
import MessageCatalog.Text.Search

namespace MessageCatalog.Format

open MessageCatalog.Text

/-! ## §1. Masks. -/

/-- The names of the placeholders, in the order in which they are masked. -/
def placeholderNames : List (List Char) :=
  ["label".toList, "name".toList, "value".toList]

/-- A placeholder as it stands in a template. -/
def placeholder (name : List Char) : List Char :=
  '%' :: name

/-- What stands for it while arguments are filled in. -/
def sentinel (name : List Char) : List Char :=
  '\x01' :: name ++ ['\x01']

/-- The text with every placeholder masked. -/
def mask (cs : List Char) : List Char :=
  placeholderNames.foldl (fun cs name => replaceAll (placeholder name) (sentinel name) cs) cs

/-- The text with every mask turned back into its placeholder. -/
def unmask (cs : List Char) : List Char :=
  placeholderNames.foldl (fun cs name => replaceAll (sentinel name) (placeholder name) cs) cs

/-! ## §2. Interpolation. -/

/-- Fills the arguments into a template and keeps its placeholders.  Without
arguments the template is left as it is. -/
def interpolate (template : String) (args : List Argument) : Except Fault String :=
  if args.isEmpty then .ok template
  else do
    let text ← (Template.read (mask template.toList)).render args
    .ok (String.ofList (unmask text))

end MessageCatalog.Format
