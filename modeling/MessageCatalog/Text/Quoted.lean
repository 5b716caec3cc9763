/-
  MessageCatalog.Text.Quoted
  ────────────────────────────────
  **TEXT IN QUOTES, AS REPORTS SHOW IT.**

  A report shows a text between double quotes.  Quotes and backslashes get a
  backslash, the common control characters their letter, and any other
  character that cannot be shown its number in hexadecimal.
-/
import MessageCatalog.Text.Printable

namespace MessageCatalog.Text

/-- A character written by its number. -/
def byNumber (c : Char) : List Char :=
  '\\' :: 'u' :: '\x7b' :: (Nat.toDigits 16 c.toNat ++ ['\x7d'])

/-- A character inside the quotes. -/
def quotedChar (c : Char) : List Char :=
  if c = '"' then ['\\', '"']
  else if c = '\\' then ['\\', '\\']
  else if c = '\n' then ['\\', 'n']
  else if c = '\t' then ['\\', 't']
  else if c = '\r' then ['\\', 'r']
  else if c = '\x00' then ['\\', '0']
  else if isPrintable c then [c]
  else byNumber c

/-- A text in quotes. -/
def quoted (s : String) : String :=
  "\"" ++ String.ofList (s.toList.flatMap quotedChar) ++ "\""

/-- A list of texts in quotes, in brackets. -/
def quotedList (texts : List String) : String :=
  "[" ++ String.intercalate ", " (texts.map quoted) ++ "]"

end MessageCatalog.Text
