/-
  MessageCatalog.Text.Json
  ────────────────────────────────
  **JSON VALUES WITH ORDERED FIELDS.**

  Sessions keep JSON values, and a catalog can be described as one.  The fields
  of an object stand in the order in which they were first set, and a number is
  the text it was written as.  `Json.pretty` writes a value on several lines,
  two blanks deeper for each level.
-/

namespace MessageCatalog.Text

/-! ## §1. Values. -/

/-- A JSON value. -/
inductive Json where
  | null
  | bool (value : Bool)
  /-- A number as it is written. -/
  | number (literal : String)
  | string (text : String)
  | array (items : List Json)
  | object (fields : List (String × Json))
  deriving Repr

/-- The number `n`. -/
def Json.ofNat (n : Nat) : Json :=
  .number (toString n)

/-- A list of texts. -/
def Json.ofStrings (texts : List String) : Json :=
  .array (texts.map .string)

/-! ## §2. Quoting. -/

/-- One hexadecimal digit in lower case. -/
def hexDigit (n : Nat) : Char :=
  Nat.digitChar (n % 16)

/-- A character inside a quoted text. -/
def Json.escapeChar (c : Char) : List Char :=
  if c = '"' then ['\\', '"']
  else if c = '\\' then ['\\', '\\']
  else if c = '\n' then ['\\', 'n']
  else if c = '\r' then ['\\', 'r']
  else if c = '\t' then ['\\', 't']
  else if c = '\x08' then ['\\', 'b']
  else if c = '\x0c' then ['\\', 'f']
  else if c.toNat < 0x20 then
    ['\\', 'u', '0', '0', hexDigit (c.toNat / 16), hexDigit c.toNat]
  else [c]

/-- A text in quotes; nothing but quotes, backslashes and control characters is
escaped. -/
def Json.quote (text : String) : String :=
  "\"" ++ String.ofList (text.toList.flatMap Json.escapeChar) ++ "\""

/-! ## §3. Several lines. -/

/-- A line break and the blanks of a level. -/
def Json.lineBreak (level : Nat) : String :=
  "\n" ++ String.ofList (List.replicate (2 * level) ' ')

/-- Parts in brackets, each on a line of its own; no line at all for no parts. -/
def Json.block (level : Nat) (opening closing : String) (parts : List String) : String :=
  if parts.isEmpty then opening ++ closing
  else
    opening ++ Json.lineBreak (level + 1)
      ++ String.intercalate ("," ++ Json.lineBreak (level + 1)) parts
      ++ Json.lineBreak level ++ closing

mutual

/-- A value whose first line stands at the given level. -/
def Json.prettyAt (level : Nat) : Json → String
  | .null => "null"
  | .bool b => if b then "true" else "false"
  | .number literal => literal
  | .string text => Json.quote text
  | .array items => Json.block level "[" "]" (Json.prettyItems (level + 1) items)
  | .object fields => Json.block level "\x7b" "\x7d" (Json.prettyFields (level + 1) fields)

/-- The items of an array, each as text. -/
def Json.prettyItems (level : Nat) : List Json → List String
  | [] => []
  | item :: items => Json.prettyAt level item :: Json.prettyItems level items

/-- The fields of an object, each as text. -/
def Json.prettyFields (level : Nat) : List (String × Json) → List String
  | [] => []
  | (key, value) :: fields =>
      (Json.quote key ++ ": " ++ Json.prettyAt level value) :: Json.prettyFields level fields

end

/-- A value on several lines. -/
def Json.pretty (value : Json) : String :=
  Json.prettyAt 0 value

end MessageCatalog.Text
