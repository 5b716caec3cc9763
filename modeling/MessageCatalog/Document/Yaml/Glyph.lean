/-
  MessageCatalog.Document.Yaml.Glyph
  ────────────────────────────────
  **CHARACTERS IN THEIR PLACES.**

  In YAML it matters where a character stands: how deep it is on its line says
  what it belongs to.  So a text is read as a row of glyphs, each a character
  with its line, its column and the number of bytes in front of it.  A line can
  end in six ways; four of them count as a line feed, and the other two stand
  for themselves.
-/
import MessageCatalog.Text.Utf8

namespace MessageCatalog.Yaml

/-! ## §1. Classes of characters. -/

/-- A blank within a line. -/
def isBlank (c : Char) : Bool :=
  c == ' ' || c == '\t'

/-- The end of a line. -/
def isBreak (c : Char) : Bool :=
  c == '\n' || c == '\r' || c == '\u0085' || c == '\u2028' || c == '\u2029'

/-- A blank or the end of a line. -/
def isGap (c : Char) : Bool :=
  isBlank c || isBreak c

/-- A character of a name. -/
def isNameChar (c : Char) : Bool :=
  c.isAlphanum || c == '-' || c == '_'

/-- A bracket or comma, which structures a text within brackets. -/
def isFlowSign (c : Char) : Bool :=
  c == ',' || c == '[' || c == ']' || c == '{' || c == '}'

/-- The mark of an encoding, which can stand in front of a document. -/
def byteOrderMark : Char :=
  '\ufeff'

/-- The characters that can stand in a document. -/
def isAllowed (c : Char) : Bool :=
  c == '\t' || c == '\n' || c == '\r' || ' ' ≤ c && c ≤ '~' || c == '\u0085'
    || '\u00a0' ≤ c && c != '\ufffe' && c != '\uffff'

/-! ## §2. Places. -/

/-- A character of a document and where it stands. -/
structure Glyph where
  char : Char
  line : Nat
  column : Nat
  /-- How many bytes of the document are in front of it. -/
  offset : Nat
  deriving DecidableEq, Repr

/-- The glyphs of a text that starts in the given place. -/
def glyphsFrom : (line column offset : Nat) → List Char → List Glyph
  | _, _, _, [] => []
  | line, column, offset, '\r' :: '\n' :: cs =>
      ⟨'\n', line, column, offset⟩ :: glyphsFrom (line + 1) 0 (offset + 2) cs
  | line, column, offset, c :: cs =>
      let after := offset + c.utf8Size
      if c == '\u2028' || c == '\u2029' then
        ⟨c, line, column, offset⟩ :: glyphsFrom (line + 1) 0 after cs
      else if isBreak c then ⟨'\n', line, column, offset⟩ :: glyphsFrom (line + 1) 0 after cs
      else ⟨c, line, column, offset⟩ :: glyphsFrom line (column + 1) after cs

/-- The glyphs of a document.  The mark of an encoding in front is no glyph, but
it takes up a column. -/
def glyphsOf (cs : List Char) : List Glyph :=
  match glyphsFrom 0 0 0 cs with
  | g :: gs => if g.char == byteOrderMark then gs else g :: gs
  | [] => []

example : (glyphsOf "é\r\nb".toList).map Glyph.offset = [0, 2, 4] := by decide
example : (glyphsOf "a\rb\u0085c".toList).map Glyph.line = [0, 0, 1, 1, 2] := by decide

/-! ## §3. What stands in front of a text. -/

/-- The character that a row starts with. -/
def char? (gs : List Glyph) : Option Char :=
  gs.head?.map Glyph.char

/-- Whether a row starts with the given character. -/
def startsWith (c : Char) (gs : List Glyph) : Bool :=
  char? gs == some c

/-- Whether a row is at its end or starts with a character of some class. -/
def endsOr (inClass : Char → Bool) (gs : List Glyph) : Bool :=
  (char? gs).all inClass

/-- Whether a row is at its end or goes on with a blank or the end of a line. -/
def endsOrGap (gs : List Glyph) : Bool :=
  endsOr isGap gs

/-- Whether a row starts with three times the same character, at the start of a
line and with nothing after it. -/
def startsMarker (c : Char) : List Glyph → Bool
  | g₁ :: g₂ :: g₃ :: gs =>
      g₁.column == 0 && g₁.char == c && g₂.char == c && g₃.char == c && endsOrGap gs
  | _ => false

/-- Whether a row starts with the mark of a document's start or end. -/
def startsDocumentMarker (gs : List Glyph) : Bool :=
  startsMarker '-' gs || startsMarker '.' gs

/-- What follows the blanks in front. -/
def skipBlanks (gs : List Glyph) : List Glyph :=
  gs.dropWhile fun g => isBlank g.char

/-- What is left of a line after blanks and a comment, from the break on; nothing
else can be on it. -/
def restOfLine? (gs : List Glyph) : Option (List Glyph) :=
  let gs := skipBlanks gs
  let gs := if startsWith '#' gs then gs.dropWhile fun g => !isBreak g.char else gs
  if endsOr isBreak gs then some gs else none

end MessageCatalog.Yaml
