/-
  MessageCatalog.Document.Yaml.Scalar
  ────────────────────────────────
  **SCALARS IN QUOTES AND PLAIN ONES.**

  A scalar is written plain, in single quotes or in double quotes.  All three
  can go on over several lines, and what stands between two words of a scalar
  is its gap: blanks on one line are kept; a line break with the blanks around
  it counts as one space, and each further break as a break.  Every reader here
  gives the characters of the scalar and the row after it.
-/
import MessageCatalog.Document.Yaml.Glyph
import MessageCatalog.Text.Hexadecimal

namespace MessageCatalog.Yaml

open MessageCatalog.Text

/-! ## §1. Gaps. -/

/-- What stands between two words of a scalar. -/
inductive Gap where
  /-- Blanks on one line. -/
  | blanks (text : List Char)
  /-- Line breaks.  The first is missing where an escape stands in front of it. -/
  | breaks (first : Option Char) (more : List Char)
  deriving DecidableEq, Repr

namespace Gap

/-- No gap at all. -/
def none : Gap :=
  .blanks []

/-- A gap with one more blank, which is lost after a break. -/
def addBlank (c : Char) : Gap → Gap
  | .blanks text => .blanks (text ++ [c])
  | gap => gap

/-- A gap with one more break; blanks in front of it are lost. -/
def addBreak (c : Char) : Gap → Gap
  | .blanks _ => .breaks (some c) []
  | .breaks first more => .breaks first (more ++ [c])

/-- Whether a gap goes over the end of a line. -/
def hasBreak : Gap → Bool
  | .blanks _ => false
  | .breaks _ _ => true

/-- What a scalar has in place of a gap. -/
def text : Gap → List Char
  | .blanks text => text
  | .breaks (some '\n') [] => [' ']
  | .breaks (some '\n') more => more
  | .breaks first more => first.toList ++ more

end Gap

/-- A scalar with some characters in front of what has been read of it. -/
def prepend {α : Type} (front : List Char) (read? : Option (List Char × α)) :
    Option (List Char × α) :=
  read?.map fun (text, rest) => (front ++ text, rest)

/-! ## §2. Quotes. -/

/-- A text after its single quote, up to the closing one; two stand for one.
`atQuote` says whether the character before was the first of two. -/
def singleQuoted? : (atQuote : Bool) → Gap → List Glyph → Option (List Char × List Glyph)
  | true, _, [] => some ([], [])
  | false, _, [] => none
  | true, gap, g :: gs =>
      if g.char == '\'' then prepend ['\''] (singleQuoted? false gap gs) else some ([], g :: gs)
  | false, gap, g :: gs =>
      if startsDocumentMarker (g :: gs) then none
      else if isBreak g.char then singleQuoted? false (gap.addBreak g.char) gs
      else if isBlank g.char then singleQuoted? false (gap.addBlank g.char) gs
      else if g.char == '\'' then prepend gap.text (singleQuoted? true .none gs)
      else prepend (gap.text ++ [g.char]) (singleQuoted? false .none gs)

/-- What a character stands for after a backslash. -/
def escape? (c : Char) : Option Char :=
  match c with
  | '0' => some '\x00'
  | 'a' => some '\x07'
  | 'b' => some '\x08'
  | 't' | '\t' => some '\t'
  | 'n' => some '\n'
  | 'v' => some '\x0b'
  | 'f' => some '\x0c'
  | 'r' => some '\r'
  | 'e' => some '\x1b'
  | ' ' => some ' '
  | '"' => some '"'
  | '/' => some '/'
  | '\\' => some '\\'
  | 'N' => some '\u0085'
  | '_' => some '\u00a0'
  | 'L' => some '\u2028'
  | 'P' => some '\u2029'
  | _ => none

/-- How many hexadecimal digits follow a letter after a backslash. -/
def escapeDigits? (c : Char) : Option Nat :=
  match c with
  | 'x' => some 2
  | 'u' => some 4
  | 'U' => some 8
  | _ => none

/-- Where a reader is within a text in double quotes. -/
inductive Within where
  | words
  /-- After a backslash. -/
  | escape
  /-- Within the digits of an escape: those read, and how many are to come. -/
  | digits (read : List Char) (missing : Nat)
  deriving DecidableEq, Repr

/-- A text after its double quote, up to the closing one. -/
def doubleQuoted? : Within → Gap → List Glyph → Option (List Char × List Glyph)
  | _, _, [] => none
  | .words, gap, g :: gs =>
      if startsDocumentMarker (g :: gs) then none
      else if isBreak g.char then doubleQuoted? .words (gap.addBreak g.char) gs
      else if isBlank g.char then doubleQuoted? .words (gap.addBlank g.char) gs
      else if g.char == '"' then some (gap.text, gs)
      else if g.char == '\\' then prepend gap.text (doubleQuoted? .escape .none gs)
      else prepend (gap.text ++ [g.char]) (doubleQuoted? .words .none gs)
  | .escape, gap, g :: gs =>
      if isBreak g.char then doubleQuoted? .words (.breaks none []) gs
      else match escapeDigits? g.char with
        | some missing => doubleQuoted? (.digits [] missing) gap gs
        | none => (escape? g.char).bind fun c => prepend [c] (doubleQuoted? .words gap gs)
  | .digits read missing, gap, g :: gs =>
      let read := read ++ [g.char]
      if missing ≤ 1 then
        (charOfHex? read).bind fun c => prepend [c] (doubleQuoted? .words gap gs)
      else doubleQuoted? (.digits read (missing - 1)) gap gs

/-! ## §3. Plain scalars. -/

/-- The signs that no plain scalar starts with, brackets and commas apart. -/
def isSign (c : Char) : Bool :=
  "#&*!|>'\"%@`".toList.contains c

/-- Whether a plain scalar can start here.  A dash can start one, and outside
brackets a question mark or colon, when something follows at once. -/
def startsPlain (inBrackets : Bool) : List Glyph → Bool
  | [] => false
  | g :: gs =>
      if g.char == '-' then !(char? gs).any isBlank
      else if g.char == '?' || g.char == ':' then !inBrackets && !endsOrGap gs
      else !(isGap g.char || isFlowSign g.char || isSign g.char)

/-- A plain scalar as far as it goes, and the gap and the row after it.  A colon
ends it before a gap, a comment sign or the mark of a document after one, and
within brackets brackets and commas do; otherwise it ends on a line that is less
deep than `depth`, and no tab can stand there.  Within brackets a colon in front
of a bracket, comma or question mark is refused. -/
def plainRun? (inBrackets : Bool) (depth : Nat) :
    Gap → List Glyph → Option (List Char × Gap × List Glyph)
  | gap, [] => some ([], gap, [])
  | gap, g :: gs =>
      if isBlank g.char then
        if gap.hasBreak && g.column < depth && g.char == '\t' then none
        else plainRun? inBrackets depth (gap.addBlank g.char) gs
      else if isBreak g.char then plainRun? inBrackets depth (gap.addBreak g.char) gs
      else if gap != .none && (!inBrackets && g.column < depth || g.char == '#'
          || startsDocumentMarker (g :: gs)) then some ([], gap, g :: gs)
      else if inBrackets && g.char == ':' && (char? gs).any fun c => c == '?' || isFlowSign c then
        none
      else if g.char == ':' && endsOrGap gs || inBrackets && isFlowSign g.char then
        some ([], gap, g :: gs)
      else prepend (gap.text ++ [g.char]) (plainRun? inBrackets depth .none gs)

example : (singleQuoted? false .none (glyphsOf "it''s \n\n so' x".toList)).map Prod.fst
    = some "it's\nso".toList := by decide
example : (doubleQuoted? .words .none (glyphsOf "a\\\n  b\\u00e9\"".toList)).map Prod.fst
    = some "abé".toList := by decide
example : (plainRun? false 0 .none (glyphsOf "a:b c: d".toList)).map Prod.fst
    = some "a:b c".toList := by decide
example : (plainRun? false 1 .none (glyphsOf "a#b #c".toList)).map Prod.fst
    = some "a#b".toList := by decide

end MessageCatalog.Yaml
