/-
  MessageCatalog.Document.Yaml.Property
  ────────────────────────────────
  **NAMES THAT STAND IN FRONT OF VALUES AND DOCUMENTS.**

  A value can be given a name to come back to it, and a tag that says what kind
  of value it is.  A tag is written with a handle, which lines in front of the
  document can introduce.  What a tag says is not kept, for every setting has
  its kind; only its handle has to be known.
-/
import MessageCatalog.Document.Yaml.Glyph
import MessageCatalog.Text.Hexadecimal

namespace MessageCatalog.Yaml

open MessageCatalog.Text

/-! ## §1. Names. -/

/-- The characters at the start of a row that make a name, which can be empty. -/
def nameOf (gs : List Glyph) : List Char :=
  (gs.takeWhile fun g => isNameChar g.char).map Glyph.char

/-- What follows them. -/
def afterName (gs : List Glyph) : List Glyph :=
  gs.dropWhile fun g => isNameChar g.char

/-- The signs that can follow the name of a value at once. -/
def endsName (c : Char) : Bool :=
  isGap c || "?:,]%@`".toList.contains c || c == '}'

/-- The name of a value, after its sign. -/
def valueName? (gs : List Glyph) : Option (String × List Glyph) :=
  let name := nameOf gs
  let rest := afterName gs
  if name.isEmpty || !endsOr endsName rest then none else some (String.ofList name, rest)

/-! ## §2. Tags. -/

/-- How many bytes follow the first byte of a character. -/
def trailing? (byte : Nat) : Option Nat :=
  if byte < 0x80 then some 0
  else if byte < 0xc0 then none
  else if byte < 0xe0 then some 1
  else if byte < 0xf0 then some 2
  else if byte < 0xf8 then some 3
  else none

/-- How many bytes of a character are still missing after a byte, when `missing`
were before. -/
def missingAfter? (missing byte : Nat) : Option Nat :=
  match missing with
  | 0 => trailing? byte
  | missing + 1 => if 0x80 ≤ byte ∧ byte < 0xc0 then some missing else none

/-- The characters of a tag, and with brackets and commas those of one in angles. -/
def isTagChar (withBrackets : Bool) (c : Char) : Bool :=
  isNameChar c || ";/?:@&=+$.!~*'()".toList.contains c
    || withBrackets && (c == ',' || c == '[' || c == ']')

/-- What follows the characters of a tag.  After a percent sign a byte is given by
two digits, and bytes have to make whole characters. -/
def afterTag? (withBrackets : Bool) : (missing : Nat) → List Glyph → Option (List Glyph)
  | missing, [] => if missing = 0 then some [] else none
  | missing, g :: gs =>
      if g.char == '%' then
        match gs with
        | a :: b :: gs => do
            let byte ← readInBase? 16 [a.char, b.char]
            let missing ← missingAfter? missing byte
            afterTag? withBrackets missing gs
        | _ => none
      else if missing ≠ 0 then none
      else if isTagChar withBrackets g.char then afterTag? withBrackets 0 gs
      else some (g :: gs)

/-- What follows a tag that has at least one character. -/
def afterFullTag? (withBrackets : Bool) (gs : List Glyph) : Option (List Glyph) :=
  (afterTag? withBrackets 0 gs).filter fun rest => rest.length < gs.length

/-- A handle after its first exclamation mark: the text of it with both marks if it
ends in a second one, and the row after it. -/
def handle (gs : List Glyph) : List Char × List Glyph :=
  let rest := afterName gs
  if startsWith '!' rest then ('!' :: nameOf gs ++ ['!'], rest.drop 1)
  else ('!' :: nameOf gs, rest)

/-- The handle of a tag, after the exclamation mark that a tag starts with.  A tag in
angles has none, nor has the mark on its own. -/
def tagHandle? (inBrackets : Bool) (gs : List Glyph) : Option (Option String × List Glyph) := do
  let (name?, rest) ←
    if startsWith '<' gs then do
      let rest ← afterFullTag? true (gs.drop 1)
      if startsWith '>' rest then some (none, rest.drop 1) else none
    else
      let (name, rest) := handle gs
      if 1 < name.length && name.getLast? == some '!' then do
        let rest ← afterFullTag? false rest
        some (some (String.ofList name), rest)
      else do
        let after ← afterTag? false 0 rest
        let isAlone := name.length == 1 && after.length == rest.length
        some (if isAlone then none else some "!", after)
  if inBrackets && startsWith ',' rest || endsOrGap rest then some (name?, rest) else none

/-! ## §3. Lines in front of a document. -/

/-- What a line in front of a document says. -/
inductive Directive where
  /-- The version of the notation. -/
  | version (major minor : Nat)
  /-- A handle of tags. -/
  | handle (name : String)
  deriving DecidableEq, Repr

/-- A number of a version, of at most nine digits. -/
def versionPart? (gs : List Glyph) : Option (Nat × List Glyph) :=
  let digits := (gs.takeWhile fun g => g.char.isDigit).map Glyph.char
  if 9 < digits.length then none
  else (readInBase? 10 digits).map fun n => (n, gs.drop digits.length)

/-- What follows the word `YAML`. -/
def version? (gs : List Glyph) : Option (Directive × List Glyph) := do
  let (major, gs) ← versionPart? gs
  if !startsWith '.' gs then none
  let (minor, gs) ← versionPart? (gs.drop 1)
  some (.version major minor, gs)

/-- What follows the word `TAG`. -/
def newHandle? (gs : List Glyph) : Option (Directive × List Glyph) := do
  if !startsWith '!' gs then none
  let (name, gs) := handle (gs.drop 1)
  if 1 < name.length && name.getLast? != some '!' then none
  if !(char? gs).any isBlank then none
  let gs ← afterFullTag? true (skipBlanks gs)
  if endsOrGap gs then some (.handle (String.ofList name), gs) else none

/-- A line in front of a document, after its percent sign, and the lines below. -/
def directive? (gs : List Glyph) : Option (Directive × List Glyph) := do
  let name := String.ofList (nameOf gs)
  let rest := afterName gs
  if !endsOrGap rest then none
  let (directive, rest) ←
    if name = "YAML" then version? (skipBlanks rest)
    else if name = "TAG" then newHandle? (skipBlanks rest)
    else none
  let rest ← restOfLine? rest
  some (directive, rest.drop 1)

example : (tagHandle? false (glyphsOf "!str x".toList)).map Prod.fst = some (some "!!") := by
  decide
example : (directive? (glyphsOf "YAML 1.2 # x\n".toList)).map Prod.fst
    = some (.version 1 2) := by decide

end MessageCatalog.Yaml
