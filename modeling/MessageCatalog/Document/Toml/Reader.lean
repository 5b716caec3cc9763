/-
  MessageCatalog.Document.Toml.Reader
  ────────────────────────────────
  **DOCUMENTS OF TABLES AND PAIRS.**

  A document has on each line a pair `key = value`, the header of a table, or
  nothing.  A pair belongs to the table of the last header.  Lists and tables
  can also be values; a list may take several lines, a table only one.  Every
  reader returns what follows what it has read; `depth` is at least the length
  of the text.
-/
import MessageCatalog.Document.Toml.Literal
import MessageCatalog.Document.Toml.Table

namespace MessageCatalog.Toml

open MessageCatalog.Text

/-! ## §1. Line ends and keys. -/

/-- What follows the end of the line: blanks, and perhaps a comment. -/
def lineEnd? (cs : List Char) : Option (List Char) :=
  let rest := match skipGap cs with
    | '#' :: cs => cs.dropWhile isTextChar
    | cs => cs
  if rest.isEmpty then some [] else afterBreak? rest

/-- What follows blanks, line breaks and comments. -/
def skipLines : (depth : Nat) → List Char → List Char
  | 0, cs => cs
  | depth + 1, cs =>
      match skipGap cs with
      | [] => []
      | cs =>
          match lineEnd? cs with
          | some rest => skipLines depth rest
          | none => cs

/-- A character of a key without quotes. -/
def isKeyChar (c : Char) : Bool :=
  c.isAlphanum || c == '_' || c == '-'

/-- One part of a key. -/
def keyPart? (cs : List Char) : Option (String × List Char) :=
  let read? := match cs with
    | '"' :: cs => basic cs
    | '\'' :: cs => literal cs
    | cs =>
        let (run, rest) := cs.span isKeyChar
        if run.isEmpty then none else some (run, rest)
  read?.map fun (run, rest) => (String.ofList run, rest)

/-- How deep a document can be nested: a key has fewer parts, and a value is in
fewer brackets. -/
def nestingLimit : Nat := 80

/-- A key of at most `depth` parts with points between them. -/
def keyOf? : (depth : Nat) → List Char → Option (List String × List Char)
  | 0, _ => none
  | depth + 1, cs => do
      let (part, rest) ← keyPart? (skipGap cs)
      match skipGap rest with
      | '.' :: rest => do
          let (parts, rest) ← keyOf? depth rest
          some (part :: parts, rest)
      | rest => some ([part], rest)

/-- A key. -/
def key? (cs : List Char) : Option (List String × List Char) :=
  keyOf? (nestingLimit - 1) cs

/-! ## §2. Values. -/

mutual

/-- A value within some number of brackets. -/
def value? : (depth brackets : Nat) → List Char → Option (Tree × List Char)
  | 0, _, _ => none
  | depth + 1, brackets, cs =>
      match cs with
      | '[' :: cs => do
          if nestingLimit ≤ brackets + 1 then none
          let (items, rest) ← items? depth (brackets + 1) (skipLines cs.length cs)
          some (.list items, rest)
      | '{' :: cs => do
          if nestingLimit ≤ brackets + 1 then none
          match skipGap cs with
          | '}' :: rest => some (.table [], rest)
          | rest => do
              let (fields, rest) ← pairs? depth (brackets + 1) [] rest
              some (.table (treeFields fields), rest)
      | '"' :: _ => (string? cs).map fun (text, rest) => (.text text, rest)
      | '\'' :: _ => (string? cs).map fun (text, rest) => (.text text, rest)
      | cs => do
          let (word, rest) := takeWord cs
          some (← word? word, rest)

/-- The items of a list, up to its closing bracket. -/
def items? : (depth brackets : Nat) → List Char → Option (List Tree × List Char)
  | _, _, ']' :: cs => some ([], cs)
  | 0, _, _ => none
  | depth + 1, brackets, cs => do
      let (item, rest) ← value? depth brackets cs
      match skipLines rest.length rest with
      | ',' :: rest => do
          let (items, rest) ← items? depth brackets (skipLines rest.length rest)
          some (item :: items, rest)
      | ']' :: rest => some ([item], rest)
      | _ => none

/-- A key with its value. -/
def pair? : (depth brackets : Nat) → List Char → Option ((List String × Tree) × List Char)
  | 0, _, _ => none
  | depth + 1, brackets, cs => do
      let (path, rest) ← key? cs
      match rest with
      | '=' :: rest => do
          let (tree, rest) ← value? depth brackets (skipGap rest)
          some ((path, tree), rest)
      | _ => none

/-- The pairs of a table on one line, after those that have been read, up to its
closing brace. -/
def pairs? : (depth brackets : Nat) → Fields → List Char → Option (Fields × List Char)
  | 0, _, _, _ => none
  | depth + 1, brackets, fields, cs => do
      let ((path, tree), rest) ← pair? depth brackets cs
      let fields ← assign fields path tree
      match skipGap rest with
      | ',' :: rest => pairs? depth brackets fields rest
      | '}' :: rest => some (fields, rest)
      | _ => none

end

/-! ## §3. Documents. -/

/-- What has been read of a document: its tables, and the path of the table that
pairs go to. -/
structure Progress where
  root : Fields
  header : List String

/-- One more header, of a single table or of one in a row. -/
def Progress.openTable (p : Progress) (change : String → Change) (path : List String) :
    Option Progress := do
  let change ← atPath .implicit change path
  some ⟨← change .explicit p.root, path⟩

/-- One more pair. -/
def Progress.addPair (p : Progress) (path : List String) (tree : Tree) : Option Progress := do
  let change ← atPath .dotted (fun key => setting (1 < path.length) key tree) path
  some { p with root := ← change.along .implicit p.header .explicit p.root }

/-- A header or a pair, and what follows it. -/
def statement? (p : Progress) (cs : List Char) : Option (Progress × List Char) :=
  match cs with
  | '[' :: '[' :: cs => do
      let (path, rest) ← key? cs
      match rest with
      | ']' :: ']' :: rest => some (← p.openTable adding path, rest)
      | _ => none
  | '[' :: cs => do
      let (path, rest) ← key? cs
      match rest with
      | ']' :: rest => some (← p.openTable opening path, rest)
      | _ => none
  | cs => do
      let ((path, tree), rest) ← pair? (2 * cs.length + 2) 0 cs
      some (← p.addPair path tree, rest)

/-- The rest of a document, line by line. -/
def lines? : (depth : Nat) → Progress → List Char → Option Progress
  | 0, _, _ => none
  | depth + 1, p, cs =>
      match skipGap cs with
      | [] => some p
      | cs =>
          match lineEnd? cs with
          | some rest => lines? depth p rest
          | none => do
              let (p, rest) ← statement? p cs
              lines? depth p (← lineEnd? rest)

/-- The tree that a text spells. -/
def read? (cs : List Char) : Option Tree := do
  let cs := match cs with
    | '\ufeff' :: cs => cs
    | cs => cs
  let p ← lines? (cs.length + 1) ⟨[], []⟩ cs
  some (.table (treeFields p.root))

end MessageCatalog.Toml
