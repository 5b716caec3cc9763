/-
  MessageCatalog.Document.Yaml.Token
  ────────────────────────────────
  **THE SIGNS AND SCALARS OF A DOCUMENT.**

  A document is a row of signs and scalars.  Some of the signs are not written:
  that a table or list on lines starts or ends is seen from the columns, and
  that a scalar is a key is known only when its colon comes, so the place where
  a key may have started is kept until then.  A key is on one line and has at
  most 1024 bytes.
-/
import MessageCatalog.Document.Yaml.Block
import MessageCatalog.Document.Yaml.Property

namespace MessageCatalog.Yaml

/-! ## §1. Tokens. -/

/-- A sign or a scalar. -/
inductive Token where
  | directive (line : Directive)
  | documentStart
  | documentEnd
  /-- The start of a list on lines. -/
  | blockList
  /-- The start of a table on lines. -/
  | blockTable
  /-- The end of a list or table on lines. -/
  | blockEnd
  /-- The start of a list in square brackets. -/
  | flowList
  | flowListEnd
  /-- The start of a table in braces. -/
  | flowTable
  | flowTableEnd
  /-- The dash in front of an item. -/
  | item
  /-- The comma between two entries in brackets. -/
  | comma
  | key
  | value
  /-- The name of the value after it. -/
  | name (name : String)
  /-- A value that was named before. -/
  | named (name : String)
  | tag (handle? : Option String)
  | plain (text : String)
  /-- A scalar that is not plain. -/
  | text (text : String)
  deriving DecidableEq, Repr

/-! ## §2. What is known at a place. -/

/-- A place where a key may have started. -/
structure Candidate where
  /-- How many tokens are in front of it. -/
  index : Nat
  start : Glyph
  /-- Whether nothing but a key can stand there. -/
  isRequired : Bool
  deriving DecidableEq, Repr

/-- What is known at some place of a document. -/
structure Context where
  /-- The tokens up to there. -/
  tokens : Array Token := #[]
  /-- The columns of the tables and lists on lines, the innermost first. -/
  columns : List Nat := []
  /-- Where a key may have started, outside brackets. -/
  outer : Option Candidate := none
  /-- Where a key may have started, for each bracket, the innermost first. -/
  inner : List (Option Candidate) := []
  /-- Whether a key can start here. -/
  canStartKey : Bool := true
  deriving DecidableEq, Repr

namespace Context

/-- Whether the place is within brackets. -/
def inBrackets (ctx : Context) : Bool :=
  !ctx.inner.isEmpty

/-- How deep a line at least is that belongs to the innermost table or list. -/
def depth (ctx : Context) : Nat :=
  match ctx.columns with
  | [] => 0
  | column :: _ => column + 1

/-- With one more token. -/
def add (ctx : Context) (token : Token) : Context :=
  { ctx with tokens := ctx.tokens.push token }

/-- With a token in front of those from `index` on. -/
def addAt (ctx : Context) (index : Nat) (token : Token) : Context :=
  { ctx with tokens := ctx.tokens.insertIdxIfInBounds index token }

/-- Whether a key can start after this place. -/
def startKeys (ctx : Context) (canStartKey : Bool) : Context :=
  { ctx with canStartKey }

/-! ## §3. Keys that may have started. -/

/-- Where a key of the innermost bracket may have started. -/
def candidate? (ctx : Context) : Option Candidate :=
  match ctx.inner with
  | [] => ctx.outer
  | candidate :: _ => candidate

/-- With another place where a key of the innermost bracket may have started. -/
def setCandidate (ctx : Context) (candidate : Option Candidate) : Context :=
  match ctx.inner with
  | [] => { ctx with outer := candidate }
  | _ :: inner => { ctx with inner := candidate :: inner }

/-- Without a key that may have started; a required one has to go on. -/
def dropKey? (ctx : Context) : Option Context :=
  if ctx.candidate?.any Candidate.isRequired then none else some (ctx.setCandidate none)

/-- At a place where a key can start. -/
def offerKey? (ctx : Context) (start : Glyph) : Option Context :=
  if !ctx.canStartKey then some ctx
  else do
    let ctx ← ctx.dropKey?
    let isRequired := !ctx.inBrackets && ctx.columns.head? == some start.column
    some (ctx.setCandidate (some ⟨ctx.tokens.size, start, isRequired⟩))

/-- Whether a key that started somewhere cannot go on up to some place. -/
def Candidate.isStale (candidate : Candidate) (here : Glyph) : Bool :=
  candidate.start.line < here.line || candidate.start.offset + 1024 < here.offset

/-- A candidate if a key can go on up to some place; a required one has to. -/
def keepFresh? (here : Glyph) : Option Candidate → Option (Option Candidate)
  | some candidate =>
      if Candidate.isStale candidate here then
        if candidate.isRequired then none else some none
      else some (some candidate)
  | none => some none

/-- Without the keys that cannot go on up to some place. -/
def dropStale? (ctx : Context) (here : Glyph) : Option Context := do
  let outer ← keepFresh? here ctx.outer
  let inner ← ctx.inner.mapM (keepFresh? here)
  some { ctx with outer, inner }

/-! ## §4. Tables and lists. -/

/-- With the start of a table or list on lines at a column, if it is deeper than the
innermost one; the token stands in front of those from `index` on. -/
def openBlock (ctx : Context) (column : Nat) (token : Token) (index : Nat) : Context :=
  if !ctx.inBrackets && ctx.depth ≤ column then
    { ctx.addAt index token with columns := column :: ctx.columns }
  else ctx

/-- With the ends of the tables and lists on lines that go on only below a column;
without a column, of all. -/
def closeBlocks (ctx : Context) (column? : Option Nat) : Context :=
  if ctx.inBrackets then ctx
  else
    let isClosed (column : Nat) : Bool := column?.all (· < column)
    let ends := ctx.columns.takeWhile isClosed
    { ctx with
      tokens := ctx.tokens ++ ends.map fun _ => Token.blockEnd
      columns := ctx.columns.dropWhile isClosed }

/-- At the end of everything on lines. -/
def finish? (ctx : Context) : Option Context :=
  (ctx.closeBlocks none).dropKey?

/-- After an opening bracket. -/
def openBracket? (ctx : Context) (start : Glyph) (token : Token) : Option Context := do
  let ctx ← ctx.offerKey? start
  some ({ ctx with inner := none :: ctx.inner, canStartKey := true }.add token)

/-- After a closing bracket. -/
def closeBracket? (ctx : Context) (token : Token) : Option Context := do
  let ctx ← ctx.dropKey?
  some ({ ctx with inner := ctx.inner.drop 1, canStartKey := false }.add token)

/-- After a sign that can start a table or list on lines, for which `token` is the
start. -/
def startEntry? (ctx : Context) (start : Glyph) (token : Token) : Option Context :=
  if ctx.inBrackets then some ctx
  else if ctx.canStartKey then some (ctx.openBlock start.column token ctx.tokens.size)
  else none

/-- After the dash in front of an item. -/
def addItem? (ctx : Context) (start : Glyph) : Option Context := do
  let ctx ← ctx.startEntry? start .blockList
  let ctx ← ctx.dropKey?
  some ((ctx.startKeys true).add .item)

/-- After the question mark in front of a key. -/
def addKey? (ctx : Context) (start : Glyph) : Option Context := do
  let ctx ← ctx.startEntry? start .blockTable
  let ctx ← ctx.dropKey?
  some ((ctx.startKeys (!ctx.inBrackets)).add .key)

/-- After the colon in front of a value. -/
def addValue? (ctx : Context) (start : Glyph) : Option Context :=
  match ctx.candidate? with
  | some candidate =>
      let ctx := ctx.addAt candidate.index .key
      let ctx := ctx.openBlock candidate.start.column .blockTable candidate.index
      some (((ctx.setCandidate none).startKeys false).add .value)
  | none => do
      let ctx ← ctx.startEntry? start .blockTable
      some ((ctx.startKeys (!ctx.inBrackets)).add .value)

end Context

/-! ## §5. Reading. -/

/-- What follows blanks, comments and the ends of lines, and whether a key can start
there.  A tab is no blank where a key can start on lines. -/
def skipGap (inBrackets : Bool) :
    (inComment canStartKey : Bool) → List Glyph → Bool × List Glyph
  | _, canStartKey, [] => (canStartKey, [])
  | inComment, canStartKey, g :: gs =>
      if isBreak g.char then skipGap inBrackets false (canStartKey || !inBrackets) gs
      else if inComment || g.char == ' '
          || (inBrackets || !canStartKey) && g.char == '\t' then
        skipGap inBrackets inComment canStartKey gs
      else if g.char == '#' then skipGap inBrackets true canStartKey gs
      else (canStartKey, g :: gs)

/-- The token of a document's start or end, where the row starts with one. -/
def documentMarker? (gs : List Glyph) : Option Token :=
  if startsMarker '-' gs then some .documentStart
  else if startsMarker '.' gs then some .documentEnd
  else none

/-- A scalar that a key can be. -/
def addScalar? (ctx : Context) (start : Glyph) (token : String → Token)
    (read? : Option (List Char × List Glyph)) : Option (Context × List Glyph) := do
  let ctx ← ctx.offerKey? start
  let (text, rest) ← read?
  some ((ctx.startKeys false).add (token (String.ofList text)), rest)

/-- A plain scalar.  A key can start after it if the gap after it ends its line. -/
def addPlain? (ctx : Context) (start : Glyph) (gs : List Glyph) :
    Option (Context × List Glyph) := do
  let ctx ← ctx.offerKey? start
  let (text, gap, rest) ← plainRun? ctx.inBrackets ctx.depth .none gs
  some ((ctx.startKeys gap.hasBreak).add (.plain (String.ofList text)), rest)

/-- A scalar on lines of its own. -/
def addBlock? (ctx : Context) (isFolded : Bool) (gs : List Glyph) :
    Option (Context × List Glyph) := do
  let ctx ← ctx.dropKey?
  let (text, rest) ← blockScalar? isFolded ctx.depth gs
  some ((ctx.startKeys true).add (.text (String.ofList text)), rest)

/-- What stands in front of a value and can belong to a key. -/
def addProperty? {α : Type} (ctx : Context) (start : Glyph) (token : α → Token)
    (read? : Option (α × List Glyph)) : Option (Context × List Glyph) := do
  let ctx ← ctx.offerKey? start
  let (property, rest) ← read?
  some ((ctx.startKeys false).add (token property), rest)

/-- The sign or scalar that starts with `start`, which `rest` follows. -/
def addToken? (ctx : Context) (start : Glyph) (rest : List Glyph) :
    Option (Context × List Glyph) :=
  let onLines := !ctx.inBrackets
  match start.char with
  | '[' => (ctx.openBracket? start .flowList).map (·, rest)
  | '{' => (ctx.openBracket? start .flowTable).map (·, rest)
  | ']' => (ctx.closeBracket? .flowListEnd).map (·, rest)
  | '}' => (ctx.closeBracket? .flowTableEnd).map (·, rest)
  | ',' => ctx.dropKey?.map fun ctx => ((ctx.startKeys true).add .comma, rest)
  | '*' => addProperty? ctx start .named (valueName? rest)
  | '&' => addProperty? ctx start .name (valueName? rest)
  | '!' => addProperty? ctx start .tag (tagHandle? ctx.inBrackets rest)
  | '\'' => addScalar? ctx start .text (singleQuoted? false .none rest)
  | '"' => addScalar? ctx start .text (doubleQuoted? .words .none rest)
  | c =>
      if c == '-' && endsOrGap rest then (ctx.addItem? start).map (·, rest)
      else if c == '?' && (ctx.inBrackets || endsOrGap rest) then
        (ctx.addKey? start).map (·, rest)
      else if c == ':' && (ctx.inBrackets || endsOrGap rest) then
        (ctx.addValue? start).map (·, rest)
      else if c == '|' && onLines then addBlock? ctx false rest
      else if c == '>' && onLines then addBlock? ctx true rest
      else if startsPlain ctx.inBrackets (start :: rest) then addPlain? ctx start (start :: rest)
      else none

/-- The tokens of a row.  `fuel` bounds their number. -/
def tokensFrom? : (fuel : Nat) → Context → List Glyph → Option (Array Token)
  | 0, _, _ => none
  | fuel + 1, ctx, gs =>
      match skipGap ctx.inBrackets false ctx.canStartKey gs with
      | (_, []) => ctx.finish?.map Context.tokens
      | (canStartKey, start :: rest) => do
          let ctx ← (ctx.startKeys canStartKey).dropStale? start
          let ctx := ctx.closeBlocks (some start.column)
          let (ctx, rest) ←
            if start.column == 0 && start.char == '%' then do
              let ctx ← ctx.finish?
              let (line, rest) ← directive? rest
              some ((ctx.startKeys false).add (.directive line), rest)
            else match documentMarker? (start :: rest) with
              | some token => do
                  let ctx ← ctx.finish?
                  some ((ctx.startKeys false).add token, rest.drop 2)
              | none => addToken? ctx start rest
          tokensFrom? fuel ctx rest

/-- The tokens of a document. -/
def tokensOf? (cs : List Char) : Option (List Token) :=
  if cs.all isAllowed then
    let gs := glyphsOf cs
    (tokensFrom? (gs.length + 1) {} gs).map Array.toList
  else none

end MessageCatalog.Yaml
