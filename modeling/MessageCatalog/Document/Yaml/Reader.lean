/-
  MessageCatalog.Document.Yaml.Reader
  ────────────────────────────────
  **THE TREE OF A DOCUMENT.**

  The tokens of a document are those of its only value, with what stands in front
  of it and after it.  A value that is left out is a word of no characters.  A
  value with a name can be come back to; one that is not complete there is of a
  kind that no setting has, and so is a list, and a table with a key that is no
  scalar.
-/
import MessageCatalog.Document.Tree
import MessageCatalog.Document.Yaml.Token

namespace MessageCatalog.Yaml

/-! ## §1. What is known about names. -/

/-- What the names of a document stand for. -/
structure Names where
  /-- The handles that a tag can have. -/
  handles : List String
  /-- The values with a name, the last first. -/
  values : List (String × Tree) := []

namespace Names

/-- The value with a name. -/
def find? (names : Names) (name : String) : Option Tree :=
  names.values.lookup name

/-- With a name whose value is still being read. -/
def declare (names : Names) : Option String → Names
  | some name => { names with values := (name, .other) :: names.values }
  | none => names

/-- With the value of a name that was declared after `older` values. -/
def complete (names : Names) (older : Nat) (tree : Tree) : Option String → Names
  | some name =>
      let place := names.values.length - older - 1
      { names with values := names.values.set place (name, tree) }
  | none => names

end Names

/-- A value that is left out. -/
def leftOut : Tree :=
  .plain ""

/-- The table with the given keys and values. -/
def tableOf (entries : List (Tree × Tree)) : Tree :=
  match entries.mapM fun (key, value) => key.asText?.map (·, value) with
  | some fields => .table fields
  | none => .other

/-! ## §2. What stands in front of a value. -/

/-- The name that a value is given, and whether it has a name or a tag.  A name and a
tag can stand in either order; a handle has to be known. -/
structure Properties where
  name : Option String := none
  isGiven : Bool := false

/-- Whether a tag can have a handle. -/
def Names.knows (names : Names) (handle? : Option String) : Bool :=
  handle?.all (names.handles.contains ·)

/-- The name and the tag in front of a value. -/
def properties? (names : Names) (ts : List Token) : Option (Properties × List Token) :=
  let known (handle? : Option String) (found : Properties × List Token) :=
    if names.knows handle? then some found else none
  match ts with
  | .name name :: .tag handle? :: ts => known handle? (⟨some name, true⟩, ts)
  | .name name :: ts => some (⟨some name, true⟩, ts)
  | .tag handle? :: .name name :: ts => known handle? (⟨some name, true⟩, ts)
  | .tag handle? :: ts => known handle? (⟨none, true⟩, ts)
  | ts => some ({}, ts)

/-! ## §3. Values. -/

/-- Where a value stands: on lines, after a key on lines, or in brackets. -/
inductive Position where
  | onLines
  /-- After a key, where a list can be as deep as the key. -/
  | inTable
  | inBrackets
  deriving DecidableEq, Repr

/-- Whether a value is left out in front of a token, or at the end of the row. -/
def isLeftOut (ends : List Token) (ts : List Token) : Bool :=
  ts.head?.all (ends.contains ·)

/-- What has been read, the names known after it and the tokens after it. -/
abbrev Reading (α : Type) := α × Names × List Token

/-- With one more entry in front of those that are read. -/
def consEntry {α : Type} (entry : α) (read? : Option (Reading (List α))) :
    Option (Reading (List α)) :=
  read?.map fun (entries, names, ts) => (entry :: entries, names, ts)

mutual

/-- A value. -/
def valueAt : (fuel : Nat) → Position → Names → List Token → Option (Reading Tree)
  | 0, _, _, _ => none
  | fuel + 1, position, names, ts =>
      match ts with
      | .named name :: ts => (names.find? name).map fun tree => (tree, names, ts)
      | ts => do
          let (properties, ts) ← properties? names ts
          let (tree, after, ts) ← contentAt fuel position (names.declare properties.name)
            properties.isGiven ts
          some (tree, after.complete names.values.length tree properties.name, ts)

/-- What a value is, after its name and its tag; with one of them it can be left out. -/
def contentAt : (fuel : Nat) → Position → Names → (isGiven : Bool) → List Token →
    Option (Reading Tree)
  | 0, _, _, _, _ => none
  | fuel + 1, position, names, isGiven, ts =>
      let list (read? : Option (Reading Unit)) : Option (Reading Tree) :=
        read?.map fun (_, names, ts) => (.other, names, ts)
      let table (read? : Option (Reading (List (Tree × Tree)))) : Option (Reading Tree) :=
        read?.map fun (entries, names, ts) => (tableOf entries, names, ts)
      match ts, position with
      | .plain text :: ts, _ => some (.plain text, names, ts)
      | .text text :: ts, _ => some (.text text, names, ts)
      | .flowList :: ts, _ => list (flowItems fuel true names ts)
      | .flowTable :: ts, _ => table (flowFields fuel true names ts)
      | .item :: ts, .inTable => list (itemsBelowKey fuel names (.item :: ts))
      | .blockList :: ts, .onLines => list (blockItems fuel names ts)
      | .blockList :: ts, .inTable => list (blockItems fuel names ts)
      | .blockTable :: ts, .onLines => table (blockFields fuel names ts)
      | .blockTable :: ts, .inTable => table (blockFields fuel names ts)
      | ts, _ => if isGiven then some (leftOut, names, ts) else none

/-- A value that can be left out in front of the given tokens. -/
def valueBefore : (fuel : Nat) → Position → (ends : List Token) → Names → List Token →
    Option (Reading Tree)
  | 0, _, _, _, _ => none
  | fuel + 1, position, ends, names, ts =>
      match ts with
      | [] => none
      | t :: ts =>
          if ends.contains t then some (leftOut, names, t :: ts)
          else valueAt fuel position names (t :: ts)

/-- The value after a key: one after a colon, or none. -/
def valueOfKey : (fuel : Nat) → Position → (ends : List Token) → Names → List Token →
    Option (Reading Tree)
  | 0, _, _, _, _ => none
  | fuel + 1, position, ends, names, ts =>
      match ts with
      | .value :: ts => valueBefore fuel position ends names ts
      | ts => some (leftOut, names, ts)

/-- The items of a list on lines.  What they are is not kept. -/
def blockItems : (fuel : Nat) → Names → List Token → Option (Reading Unit)
  | 0, _, _ => none
  | fuel + 1, names, ts =>
      match ts with
      | .item :: ts => do
          let (_, names, ts) ← valueBefore fuel .onLines [.item, .blockEnd] names ts
          blockItems fuel names ts
      | .blockEnd :: ts => some ((), names, ts)
      | _ => none

/-- The items of a list that is as deep as the key above it. -/
def itemsBelowKey : (fuel : Nat) → Names → List Token → Option (Reading Unit)
  | 0, _, _ => none
  | fuel + 1, names, ts =>
      match ts with
      | .item :: ts => do
          let (_, names, ts) ←
            valueBefore fuel .onLines [.item, .key, .value, .blockEnd] names ts
          itemsBelowKey fuel names ts
      | ts => some ((), names, ts)

/-- The fields of a table on lines. -/
def blockFields : (fuel : Nat) → Names → List Token → Option (Reading (List (Tree × Tree)))
  | 0, _, _ => none
  | fuel + 1, names, ts =>
      let ends : List Token := [.key, .value, .blockEnd]
      match ts with
      | .key :: ts => do
          let (key, names, ts) ← valueBefore fuel .inTable ends names ts
          let (value, names, ts) ← valueOfKey fuel .inTable ends names ts
          consEntry (key, value) (blockFields fuel names ts)
      | .blockEnd :: ts => some ([], names, ts)
      | _ => none

/-- The items of a list in square brackets.  A key stands for a table of one field. -/
def flowItems : (fuel : Nat) → (isFirst : Bool) → Names → List Token → Option (Reading Unit)
  | 0, _, _, _ => none
  | fuel + 1, isFirst, names, ts =>
      let entry (ts : List Token) : Option (Reading Unit) :=
        match ts with
        | .flowListEnd :: ts => some ((), names, ts)
        | .key :: ts => do
            let ends : List Token := [.value, .comma, .flowListEnd]
            let (names, ts) ←
              if isLeftOut ends ts then some (names, ts.drop 1)
              else (valueAt fuel .inBrackets names ts).map Prod.snd
            let (_, names, ts) ←
              valueOfKey fuel .inBrackets [.comma, .flowListEnd] names ts
            flowItems fuel false names ts
        | ts => do
            let (_, names, ts) ← valueAt fuel .inBrackets names ts
            flowItems fuel false names ts
      match isFirst, ts with
      | true, ts => entry ts
      | false, .flowListEnd :: ts => some ((), names, ts)
      | false, .comma :: ts => entry ts
      | false, _ => none

/-- The fields of a table in braces. -/
def flowFields : (fuel : Nat) → (isFirst : Bool) → Names → List Token →
    Option (Reading (List (Tree × Tree)))
  | 0, _, _, _ => none
  | fuel + 1, isFirst, names, ts =>
      let entry (ts : List Token) : Option (Reading (List (Tree × Tree))) :=
        match ts with
        | .flowTableEnd :: ts => some ([], names, ts)
        | .key :: ts => do
            let (key, names, ts) ←
              valueBefore fuel .inBrackets [.value, .comma, .flowTableEnd] names ts
            let (value, names, ts) ←
              valueOfKey fuel .inBrackets [.comma, .flowTableEnd] names ts
            consEntry (key, value) (flowFields fuel false names ts)
        | ts => do
            let (key, names, ts) ← valueAt fuel .inBrackets names ts
            consEntry (key, leftOut) (flowFields fuel false names ts)
      match isFirst, ts with
      | true, ts => entry ts
      | false, .flowTableEnd :: ts => some ([], names, ts)
      | false, .comma :: ts => entry ts
      | false, _ => none

end

/-! ## §4. Documents. -/

/-- The handles that the lines in front of a document introduce, whether they give a
version, and the tokens after them.  A version can be given once, as 1.1 or 1.2, and
a handle once. -/
def directives? : List Token → Option (List String × Bool × List Token)
  | .directive line :: ts => do
      let (handles, hasVersion, ts) ← directives? ts
      match line with
      | .version major minor =>
          if hasVersion || major ≠ 1 || minor ≠ 1 && minor ≠ 2 then none
          else some (handles, true, ts)
      | .handle name =>
          if handles.contains name then none else some (name :: handles, hasVersion, ts)
  | ts => some ([], false, ts)

/-- The handles that every document has. -/
def commonHandles : List String :=
  ["!", "!!"]

/-- The value of a document and the tokens after it. -/
def root? (fuel : Nat) : List Token → Option (Reading Tree)
  | [] => some (leftOut, { handles := commonHandles }, [])
  | ts => do
      let (handles, _, after) ← directives? ts
      let names : Names := { handles := handles ++ commonHandles }
      match ts, after with
      | _, .documentStart :: ts =>
          match ts with
          | [] => some (leftOut, names, ts)
          | .directive _ :: _ => some (leftOut, names, ts)
          | .documentStart :: _ => some (leftOut, names, ts)
          | .documentEnd :: _ => some (leftOut, names, ts)
          | ts => valueAt fuel .onLines names ts
      | .directive _ :: _, _ => none
      | ts, _ => valueAt fuel .onLines names ts

/-- The tree that a text with one document spells.  Between two tokens no more than five
readers start, one within the other. -/
def read? (cs : List Char) : Option Tree := do
  let ts ← tokensOf? cs
  let (tree, _, rest) ← root? (5 * ts.length + 5) ts
  if rest.all (· == .documentEnd) then some tree else none

end MessageCatalog.Yaml
