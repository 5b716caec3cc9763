/-
  MessageCatalog.Document.Toml.Table
  ────────────────────────────────
  **HOW TABLES GROW.**

  A document adds to its tables in three ways: by a header, by a header of a
  row, and by a key of several parts.  No key is ever set twice, and a table
  that has been written out in one way cannot be added to in another, so each
  table knows how it came to be:

      explicit   it has a header of its own
      implicit   a header of a table within it named it
      dotted     a key of several parts named it
-/
import MessageCatalog.Document.Tree

namespace MessageCatalog.Toml

/-! ## §1. Tables. -/

/-- How a table came to be. -/
inductive Origin where
  | explicit
  | implicit
  | dotted
  deriving DecidableEq, Repr

/-- What a key has. -/
inductive Item where
  | value (tree : Tree)
  | table (origin : Origin) (fields : List (String × Item))
  /-- Tables in a row, the last one first. -/
  | rows (tables : List (List (String × Item)))

/-- The fields of a table. -/
abbrev Fields := List (String × Item)

/-- What a key has, if anything. -/
def Fields.get? (fields : Fields) (key : String) : Option Item :=
  (fields.find? (·.1 == key)).map Prod.snd

/-- The fields with something else for a key that is there. -/
def Fields.replace (fields : Fields) (key : String) (item : Item) : Fields :=
  fields.map fun field => if field.1 = key then (key, item) else field

/-! ## §2. Growing. -/

/-- What can be done to a table of a given origin. -/
abbrev Change := Origin → Fields → Option Fields

/-- A change of the table at the end of a path; tables that are missing on the
way come to be as `origin` says.  A path of a dotted key does not lead through
tables with headers of their own. -/
def Change.along (change : Change) (origin : Origin) : (path : List String) → Change
  | [], here, fields => change here fields
  | key :: path, _, fields =>
      match Fields.get? fields key with
      | none => do
          let inner ← change.along origin path origin []
          some (fields ++ [(key, .table origin inner)])
      | some (.table there inner) =>
          if origin = .dotted ∧ there = .explicit then none
          else do
            let inner ← change.along origin path there inner
            some (Fields.replace fields key (.table there inner))
      | some (.rows (last :: before)) => do
          let last ← change.along origin path .explicit last
          some (Fields.replace fields key (.rows (last :: before)))
      | some _ => none

/-- Sets a key that is not there.  By a dotted key this is only done to a table
that dotted keys have made, and to no such table otherwise. -/
def setting (isDotted : Bool) (key : String) (tree : Tree) : Change := fun here fields =>
  if isDotted = decide (here = .dotted) ∧ (Fields.get? fields key).isNone then
    some (fields ++ [(key, .value tree)])
  else none

/-- Gives a table a header of its own. -/
def opening (key : String) : Change := fun _ fields =>
  match Fields.get? fields key with
  | none => some (fields ++ [(key, .table .explicit [])])
  | some (.table .implicit inner) => some (Fields.replace fields key (.table .explicit inner))
  | some _ => none

/-- Adds a table to a row. -/
def adding (key : String) : Change := fun _ fields =>
  match Fields.get? fields key with
  | none => some (fields ++ [(key, .rows [[]])])
  | some (.rows tables) => some (Fields.replace fields key (.rows ([] :: tables)))
  | some _ => none

/-- A change named by a whole path, of which the last part is the key. -/
def atPath (origin : Origin) (change : String → Change) (path : List String) : Option Change :=
  path.getLast?.map fun key => (change key).along origin path.dropLast

/-- The fields with one more pair. -/
def assign (fields : Fields) (path : List String) (tree : Tree) : Option Fields := do
  let change ← atPath .dotted (fun key => setting (1 < path.length) key tree) path
  change .explicit fields

/-! ## §3. As a tree. -/

mutual

/-- What a key has, as a value. -/
def Item.toTree : Item → Tree
  | .value tree => tree
  | .table _ fields => .table (treeFields fields)
  | .rows tables => .list (treeRows tables).reverse

/-- The fields of a table, as values. -/
def treeFields : List (String × Item) → List (String × Tree)
  | [] => []
  | (key, item) :: fields => (key, item.toTree) :: treeFields fields

/-- Tables in a row, as values. -/
def treeRows : List (List (String × Item)) → List Tree
  | [] => []
  | fields :: rows => .table (treeFields fields) :: treeRows rows

end

end MessageCatalog.Toml
