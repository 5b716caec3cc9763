/-
  MessageCatalog.Catalog.Dictionary
  ────────────────────────────────
  **THE MESSAGES OF ONE LANGUAGE.**

  A dictionary is merged from the catalogs of several sources.  A message that
  comes again replaces the earlier one in its place, and then belongs to the
  later source; the headers are kept apart, one for each source.  Every entry
  stands under its own key.
-/
import MessageCatalog.Catalog.Entry
import MessageCatalog.Catalog.Metadata

namespace MessageCatalog

/-! ## §1. Catalogs. -/

/-- What one source file holds. -/
structure Catalog where
  source : String
  entries : List Entry
  metadata : Option Metadata
  deriving DecidableEq

/-! ## §2. Dictionaries. -/

/-- The merged messages of a language, and the headers of its sources. -/
structure Dictionary where
  entries : OrderedMap String Entry
  metadata : OrderedMap String Metadata
  keyed : ∀ pair ∈ entries.pairs, pair.2.key = pair.1
  deriving DecidableEq

namespace Dictionary

/-- The dictionary without messages. -/
def empty : Dictionary :=
  ⟨.empty, .empty, by simp [OrderedMap.empty]⟩

instance : Inhabited Dictionary :=
  ⟨empty⟩

theorem mem_pairs_insert {κ υ : Type} [DecidableEq κ] {key : κ} {value : υ}
    {pairs : List (κ × υ)} {pair : κ × υ} (h : pair ∈ Pairs.insert key value pairs) :
    pair = (key, value) ∨ pair ∈ pairs := by
  induction pairs with
  | nil => exact Or.inl (by simpa [Pairs.insert] using h)
  | cons first rest ih =>
      unfold Pairs.insert at h
      split at h
      · rcases List.mem_cons.1 h with h | h
        · exact Or.inl h
        · exact Or.inr (List.mem_cons_of_mem _ h)
      · rcases List.mem_cons.1 h with h | h
        · exact Or.inr (by simp [h])
        · exact (ih h).imp_right (List.mem_cons_of_mem _)

/-- The dictionary with an entry under its key. -/
def insert (d : Dictionary) (e : Entry) : Dictionary where
  entries := d.entries.insert e.key e
  metadata := d.metadata
  keyed pair h := by
    rcases mem_pairs_insert h with rfl | h
    · rfl
    · exact d.keyed pair h

/-- The dictionary with the header of a source added to what it has of it. -/
def mergeMetadata (d : Dictionary) (source : String) (m : Metadata) : Dictionary :=
  { d with metadata := d.metadata.insert source (((d.metadata.get? source).getD .empty).merge m) }

/-- The dictionary with a catalog laid over it. -/
def merge (d : Dictionary) (c : Catalog) : Dictionary :=
  let headed := match c.metadata with
    | some m => d.mergeMetadata c.source m
    | none => d
  c.entries.foldl insert headed

/-- The entry under a key. -/
def get? (d : Dictionary) (key : String) : Option Entry :=
  d.entries.get? key

/-- Whether there is an entry under a key. -/
def contains (d : Dictionary) (key : String) : Bool :=
  d.entries.contains key

/-- All entries, in the order in which their keys came first. -/
def toList (d : Dictionary) : List Entry :=
  d.entries.values

/-- The entries of one source, in the same order. -/
def entriesFor (d : Dictionary) (source : String) : List Entry :=
  d.toList.filter fun e => e.source == source

/-- The entries of one source, ordered by the bytes of their keys. -/
def sortedEntriesFor (d : Dictionary) (source : String) : List Entry :=
  (d.entriesFor source).mergeSort Entry.keyLE

/-- The header of one source. -/
def metadataOf? (d : Dictionary) (source : String) : Option Metadata :=
  d.metadata.get? source

/-- The number of entries. -/
def size (d : Dictionary) : Nat :=
  d.entries.size

/-- Whether there is no entry. -/
def isEmpty (d : Dictionary) : Bool :=
  d.entries.isEmpty

end Dictionary

end MessageCatalog
