/-
  MessageCatalog.Translator.Editing
  ────────────────────────────────
  **EDITING THE DICTIONARY.**

  A translation is set in the loaded dictionary; it reaches the files when its
  source is saved.  A message that is pending takes over the forms it was
  recorded with.  The tables of strings show what is pending and what is
  translated: for one source, or for all of them side by side.
-/
import MessageCatalog.Translator.Lookup

namespace MessageCatalog.Translator

open MessageCatalog.Text

/-! ## §1. Setting translations. -/

/-- Sets the translation of a message in a source. -/
def setTranslation (t : Translator) (w : Workspace) (message : String)
    (translation : List String) (source : String) : Outcome Unit :=
  (t.ensureLoaded w).andThen fun _ t w =>
    match t.language with
    | .error e => t.answer w (.error e)
    | .ok lang =>
        match t.tracker.get w.session lang message with
        | .error e => t.answer w (.error e)
        | .ok forms =>
            let e : Entry := ⟨forms.getD [message], translation, source⟩
            { t with dictionary := t.dictionary.insert e }.answer w (.ok ())

/-- The number of plural forms that the first source declares, 1 if it does not. -/
def variantsCount (t : Translator) (w : Workspace) : Outcome Nat :=
  (t.ensureLoaded w).andThen fun _ t w =>
    let declared := do
      let first ← t.sources.keys.head?
      let header ← t.formula? first
      Plural.declaredCount? header
    t.answer w (.ok (declared.getD 1))

/-! ## §2. Tables of strings. -/

/-- Originals with their translations, or without any while they are pending. -/
abbrev StringTable := OrderedMap String (Option (List String))

/-- The pending originals, none of them translated. -/
def pendingTable (pending : PendingStrings) : StringTable :=
  .ofList (pending.keys.map fun original => (original, none))

/-- The entries that a table shows: those whose key is not blank. -/
def shownEntries (d : Dictionary) : List Entry :=
  d.toList.filter fun e => !isBlank e.key

/-- The table with the translations of an entry. -/
def addEntry (table : StringTable) (e : Entry) : StringTable :=
  table.insert e.key (some e.translation)

/-- The pending messages of the active language, once the dictionary is loaded. -/
def activePending (t : Translator) (w : Workspace) : Outcome PendingStrings :=
  (t.ensureLoaded w).andThen fun _ t w =>
    match t.language with
    | .error e => t.answer w (.error e)
    | .ok lang => t.answer w (t.tracker.pending w.session lang)

/-- What is pending, and what one source has translated. -/
def stringsOf (t : Translator) (w : Workspace) (source : String) : Outcome StringTable :=
  (t.activePending w).andThen fun pending t w =>
    let own := (shownEntries t.dictionary).filter fun e => e.source == source
    t.answer w (.ok (own.foldl addEntry (pendingTable pending)))

/-- Tables under their names. -/
abbrev GroupedTables := OrderedMap String StringTable

/-- The tables with a table of the given name, empty if it is new. -/
def addGroup (tables : GroupedTables) (name : String) : GroupedTables :=
  if tables.contains name then tables else tables.insert name .empty

/-- The tables with an entry in the one of its source. -/
def addToGroup (tables : GroupedTables) (e : Entry) : GroupedTables :=
  tables.insert e.source (addEntry ((tables.get? e.source).getD .empty) e)

/-- What is pending, under a name of its own, and what each source has translated. -/
def groupedStrings (t : Translator) (w : Workspace) : Outcome GroupedTables :=
  (t.activePending w).andThen fun pending t w =>
    let start := (OrderedMap.empty : GroupedTables).insert newStringsKey (pendingTable pending)
    let grouped := t.sources.keys.foldl addGroup start
    t.answer w (.ok ((shownEntries t.dictionary).foldl addToGroup grouped))

end MessageCatalog.Translator
