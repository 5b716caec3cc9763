/-
  MessageCatalog.Translator.Basic
  ────────────────────────────────
  **TRANSLATORS.**

  A translator has sources, each an identifier and a directory, and one active
  language, whose dictionary it loads when it is first needed.  Files, session
  and cache are outside of it and shared with others; they make up the
  workspace, and an operation takes the workspace and gives it back.  What an
  operation has done before it fails stays done.
-/
import MessageCatalog.Cache.Manager
import MessageCatalog.Session.Tracker

namespace MessageCatalog

open MessageCatalog.Text

/-! ## §1. The workspace. -/

/-- What translators share. -/
structure Workspace where
  files : FileSystem
  session : SessionStore
  cache : CacheStore
  /-- The second it is, by which lifetimes in the cache are counted. -/
  clock : Nat

/-- No files, an empty session and an empty cache. -/
def Workspace.empty : Workspace :=
  ⟨.empty, .empty, .empty, 0⟩

instance : Inhabited Workspace :=
  ⟨.empty⟩

/-- A time as exports are stamped and files are dated with it. -/
structure Moment where
  stamp : Timestamp
  /-- Seconds since 1970. -/
  seconds : Int
  deriving DecidableEq, Repr

/-! ## §2. Translators. -/

/-- A translator. -/
structure Translator where
  /-- The directories of the sources under their identifiers, in the order in
  which they were registered. -/
  sources : OrderedMap String String
  lang : Option String
  dictionary : Dictionary
  /-- Whether the dictionary is that of the active language. -/
  loaded : Bool
  /-- Whether the cache is used. -/
  productionMode : Bool
  tracker : Tracker
  cache : CacheManager
  deriving DecidableEq

namespace Translator

/-- The lifetime of a cached dictionary when none is given: two hours. -/
def defaultExpire : Nat := 7200

/-- The namespace when none is given. -/
def defaultNamespace : String := "GettextTranslator-Gettext"

/-- A translator without sources and without a language. -/
def new (ns : String) (expire : Nat) (hasSession responseSent : Bool) : Translator where
  sources := .empty
  lang := none
  dictionary := .empty
  loaded := false
  productionMode := false
  tracker := ⟨ns, hasSession, responseSent⟩
  cache := ⟨ns, expire⟩

/-- A translator with the usual namespace and lifetime. -/
def withDefaults (hasSession responseSent : Bool) : Translator :=
  new defaultNamespace defaultExpire hasSession responseSent

/-- The translator with one more source, unless its identifier is taken or its
directory does not exist. -/
def addSource (t : Translator) (fs : FileSystem) (dir identifier : String) :
    Except CatalogError Translator :=
  if t.sources.contains identifier then .error (.duplicateIdentifier identifier)
  else if !fs.isDirectory dir then .error (.missingDirectory dir)
  else .ok { t with sources := t.sources.insert identifier dir }

/-- The active language. -/
def language (t : Translator) : Except CatalogError String :=
  match t.lang with
  | some lang => if lang.isEmpty then .error .undefinedLanguage else .ok lang
  | none => .error .undefinedLanguage

/-- The translator with another language and nothing loaded; the same one if it
is the active language already. -/
def setLang (t : Translator) (lang : String) : Except CatalogError Translator :=
  if isBlank lang then .error .emptyLanguage
  else if t.lang = some lang then .ok t
  else .ok { t with lang := some lang, dictionary := .empty, loaded := false }

/-- The translator with the cache in use or not. -/
def setProductionMode (t : Translator) (on : Bool) : Translator :=
  { t with productionMode := on }

/-- The translator with the dictionary of its language. -/
def withDictionary (t : Translator) (d : Dictionary) : Translator :=
  { t with dictionary := d, loaded := true }

/-! ## §3. Outcomes. -/

/-- What comes of an operation: its answer or its fault, and what the translator
and the workspace are after it. -/
structure Outcome (α : Type) where
  result : Except CatalogError α
  translator : Translator
  workspace : Workspace

/-- Goes on with the answer; a fault ends it. -/
def Outcome.andThen {α β : Type} (o : Outcome α)
    (next : α → Translator → Workspace → Outcome β) : Outcome β :=
  match o.result with
  | .ok a => next a o.translator o.workspace
  | .error e => ⟨.error e, o.translator, o.workspace⟩

theorem Outcome.andThen_ok {α β : Type} (a : α) (t : Translator) (w : Workspace)
    (next : α → Translator → Workspace → Outcome β) :
    Outcome.andThen ⟨.ok a, t, w⟩ next = next a t w := rfl

/-- An outcome that changes nothing. -/
def answer {α : Type} (t : Translator) (w : Workspace) (result : Except CatalogError α) :
    Outcome α :=
  ⟨result, t, w⟩

end Translator

end MessageCatalog
