/-
  MessageCatalog.Translator.Loading
  ────────────────────────────────
  **LOADING THE DICTIONARY OF A LANGUAGE.**

  The catalogs of all sources are merged in the order of registration; a source
  without a file for the language is left out.  If one of the files is no
  catalog, nothing is loaded.  In production mode a dictionary from the cache
  is taken instead if there is a good one, and what was loaded is put there.
-/
import MessageCatalog.Mo.Reader
import MessageCatalog.Translator.Basic

namespace MessageCatalog.Translator

open MessageCatalog.Text

/-! ## §1. From files. -/

/-- Reads one catalog file for a source. -/
def readCatalog (fs : FileSystem) (path source : String) : Except CatalogError Catalog :=
  match fs.read path with
  | .error _ => .error .io
  | .ok bytes => (Catalog.ofBytes bytes source).mapError (.withPath path)

/-- The dictionary made so far, and the files it was made from. -/
abbrev Merged := Dictionary × List String

/-- With the catalog of one more source, if it has a file for the language. -/
def mergeSource (fs : FileSystem) (lang : String) (merged : Merged) (source : String × String) :
    Except CatalogError Merged :=
  let path := Path.catalogFile source.2 lang source.1
  if fs.isFile path then do
    let c ← readCatalog fs path source.1
    .ok (merged.1.merge c, merged.2 ++ [path])
  else .ok merged

/-- The merged catalogs of all sources, and their files. -/
def mergeSources (t : Translator) (fs : FileSystem) (lang : String) :
    Except CatalogError Merged :=
  t.sources.pairs.foldlM (mergeSource fs lang) (Dictionary.empty, [])

/-! ## §2. Through the cache. -/

/-- The dictionary of a language from the files, put into the cache in production
mode. -/
def loadFromFiles (t : Translator) (w : Workspace) (lang : String) :
    Except CatalogError Dictionary × Workspace :=
  match t.mergeSources w.files lang with
  | .error e => (.error e, w)
  | .ok (d, paths) =>
      if t.productionMode then
        (.ok d, { w with cache := t.cache.put w.cache w.files w.clock lang d paths })
      else (.ok d, w)

/-- The dictionary of a language, from the cache or from the files. -/
def load (t : Translator) (w : Workspace) (lang : String) :
    Except CatalogError Dictionary × Workspace :=
  if t.productionMode then
    match t.cache.get w.cache w.files w.clock lang with
    | (some d, c) => (.ok d, { w with cache := c })
    | (none, c) => t.loadFromFiles { w with cache := c } lang
  else t.loadFromFiles w lang

/-- The language to load, if the translator is ready for loading. -/
def languageToLoad (t : Translator) : Except CatalogError String :=
  if t.sources.isEmpty then .error .sourcesUndefined else t.language

/-- Loads the dictionary unless it is loaded. -/
def ensureLoaded (t : Translator) (w : Workspace) : Outcome Unit :=
  if t.loaded then t.answer w (.ok ())
  else
    match t.languageToLoad with
    | .error e => t.answer w (.error e)
    | .ok lang =>
        match t.load w lang with
        | (.error e, w) => t.answer w (.error e)
        | (.ok d, w) => (t.withDictionary d).answer w (.ok ())

/-- The registered sources, once the dictionary is loaded. -/
def listSources (t : Translator) (w : Workspace) : Outcome (List (String × String)) :=
  (t.ensureLoaded w).andThen fun _ t w => t.answer w (.ok t.sources.pairs)

end MessageCatalog.Translator
