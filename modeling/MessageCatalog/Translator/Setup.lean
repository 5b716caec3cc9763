/-
  MessageCatalog.Translator.Setup
  ────────────────────────────────
  **A TRANSLATOR FROM ITS SETTINGS.**

  The language is set first and the sources are registered after it, in their
  order; the first step that fails is the one reported.
-/
import MessageCatalog.Settings.Basic

namespace MessageCatalog.Translator

/-- The translator that settings describe, with a session and an open response. -/
def ofSettings (s : Settings) (fs : FileSystem) : Except CatalogError Translator := do
  let t ← (new s.ns s.expireSeconds true false).setLang s.lang
  s.sources.pairs.foldlM (fun t source => t.addSource fs source.2 source.1)
    (t.setProductionMode s.productionMode)

end MessageCatalog.Translator
