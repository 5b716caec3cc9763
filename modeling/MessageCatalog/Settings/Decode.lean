/-
  MessageCatalog.Settings.Decode
  ────────────────────────────────
  **SETTINGS FROM A DOCUMENT.**

  A document gives the settings that it has fields for; the rest keep their
  usual values, and fields with other names are ignored.  A field given twice,
  or with a value of another kind, makes the document unreadable, but of two
  sources with one identifier the later is taken.
-/
import MessageCatalog.Document.Tree
import MessageCatalog.Settings.Basic

namespace MessageCatalog

/-! ## §1. The parts. -/

/-- The settings for logging. -/
def LogSettings.ofTree? (tree : Tree) : Option LogSettings := do
  let usual : LogSettings := {}
  let fields ← tree.record? ["level", "json"]
  let level ← Tree.field? fields "level" Tree.asText? usual.level
  let json ← Tree.field? fields "json" Tree.asTruth? usual.json
  some ⟨level, json⟩

/-- The lifetime of a cached dictionary. -/
def expiryOfTree? (tree : Tree) : Option Nat := do
  let fields ← tree.record? ["expire_seconds"]
  Tree.field? fields "expire_seconds" Tree.asCount? Translator.defaultExpire

/-- The sources. -/
def sourcesOfTree? (tree : Tree) : Option (OrderedMap String String) := do
  let fields ← tree.fields?
  let sources ← fields.mapM fun (identifier, dir) => dir.asText?.map fun dir => (identifier, dir)
  some (.ofList sources)

/-! ## §2. The whole. -/

/-- The settings that a document gives. -/
def Settings.ofTree? (tree : Tree) : Option Settings := do
  let usual : Settings := {}
  let fields ← tree.fields?
  let lang ← Tree.field? fields "lang" Tree.asText? usual.lang
  let sources ← Tree.field? fields "files" sourcesOfTree? usual.sources
  let productionMode ← Tree.field? fields "production_mode" Tree.asTruth? usual.productionMode
  let ns ← Tree.field? fields "namespace" Tree.asText? usual.ns
  let expireSeconds ← Tree.field? fields "cache" expiryOfTree? usual.expireSeconds
  let log ← Tree.field? fields "logging" LogSettings.ofTree? usual.log
  some { lang, sources, productionMode, ns, expireSeconds, log }

end MessageCatalog
