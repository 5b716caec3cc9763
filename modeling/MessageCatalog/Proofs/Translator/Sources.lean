/-
  MessageCatalog.Proofs.Translator.Sources
  ────────────────────────────────
  **WHAT THE FILES OF THE SOURCES HOLD.**

  Loading depends on the file system only through the contents at the paths of the
  sources.  It succeeds exactly when none of these files is something else than a
  catalog, and the dictionary is then the merge of the catalogs that there are
  (`mergeSources_eq_ok_iff`): a message has the entry of the last source that has one
  (`get?_dictionaryIn`), a source the header of its own file
  (`metadataOf?_dictionaryIn`).
-/
import MessageCatalog.Proofs.Catalog.Merging
import MessageCatalog.Proofs.Files.CatalogFile
import MessageCatalog.Proofs.Mo.Rewriting
import MessageCatalog.Translator.Loading

namespace MessageCatalog.Translator

/-! ## §1. The catalog of one source. -/

/-- The path of a source's catalog file. -/
def pathOf (lang : String) (source : String × String) : String :=
  Path.catalogFile source.2 lang source.1

section Files

variable (fs : FileSystem) (lang : String)

/-- The catalog of a source, if it has a file and this is a catalog. -/
def catalogIn? (source : String × String) : Option Catalog :=
  (fs.content? (pathOf lang source)).bind fun bytes => (Catalog.ofBytes bytes source.1).toOption

/-- A source is readable if it has no file or a catalog. -/
def Readable (source : String × String) : Prop :=
  ∀ bytes, fs.content? (pathOf lang source) = some bytes →
    ∃ c, Catalog.ofBytes bytes source.1 = .ok c

/-- The dictionary that the catalogs of all sources make together. -/
def dictionaryIn (sources : OrderedMap String String) : Dictionary :=
  (sources.pairs.filterMap (catalogIn? fs lang)).foldl Dictionary.merge .empty

/-- The catalog files that there are. -/
def filesIn (sources : OrderedMap String String) : List String :=
  (sources.pairs.map (pathOf lang)).filter fun path => (fs.content? path).isSome

/-- What the catalog of one source has for a message. -/
def entryIn? (key : String) (source : String × String) : Option Entry :=
  (catalogIn? fs lang source).bind fun c => lastUnder? key c.entries

end Files

variable {fs : FileSystem} {lang : String} {source : String × String}

theorem catalogIn?_eq_some_iff {c : Catalog} :
    catalogIn? fs lang source = some c
      ↔ ∃ bytes, fs.content? (pathOf lang source) = some bytes
          ∧ Catalog.ofBytes bytes source.1 = .ok c := by
  unfold catalogIn?
  rw [Option.bind_eq_some_iff]
  refine exists_congr fun bytes => and_congr_right fun _ => ?_
  cases Catalog.ofBytes bytes source.1 <;> simp [Except.toOption]

/-- A catalog has the records of its file that are messages, all of its source. -/
theorem of_ofBytes {bytes : Text.Bytes} {id : String} {c : Catalog}
    (h : Catalog.ofBytes bytes id = .ok c) :
    c.source = id ∧ ∀ e ∈ c.entries, ∃ r : Mo.Record, r.isMessage = true ∧ e = r.toEntry id := by
  unfold Catalog.ofBytes at h
  rw [mapError_eq_ok_iff] at h
  unfold Mo.parse at h
  rw [bind_eq_ok_iff] at h
  obtain ⟨records, -, hcatalog⟩ := h
  cases hcatalog
  refine ⟨rfl, ?_⟩
  intro e he
  obtain ⟨r, hr, rfl⟩ := List.mem_map.1 he
  exact ⟨r, (List.mem_filter.1 hr).2, rfl⟩

/-- The entries of a source carry its name and can be written again. -/
theorem of_entryIn? {key : String} {e : Entry} (h : entryIn? fs lang key source = some e) :
    e.key = key ∧ e.source = source.1 ∧ Mo.Storable e.written := by
  unfold entryIn? at h
  rw [Option.bind_eq_some_iff] at h
  obtain ⟨c, hc, hlast⟩ := h
  obtain ⟨bytes, -, hbytes⟩ := catalogIn?_eq_some_iff.1 hc
  obtain ⟨hmem, hkey⟩ := mem_of_lastUnder? hlast
  obtain ⟨r, hmessage, rfl⟩ := (of_ofBytes hbytes).2 e hmem
  exact ⟨hkey, rfl, Mo.storable_written_toEntry hmessage source.1⟩

/-! ## §2. The merge of all sources. -/

/-- One step of loading: the source is readable, and what it has is added. -/
theorem mergeSource_eq_ok_iff {merged merged' : Merged} :
    mergeSource fs lang merged source = .ok merged'
      ↔ Readable fs lang source
        ∧ merged' = ((catalogIn? fs lang source).toList.foldl Dictionary.merge merged.1,
            merged.2 ++ [pathOf lang source].filter fun path => (fs.content? path).isSome) := by
  unfold mergeSource
  simp only
  rw [show Path.catalogFile source.2 lang source.1 = pathOf lang source from rfl,
    FileSystem.isFile_eq]
  cases hcontent : fs.content? (pathOf lang source) with
  | none =>
      have hreadable : Readable fs lang source := by
        intro bytes hbytes
        rw [hcontent] at hbytes
        cases hbytes
      have hnone : catalogIn? fs lang source = none := by
        unfold catalogIn?
        rw [hcontent]
        rfl
      simp only [Option.isSome_none, hnone]
      simp [hcontent, hreadable, eq_comm (a := merged)]
  | some bytes =>
      have hread : readCatalog fs (pathOf lang source) source.1
          = (Catalog.ofBytes bytes source.1).mapError (.withPath (pathOf lang source)) := by
        unfold readCatalog
        rw [FileSystem.read_of_content? hcontent]
      simp only [Option.isSome_some, if_true, hread, bind_eq_ok_iff, mapError_eq_ok_iff]
      constructor
      · rintro ⟨c, hc, heq⟩
        cases heq
        have hsome : catalogIn? fs lang source = some c :=
          catalogIn?_eq_some_iff.2 ⟨bytes, hcontent, hc⟩
        refine ⟨?_, ?_⟩
        · intro bytes' hbytes'
          rw [hcontent, Option.some.injEq] at hbytes'
          subst hbytes'
          exact ⟨c, hc⟩
        · rw [hsome]
          simp [hcontent]
      · rintro ⟨hreadable, rfl⟩
        obtain ⟨c, hc⟩ := hreadable bytes hcontent
        have hsome : catalogIn? fs lang source = some c :=
          catalogIn?_eq_some_iff.2 ⟨bytes, hcontent, hc⟩
        refine ⟨c, hc, ?_⟩
        rw [hsome]
        simp [hcontent]

theorem foldlM_mergeSource_eq_ok_iff {sources : List (String × String)} {merged merged' : Merged} :
    sources.foldlM (mergeSource fs lang) merged = .ok merged'
      ↔ (∀ source ∈ sources, Readable fs lang source)
        ∧ merged' = ((sources.filterMap (catalogIn? fs lang)).foldl Dictionary.merge merged.1,
            merged.2 ++ (sources.map (pathOf lang)).filter fun path =>
              (fs.content? path).isSome) := by
  induction sources generalizing merged with
  | nil =>
      rw [List.foldlM_nil]
      constructor
      · intro h
        cases h
        exact ⟨by simp, by simp⟩
      · rintro ⟨-, rfl⟩
        simp [pure, Except.pure]
  | cons source sources ih =>
      have hcatalogs : (source :: sources).filterMap (catalogIn? fs lang)
          = (catalogIn? fs lang source).toList ++ sources.filterMap (catalogIn? fs lang) := by
        rw [List.filterMap_cons]
        cases catalogIn? fs lang source <;> rfl
      have hpaths : ((source :: sources).map (pathOf lang)).filter
            (fun path => (fs.content? path).isSome)
          = [pathOf lang source].filter (fun path => (fs.content? path).isSome)
            ++ (sources.map (pathOf lang)).filter fun path => (fs.content? path).isSome := by
        rw [List.map_cons, ← List.filter_append]
        rfl
      rw [List.foldlM_cons, bind_eq_ok_iff, List.forall_mem_cons, hcatalogs, hpaths,
        List.foldl_append, ← List.append_assoc]
      constructor
      · rintro ⟨next, hnext, hrest⟩
        obtain ⟨hreadable, rfl⟩ := mergeSource_eq_ok_iff.1 hnext
        obtain ⟨hreadables, rfl⟩ := ih.1 hrest
        exact ⟨⟨hreadable, hreadables⟩, rfl⟩
      · rintro ⟨⟨hreadable, hreadables⟩, rfl⟩
        exact ⟨_, mergeSource_eq_ok_iff.2 ⟨hreadable, rfl⟩, ih.2 ⟨hreadables, rfl⟩⟩

/-- **Loading succeeds exactly when all sources are readable**, and gives the merge of
their catalogs. -/
theorem mergeSources_eq_ok_iff {t : Translator} {merged : Merged} :
    t.mergeSources fs lang = .ok merged
      ↔ (∀ source ∈ t.sources.pairs, Readable fs lang source)
        ∧ merged = (dictionaryIn fs lang t.sources, filesIn fs lang t.sources) := by
  unfold mergeSources
  rw [foldlM_mergeSource_eq_ok_iff]
  rfl

theorem readable_of_isOk {t : Translator} (h : (t.mergeSources fs lang).isOk = true) :
    ∀ source ∈ t.sources.pairs, Readable fs lang source := by
  cases hmerge : t.mergeSources fs lang with
  | error fault => rw [hmerge] at h; cases h
  | ok merged => exact (mergeSources_eq_ok_iff.1 hmerge).1

/-! ## §3. What it depends on. -/

section Congruence

variable {fs' : FileSystem}

theorem catalogIn?_congr
    (h : fs'.content? (pathOf lang source) = fs.content? (pathOf lang source)) :
    catalogIn? fs' lang source = catalogIn? fs lang source := by
  unfold catalogIn?
  rw [h]

theorem readable_congr
    (h : fs'.content? (pathOf lang source) = fs.content? (pathOf lang source)) :
    Readable fs' lang source ↔ Readable fs lang source := by
  unfold Readable
  rw [h]

/-- **Only the contents of the catalog files count.** -/
theorem dictionaryIn_congr {sources : OrderedMap String String}
    (h : ∀ source ∈ sources.pairs,
      fs'.content? (pathOf lang source) = fs.content? (pathOf lang source)) :
    dictionaryIn fs' lang sources = dictionaryIn fs lang sources := by
  unfold dictionaryIn
  rw [List.filterMap_congr fun source hsource => catalogIn?_congr (h source hsource)]

end Congruence

theorem mem_filesIn_iff {sources : OrderedMap String String} (h : source ∈ sources.pairs) :
    pathOf lang source ∈ filesIn fs lang sources
      ↔ (fs.content? (pathOf lang source)).isSome = true := by
  unfold filesIn
  rw [List.mem_filter]
  exact and_iff_right (List.mem_map_of_mem h)

/-! ## §4. What is in the merge. -/

/-- **The last source that has a message decides.** -/
theorem get?_dictionaryIn (sources : OrderedMap String String) (key : String) :
    (dictionaryIn fs lang sources).get? key
      = sources.pairs.reverse.findSome? (entryIn? fs lang key) := by
  have hempty : (Dictionary.empty).get? key = none := rfl
  unfold dictionaryIn
  rw [Dictionary.get?_foldl_merge, hempty, Option.or_none, ← List.filterMap_reverse,
    ← List.head?_filterMap, List.filterMap_filterMap, List.head?_filterMap]
  rfl

theorem of_get?_dictionaryIn {sources : OrderedMap String String} {key : String} {e : Entry}
    (h : (dictionaryIn fs lang sources).get? key = some e) :
    ∃ source ∈ sources.pairs, e.source = source.1 ∧ entryIn? fs lang key source = some e := by
  rw [get?_dictionaryIn] at h
  obtain ⟨source, hmem, hentry⟩ := List.exists_of_findSome?_eq_some h
  exact ⟨source, List.mem_reverse.1 hmem, (of_entryIn? hentry).2.1, hentry⟩

theorem storable_of_get?_dictionaryIn {sources : OrderedMap String String} {key : String}
    {e : Entry} (h : (dictionaryIn fs lang sources).get? key = some e) : Mo.Storable e.written := by
  obtain ⟨source, -, -, hentry⟩ := of_get?_dictionaryIn h
  exact (of_entryIn? hentry).2.2

/-- A message is in the merge as soon as one source has it. -/
theorem isSome_get?_dictionaryIn {sources : OrderedMap String String} {key : String} :
    ((dictionaryIn fs lang sources).get? key).isSome
      ↔ ∃ source ∈ sources.pairs, (entryIn? fs lang key source).isSome := by
  rw [get?_dictionaryIn, List.findSome?_isSome_iff]
  simp only [List.mem_reverse]

/-- A catalog of one message. -/
def greeting : Text.Bytes :=
  Mo.image .little [⟨Text.bytesOf "Hello", Text.bytesOf "Ahoj"⟩]

/-- A source in the directory `d`. -/
def oneSource : OrderedMap String String :=
  ⟨[("a", "d")], by decide⟩

/-- The directory `d`, and in it the given files with the times of their changes. -/
def treeOf (files : List (String × Text.Bytes × Int)) : FileSystem :=
  ⟨.ofList (([['d']], .directory) :: files.map fun (name, bytes, time) =>
    ([['d'], name.toList], .file bytes time)), [], 0⟩

/-- A workspace with nothing but files. -/
def startOf (fs : FileSystem) : Workspace :=
  { Workspace.empty with files := fs }

end MessageCatalog.Translator
