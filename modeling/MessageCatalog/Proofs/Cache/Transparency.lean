/-
  MessageCatalog.Proofs.Cache.Transparency
  ────────────────────────────────
  **WHAT A CACHED DICTIONARY IS WORTH.**

  Translators with the same sources share a cache while files come, change and go.
  Whatever has happened, a dictionary in the cache was made from the files of some
  moment, and with it are kept the stamps of the catalog files that there were then
  (`sound_run`).  So one that is still good is what the files would give now
  (`loads_of_cached`), provided that every catalog file that is there now was there when
  it was made: a file that was absent then leaves no stamp, and its coming is not
  noticed.

  That a file cannot change without its stamp is a property of the history
  (`History.telling`).
-/
import MessageCatalog.Proofs.Translator.Loading

namespace MessageCatalog

open MessageCatalog.Translator

/-! ## §1. Reading and writing the cache. -/

namespace CacheStore

variable {c : CacheStore} {fs : FileSystem} {now : Nat} {ns key : String}

/-- What is read is there and still good. -/
theorem fst_read_eq_some_iff {d : Dictionary} :
    (c.read fs now ns key).1 = some d
      ↔ ∃ kept, c.entries.get? (ns, key) = some kept ∧ kept.isValid fs now = true
          ∧ kept.dictionary = d := by
  unfold read dropStale isStale current
  cases h : c.entries.get? (ns, key) with
  | none => simp [h]
  | some kept => cases hvalid : kept.isValid fs now <;> simp [h, hvalid]

/-- Reading adds nothing. -/
theorem get?_of_snd_read {k : String × String} {kept : CachedDictionary}
    (h : (c.read fs now ns key).2.entries.get? k = some kept) :
    c.entries.get? k = some kept := by
  unfold read dropStale at h
  cases hstale : c.isStale fs now ns key with
  | false =>
      rw [hstale] at h
      exact h
  | true =>
      simp only [hstale, if_true, OrderedMap.get?_erase] at h
      split at h
      · cases h
      · exact h

/-- The files on which the dictionary under a key depends. -/
def dependencies (c : CacheStore) (ns key : String) : List String :=
  match c.entries.get? (ns, key) with
  | some kept => kept.files.map Prod.fst
  | none => []

end CacheStore

/-- Languages have different keys. -/
theorem CacheManager.key_injective {lang lang' : String}
    (h : CacheManager.key lang = CacheManager.key lang') : lang = lang' := by
  unfold CacheManager.key at h
  simpa using h

namespace Translator

/-- What loading leaves in the cache was there, or was just made from the files. -/
theorem get?_of_snd_load {t : Translator} {w : Workspace} {lang : String}
    {k : String × String} {kept : CachedDictionary}
    (h : (t.load w lang).2.cache.entries.get? k = some kept) :
    w.cache.entries.get? k = some kept
      ∨ k = (t.cache.ns, CacheManager.key lang)
        ∧ (∀ source ∈ t.sources.pairs, Readable w.files lang source)
        ∧ kept.dictionary = dictionaryIn w.files lang t.sources
        ∧ kept.files = (filesIn w.files lang t.sources).map fun path =>
            (path, w.files.stamp? path) := by
  unfold load at h
  cases hproduction : t.productionMode with
  | false =>
      unfold loadFromFiles at h
      rw [hproduction] at h
      cases hmerge : t.mergeSources w.files lang with
      | error fault => rw [hmerge] at h; exact Or.inl h
      | ok merged => rw [hmerge] at h; exact Or.inl h
  | true =>
      rw [hproduction, if_pos rfl] at h
      have hread := @CacheStore.get?_of_snd_read w.cache w.files w.clock t.cache.ns
        (CacheManager.key lang) k
      unfold CacheManager.get at h
      cases hget : w.cache.read w.files w.clock t.cache.ns (CacheManager.key lang) with
      | mk good c =>
          rw [hget] at h hread
          cases good with
          | some d => exact Or.inl (hread h)
          | none =>
              unfold loadFromFiles at h
              simp only [hproduction, if_true] at h
              cases hmerge : t.mergeSources w.files lang with
              | error fault => rw [hmerge] at h; exact Or.inl (hread h)
              | ok merged =>
                  obtain ⟨hreadable, rfl⟩ := mergeSources_eq_ok_iff.1 hmerge
                  rw [hmerge] at h
                  unfold CacheManager.put CacheStore.write at h
                  simp only [OrderedMap.get?_insert] at h
                  split at h
                  next hkey =>
                    cases h
                    exact Or.inr ⟨hkey.symm, hreadable, rfl, rfl⟩
                  next => exact Or.inl (hread h)

theorem get?_of_snd_ensureLoaded {t : Translator} {w : Workspace} {k : String × String}
    {kept : CachedDictionary}
    (h : (t.ensureLoaded w).workspace.cache.entries.get? k = some kept) :
    w.cache.entries.get? k = some kept
      ∨ ∃ lang, k = (t.cache.ns, CacheManager.key lang)
        ∧ (∀ source ∈ t.sources.pairs, Readable w.files lang source)
        ∧ kept.dictionary = dictionaryIn w.files lang t.sources
        ∧ kept.files = (filesIn w.files lang t.sources).map fun path =>
            (path, w.files.stamp? path) := by
  unfold ensureLoaded at h
  split at h
  next => exact Or.inl h
  next =>
    split at h
    next => exact Or.inl h
    next lang _ =>
      have hload : (t.load w lang).2.cache.entries.get? k = some kept := by
        split at h
        next fault w' hload => rw [hload]; exact h
        next d w' hload => rw [hload]; exact h
      exact (get?_of_snd_load hload).imp_right fun hmade => ⟨lang, hmade⟩

end Translator

/-! ## §2. Histories. -/

/-- What can happen where translators work: the files are others than before, time
passes, and a translator loads. -/
inductive Happening where
  | change (fs : FileSystem)
  | pass (seconds : Nat)
  | load (t : Translator)

namespace Happening

/-- The workspace after something has happened. -/
def apply (w : Workspace) : Happening → Workspace
  | change fs => { w with files := fs }
  | pass seconds => { w with clock := w.clock + seconds }
  | load t => (t.ensureLoaded w).workspace

/-- The workspace after a history. -/
def run (w : Workspace) (history : List Happening) : Workspace :=
  history.foldl apply w

/-- The files after a change. -/
def files? : Happening → Option FileSystem
  | change fs => some fs
  | _ => none

/-- The file systems of a history, from the one it starts with. -/
def seen (w : Workspace) (history : List Happening) : List FileSystem :=
  w.files :: history.filterMap files?

end Happening

open Happening

/-- A history of translators that share their sources and the namespace of the cache. -/
structure History (sources : OrderedMap String String) (ns : String) (w : Workspace)
    (history : List Happening) : Prop where
  /-- Nothing is kept in the namespace at the start. -/
  new : ∀ lang, w.cache.entries.get? (ns, CacheManager.key lang) = none
  sharing : ∀ t, .load t ∈ history → t.sources = sources ∧ t.cache.ns = ns
  /-- What changes at a path gets another stamp than it ever had. -/
  telling : ∀ fs ∈ seen w history, ∀ fs' ∈ seen w history, ∀ path,
    fs'.stamp? path = fs.stamp? path → fs'.content? path = fs.content? path

/-! ## §3. What is kept. -/

/-- A dictionary is kept with what it was made from: the files of a moment that was seen. -/
def Sound (sources : OrderedMap String String) (ns : String) (seen : List FileSystem)
    (w : Workspace) : Prop :=
  ∀ lang kept, w.cache.entries.get? (ns, CacheManager.key lang) = some kept →
    ∃ fs ∈ seen, (∀ source ∈ sources.pairs, Readable fs lang source)
      ∧ kept.dictionary = dictionaryIn fs lang sources
      ∧ kept.files = (filesIn fs lang sources).map fun path => (path, fs.stamp? path)

section Run

variable {sources : OrderedMap String String} {ns : String} {seen : List FileSystem}

/-- Whatever happens, what is kept stays sound. -/
theorem sound_apply {w : Workspace} (happening : Happening) (hw : w.files ∈ seen)
    (hsound : Sound sources ns seen w) (hseen : ∀ fs, happening = change fs → fs ∈ seen)
    (hsharing : ∀ t, happening = .load t → t.sources = sources ∧ t.cache.ns = ns) :
    (apply w happening).files ∈ seen ∧ Sound sources ns seen (apply w happening) := by
  cases happening with
  | change fs => exact ⟨hseen fs rfl, hsound⟩
  | pass seconds => exact ⟨hw, hsound⟩
  | load t =>
      obtain ⟨hsources, hns⟩ := hsharing t rfl
      show (t.ensureLoaded w).workspace.files ∈ seen ∧ Sound _ _ _ (t.ensureLoaded w).workspace
      obtain ⟨c, hc⟩ := (ensureLoaded_cases t w).1
      refine ⟨by rw [hc]; exact hw, ?_⟩
      intro lang kept hkept
      rcases get?_of_snd_ensureLoaded hkept with h | ⟨lang', hkey, hreadable, hd, hfiles⟩
      · exact hsound lang kept h
      · -- the translator has just made it from the files as they are
        have hlang : lang = lang' := CacheManager.key_injective (Prod.ext_iff.1 hkey).2
        subst hlang
        rw [hsources] at hreadable hd hfiles
        exact ⟨w.files, hw, hreadable, hd, hfiles⟩

theorem sound_run {w : Workspace} (history : List Happening) (hw : w.files ∈ seen)
    (hsound : Sound sources ns seen w) (hseen : ∀ fs, change fs ∈ history → fs ∈ seen)
    (hsharing : ∀ t, .load t ∈ history → t.sources = sources ∧ t.cache.ns = ns) :
    (run w history).files ∈ seen ∧ Sound sources ns seen (run w history) := by
  induction history generalizing w with
  | nil => exact ⟨hw, hsound⟩
  | cons happening history ih =>
      obtain ⟨hw', hsound'⟩ := sound_apply happening hw hsound
        (fun fs h => hseen fs (h ▸ List.mem_cons_self))
        (fun t h => hsharing t (h ▸ List.mem_cons_self))
      exact ih hw' hsound' (fun fs h => hseen fs (List.mem_cons_of_mem _ h))
        (fun t h => hsharing t (List.mem_cons_of_mem _ h))

end Run

/-! ## §4. What a good dictionary is. -/

section Kept

variable {kept : CachedDictionary} {fs fs' : FileSystem} {paths : List String}

/-- The stamps of files say the same about their contents. -/
theorem CachedDictionary.content?_of_isUnchanged
    (hfiles : kept.files = paths.map fun path => (path, fs.stamp? path))
    (h : kept.isUnchanged fs' = true)
    (htelling : ∀ path, fs'.stamp? path = fs.stamp? path → fs'.content? path = fs.content? path)
    {path : String} (hpath : path ∈ paths) : fs'.content? path = fs.content? path := by
  unfold isUnchanged at h
  rw [hfiles, List.all_eq_true] at h
  have hstamp := h _ (List.mem_map_of_mem hpath)
  exact htelling path (beq_iff_eq.1 hstamp)

theorem CacheStore.dependencies_of_get? {c : CacheStore} {ns key : String}
    (hkept : c.entries.get? (ns, key) = some kept)
    (hfiles : kept.files = paths.map fun path => (path, fs.stamp? path)) :
    c.dependencies ns key = paths := by
  unfold dependencies
  simp only [hkept, hfiles, List.map_map]
  exact List.map_id paths

end Kept

section Now

variable {sources : OrderedMap String String} {ns : String} {w : Workspace}
variable {history : List Happening} {u : Translator} {lang : String} {d : Dictionary}

/-- A good dictionary was made at some moment, and the files it was made from are as they
were then. -/
theorem exists_moment_of_cached (h : History u.sources u.cache.ns w history)
    (hcached : u.cached? (run w history) lang = some d) :
    ∃ fs, (∀ source ∈ u.sources.pairs, Readable fs lang source)
      ∧ d = dictionaryIn fs lang u.sources
      ∧ (run w history).cache.dependencies u.cache.ns (CacheManager.key lang)
          = filesIn fs lang u.sources
      ∧ ∀ path ∈ filesIn fs lang u.sources,
          (run w history).files.content? path = fs.content? path := by
  have hsound : Sound u.sources u.cache.ns (seen w history) w := by
    intro lang' kept hkept
    rw [h.new] at hkept
    cases hkept
  obtain ⟨hnow, hrun⟩ := sound_run history List.mem_cons_self hsound
    (fun fs hfs => List.mem_cons_of_mem _ (List.mem_filterMap.2 ⟨change fs, hfs, rfl⟩)) h.sharing
  unfold cached? at hcached
  split at hcached
  next =>
    obtain ⟨kept, hkept, hvalid, rfl⟩ := CacheStore.fst_read_eq_some_iff.1 hcached
    obtain ⟨fs, hfs, hreadable, hd, hfiles⟩ := hrun lang kept hkept
    have hunchanged : kept.isUnchanged (run w history).files = true := by
      unfold CachedDictionary.isValid at hvalid
      rw [Bool.and_eq_true] at hvalid
      exact hvalid.2
    exact ⟨fs, hreadable, hd, CacheStore.dependencies_of_get? hkept hfiles,
      fun path => kept.content?_of_isUnchanged hfiles hunchanged (h.telling fs hfs _ hnow)⟩
  next => cases hcached

/-- **A good dictionary in the cache is what the files give now**, if every catalog file
that is there now was there when it was made. -/
theorem loads_of_cached (h : History sources ns w history)
    (hu : u.sources = sources ∧ u.cache.ns = ns) (hunloaded : u.loaded = false)
    (hlang : u.languageToLoad = .ok lang) (hcached : u.cached? (run w history) lang = some d)
    (hcovered : ∀ path ∈ filesIn (run w history).files lang sources,
      path ∈ (run w history).cache.dependencies ns (CacheManager.key lang)) :
    u.Loads (run w history) d ∧ ∀ v, Renews v u → v.Loads (run w history) d := by
  obtain ⟨rfl, rfl⟩ := hu
  have hload : (u.load (run w history) lang).1 = .ok d := by
    rw [fst_load, hcached]
  refine ⟨(loads_iff_of_unloaded hunloaded).2 ⟨lang, hlang, hload⟩, ?_⟩
  obtain ⟨fs, hreadable, rfl, hdependencies, hsame⟩ := exists_moment_of_cached h hcached
  -- each source has the same file now as it had then, or none now and none then
  have hcontent : ∀ source ∈ u.sources.pairs,
      (run w history).files.content? (pathOf lang source) = fs.content? (pathOf lang source) := by
    intro source hsource
    by_cases hthen : pathOf lang source ∈ filesIn fs lang u.sources
    · exact hsame _ hthen
    · have hnow : pathOf lang source ∉ filesIn (run w history).files lang u.sources := by
        intro hmem
        exact hthen (hdependencies ▸ hcovered _ hmem)
      rw [mem_filesIn_iff hsource, Option.not_isSome_iff_eq_none] at hnow hthen
      rw [hnow, hthen]
  intro v hv
  refine hv.loads_iff.2 ⟨lang, hlang, ?_, ?_⟩
  · intro source hsource
    exact (readable_congr (hcontent source hsource)).2 (hreadable source hsource)
  · exact (dictionaryIn_congr hcontent).symm

end Now

/-! ## §5. A file that comes later. -/

/-- A translator for Czech that uses the cache. -/
def czechReader : Translator :=
  { new "ns" 7200 true false with sources := oneSource, lang := some "cs", productionMode := true }

/-- A history in which it loads before a file is written into the directory. -/
def loadThenWrite (fs : FileSystem) (name : String) (bytes : Text.Bytes) : List Happening :=
  [load czechReader, change (fs.put ["d".toList, name.toList] (.file bytes 2)), pass 60]

/-- The file may replace one with another time. -/
theorem history_loadThenWrite {fs : FileSystem} {name : String} {bytes : Text.Bytes}
    (hdir : fs.isDirectoryAt ["d".toList, name.toList] = false)
    (hnew : ∀ bytes', fs.node? ["d".toList, name.toList] ≠ some (.file bytes' 2)) :
    History oneSource "ns" (startOf fs) (loadThenWrite fs name bytes) := by
  refine ⟨fun _ => rfl, ?_, ?_⟩
  · intro t ht
    unfold loadThenWrite at ht
    simp only [List.mem_cons, load.injEq, reduceCtorEq, List.not_mem_nil, or_false] at ht
    subst ht
    exact ⟨rfl, rfl⟩
  · have hput := @FileSystem.content?_put_of_stamp?_eq fs _ hdir bytes 2 hnew
    intro before hbefore after hafter path hstamp
    change before ∈ [fs, fs.put _ (.file bytes 2)] at hbefore
    change after ∈ [fs, fs.put _ (.file bytes 2)] at hafter
    rw [List.mem_pair] at hbefore hafter
    rcases hbefore with rfl | rfl <;> rcases hafter with rfl | rfl
    · rfl
    · exact hput hstamp
    · exact (hput hstamp.symm).symm
    · rfl

/-- The dictionary from the cache is still right when the text form has been written beside
the catalog. -/
theorem loads_of_cached_beside_text :
    czechReader.Loads
        (run (startOf (treeOf [("cs.a.mo", greeting, 1)]))
          (loadThenWrite (treeOf [("cs.a.mo", greeting, 1)]) "cs.a.po" []))
        (dictionaryIn (treeOf [("cs.a.mo", greeting, 1)]) "cs" oneSource)
      ∧ ((dictionaryIn (treeOf [("cs.a.mo", greeting, 1)]) "cs" oneSource).get? "Hello").isSome := by
  have hnode : (treeOf [("cs.a.mo", greeting, 1)]).node? ["d".toList, "cs.a.po".toList] = none := by
    decide +kernel
  have hhistory : History oneSource "ns" (startOf (treeOf [("cs.a.mo", greeting, 1)]))
      (loadThenWrite (treeOf [("cs.a.mo", greeting, 1)]) "cs.a.po" []) :=
    history_loadThenWrite (by decide +kernel) (by rw [hnode]; simp)
  have hcached : czechReader.cached?
      (run (startOf (treeOf [("cs.a.mo", greeting, 1)]))
        (loadThenWrite (treeOf [("cs.a.mo", greeting, 1)]) "cs.a.po" [])) "cs"
      = some (dictionaryIn (treeOf [("cs.a.mo", greeting, 1)]) "cs" oneSource) := by
    decide +kernel
  exact ⟨(loads_of_cached hhistory ⟨rfl, rfl⟩ rfl rfl hcached (by decide +kernel)).1,
    by decide +kernel⟩

/-- **A catalog that comes after its absence was cached is not noticed**: the cache still
gives the empty dictionary when the files have a message. -/
theorem cached_without_new_file :
    History oneSource "ns" (startOf (treeOf [])) (loadThenWrite (treeOf []) "cs.a.mo" greeting)
      ∧ czechReader.cached?
          (run (startOf (treeOf [])) (loadThenWrite (treeOf []) "cs.a.mo" greeting)) "cs"
        = some .empty
      ∧ ∃ d, (d.get? "Hello").isSome = true
        ∧ (czechReader.setProductionMode false).Loads
            (run (startOf (treeOf [])) (loadThenWrite (treeOf []) "cs.a.mo" greeting)) d := by
  have hnode : (treeOf []).node? ["d".toList, "cs.a.mo".toList] = none := by
    decide +kernel
  refine ⟨history_loadThenWrite (by decide +kernel) (by rw [hnode]; simp), by decide +kernel,
    dictionaryIn ((treeOf []).put ["d".toList, "cs.a.mo".toList] (.file greeting 2)) "cs" oneSource,
    by decide +kernel, ?_⟩
  have hrenews : Renews (czechReader.setProductionMode false) czechReader := ⟨rfl, rfl, rfl, rfl⟩
  refine hrenews.loads_iff.2 ⟨"cs", rfl, ?_, rfl⟩
  exact readable_of_isOk (by decide +kernel)

end MessageCatalog
