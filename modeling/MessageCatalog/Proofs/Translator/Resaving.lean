/-
  MessageCatalog.Proofs.Translator.Resaving
  ────────────────────────────────
  **SAVING WHAT WAS JUST LOADED.**

  A save writes only the entries that its source has in the merged dictionary; those
  that a later source overrides are gone from the file.  They are not missed: what a
  fresh load finds under a key is what was loaded before (`get?_dictionaryIn_of_save`),
  except that an original is written with its first and its last string alone.  So a
  message keeps its variants, its plural and its source (`loads_after_resave`).
-/
import MessageCatalog.Proofs.Translator.Saving

namespace MessageCatalog

/-- What is seen of an entry: its variants, its plural and its source. -/
def Entry.visible (e : Entry) : List String × Option String × String :=
  (e.translation, e.plural?, e.source)

@[simp] theorem Entry.visible_written (e : Entry) : e.written.visible = e.visible := by
  unfold visible
  rw [plural?_written, translation_written, source_written]

namespace Translator

/-! ## §1. One source has only what it wins. -/

/-- When one source is left with what it wins, each search finds what it found before. -/
theorem findSome?_of_won {sources : List (String × String)} {f f' : String × String → Option Entry}
    {s : String} {g : Entry → Entry} (hnodup : (sources.map Prod.fst).Nodup)
    (hsource : ∀ p e, f p = some e → e.source = p.1)
    (hother : ∀ p ∈ sources, p.1 ≠ s → f' p = f p)
    (hwon : ∀ p ∈ sources, p.1 = s →
      f' p = ((sources.findSome? f).filter fun e => e.source == s).map g) :
    sources.findSome? f'
      = (sources.findSome? f).map fun e => if e.source = s then g e else e := by
  cases hwinner : sources.findSome? f with
  | none =>
      rw [hwinner] at hwon
      rw [Option.map_none, List.findSome?_eq_none_iff]
      intro p hp
      by_cases hs : p.1 = s
      · exact hwon p hp hs
      · rw [hother p hp hs]
        exact List.findSome?_eq_none_iff.1 hwinner p hp
  | some e =>
      rw [hwinner] at hwon
      obtain ⟨before, winner, after, rfl, hwins, hbefore⟩ := List.findSome?_eq_some_iff.1 hwinner
      have hname : e.source = winner.1 := hsource winner e hwins
      rw [Option.map_some, List.findSome?_eq_some_iff]
      refine ⟨before, winner, after, rfl, ?_, ?_⟩
      · by_cases hs : winner.1 = s
        · rw [hwon winner (by simp) hs]
          simp [Option.filter, hname, hs]
        · rw [hother winner (by simp) hs, hwins]
          simp [hname, hs]
      · intro p hp
        -- the source that was searched earlier is another one than the winner
        have hne : p.1 ≠ winner.1 := by
          rw [List.map_append, List.map_cons, List.nodup_append] at hnodup
          exact hnodup.2.2 _ (List.mem_map_of_mem hp) _ List.mem_cons_self
        by_cases hs : p.1 = s
        · have hlost : winner.1 ≠ s := fun heq => hne (hs.trans heq.symm)
          rw [hwon p (List.mem_append_left _ hp) hs]
          simp [Option.filter, hname, hlost]
        · rw [hother p (List.mem_append_left _ hp) hs]
          exact hbefore p hp

/-! ## §2. After a save. -/

variable {t t' : Translator} {w w' : Workspace} {s lang : String}

/-- **What is found after a save is what was loaded before it.** -/
theorem get?_dictionaryIn_of_save {now : Moment} {paths : String × String}
    (h : t.save w s now = ⟨.ok paths, t', w'⟩) (hlang : t.language = .ok lang)
    (hnamed : Named t lang) (hloaded : t.dictionary = dictionaryIn w.files lang t.sources)
    (key : String) :
    (dictionaryIn w'.files lang t.sources).get? key
      = (t.dictionary.get? key).map fun e => if e.source = s then e.written else e := by
  have hkept : ∀ e ∈ t.dictionary.toList, Kept e := by
    rw [hloaded]
    exact kept_dictionaryIn
  have hentry : ∀ source ∈ t.sources.pairs.reverse, entryIn? w'.files lang key source
      = if source.1 = s then ((t.dictionary.get? key).filter fun e => e.source == s).map fun e =>
            (Mo.Record.ofEntry e).toEntry s
        else entryIn? w.files lang key source :=
    fun source hsource =>
      (entryIn?_of_save h hlang (hnamed.separate hlang _ s) hkept (List.mem_reverse.1 hsource)).2 key
  have hnodup : (t.sources.pairs.reverse.map Prod.fst).Nodup := by
    rw [List.map_reverse]
    exact (List.reverse_perm _).nodup_iff.2 t.sources.nodup
  have hbefore : t.dictionary.get? key
      = t.sources.pairs.reverse.findSome? (entryIn? w.files lang key) := by
    rw [hloaded, get?_dictionaryIn]
  rw [get?_dictionaryIn, hbefore]
  refine findSome?_of_won hnodup (fun p e he => (of_entryIn? he).2.1) ?_ ?_
  · intro source hsource hs
    rw [hentry source hsource, if_neg hs]
  · intro source hsource hs
    rw [hentry source hsource, if_pos hs, ← hbefore]
    -- the records of these entries give back their written form
    cases hfound : (t.dictionary.get? key).filter fun e => e.source == s with
    | none => rfl
    | some e =>
        obtain ⟨hget, hname⟩ := Option.filter_eq_some_iff.1 hfound
        rw [hloaded] at hget
        have hrecord := (Mo.toEntry_ofEntry_of_storable (storable_of_get?_dictionaryIn hget)).2
        rw [beq_iff_eq.1 hname] at hrecord
        rw [Option.map_some, Option.map_some, hrecord]

/-! ## §3. Loading, saving and loading again. -/

/-- **Saving what was just loaded changes nothing that a fresh load shows**: it has the same
messages, each with its variants, its plural and its source. -/
theorem loads_after_resave (hlang : t.language = .ok lang) (hnamed : Named t lang)
    (hunloaded : t.loaded = false) (hdevelopment : t.productionMode = false)
    (hs : s ∈ t.sources.keys) (hreadable : ∀ source ∈ t.sources.pairs, Readable w.files lang source) :
    ∃ loaded, t.ensureLoaded w = ⟨.ok (), loaded, w⟩
      ∧ ∀ now paths t' w', loaded.save w s now = ⟨.ok paths, t', w'⟩ →
          ∀ u v, Renews u t → v.files = w'.files →
            ∃ d, u.Loads v d ∧ ∀ key,
              (d.get? key).map Entry.visible = (loaded.dictionary.get? key).map Entry.visible := by
  obtain ⟨dir, hmem⟩ := OrderedMap.mem_keys_iff.1 hs
  have htoLoad := languageToLoad_of_mem hmem hlang
  refine ⟨_, ensureLoaded_of_readable hunloaded hdevelopment htoLoad hreadable, ?_⟩
  intro now paths t' w' hsave u v hu hv
  have hnamed' : Named (t.withDictionary (dictionaryIn w.files lang t.sources)) lang :=
    ⟨hnamed.identifiers, hnamed.language⟩
  refine ⟨_, hu.loads_iff.2 ⟨lang, htoLoad, ?_, rfl⟩, ?_⟩
  · intro source hsource
    rw [hv]
    exact (entryIn?_of_save hsave hlang (hnamed'.separate hlang _ s) kept_dictionaryIn hsource).1
      (hreadable source hsource)
  · intro key
    have hfound : (dictionaryIn w'.files lang t.sources).get? key = _ :=
      get?_dictionaryIn_of_save hsave hlang hnamed' rfl key
    rw [hv, hfound, Option.map_map]
    refine Option.map_congr fun e _ => ?_
    show (if e.source = s then e.written else e).visible = e.visible
    split
    · exact e.visible_written
    · rfl

/-- Two sources in one directory. -/
def twoSources : OrderedMap String String :=
  ⟨[("a", "d"), ("b", "d")], by decide⟩

/-- Catalogs of which the second one overrides a message of the first. -/
def overlapping : FileSystem :=
  treeOf
    [("cs.a.mo", Mo.image .little [⟨Text.bytesOf "Bye", Text.bytesOf "Cau"⟩,
        ⟨Text.bytesOf "Hello", Text.bytesOf "Ahoj"⟩], 1),
      ("cs.b.mo", Mo.image .little [⟨Text.bytesOf "Hello", Text.bytesOf "Nazdar"⟩], 1)]

/-- A translator for the two sources. -/
def czechEditor : Translator :=
  { withDefaults true false with sources := twoSources, lang := some "cs" }

/-- The overriding source is saved, and a fresh load has its translation. -/
theorem loads_after_resave_overlapping :
    ∃ loaded paths w' d,
      czechEditor.ensureLoaded (startOf overlapping) = ⟨.ok (), loaded, startOf overlapping⟩
        ∧ loaded.save (startOf overlapping) "b" ⟨⟨2024, 3, 1, 9, 30, 15, 0⟩, 5⟩
            = ⟨.ok paths, loaded, w'⟩
        ∧ czechEditor.Loads w' d
        ∧ (d.get? "Hello").map Entry.visible = some (["Nazdar"], none, "b") := by
  have hlang : czechEditor.languageToLoad = .ok "cs" := rfl
  have hreadable : ∀ source ∈ czechEditor.sources.pairs,
      Readable (startOf overlapping).files "cs" source :=
    readable_of_isOk (by decide +kernel)
  obtain ⟨loaded, hloaded, hresave⟩ := @loads_after_resave czechEditor (startOf overlapping) "b" "cs"
    rfl ⟨by decide, by decide⟩ rfl rfl (by decide) hreadable
  have hdictionary : loaded
      = czechEditor.withDictionary (dictionaryIn overlapping "cs" twoSources) := by
    rw [ensureLoaded_of_readable rfl rfl hlang hreadable] at hloaded
    cases hloaded
    rfl
  have hsave := @save_of_ordered loaded (startOf overlapping) "b" "cs" "d"
    [⟨["Hello"], ["Nazdar"], "b"⟩] ⟨⟨2024, 3, 1, 9, 30, 15, 0⟩, 5⟩
    (by rw [hdictionary]; rfl) (by rw [hdictionary]; rfl) (by rw [hdictionary]; rfl)
    (by rw [hdictionary]; rfl) rfl (by rw [hdictionary]; decide +kernel)
    (List.mergeSort_singleton _) (by rw [hdictionary]; exact Mo.fitsWords_recordsOf (by decide +kernel))
    (by rw [hdictionary]; decide +kernel)
  obtain ⟨d, hd, hsame⟩ := hresave _ _ loaded _ hsave czechEditor _ ⟨rfl, rfl, rfl, rfl⟩ rfl
  refine ⟨loaded, _, _, d, hloaded, hsave, hd, ?_⟩
  rw [hsame, hdictionary]
  decide +kernel

end Translator

end MessageCatalog
