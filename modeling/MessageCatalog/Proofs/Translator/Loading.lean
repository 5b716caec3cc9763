/-
  MessageCatalog.Proofs.Translator.Loading
  ────────────────────────────────
  **WHAT LOADING GIVES.**

  A translator that is loaded stays as it is.  Otherwise it takes a dictionary, from
  the cache if there is a good one (`cached?`) and else from the files, and nothing but
  the cache is touched by it.  A translator that is set up like another one and reads
  the files anew (`Renews`) gets what the files make together, which says what they
  mean to anyone who starts from them (`Renews.loads_iff`).
-/
import MessageCatalog.Proofs.Translator.Sources

namespace MessageCatalog.Translator

variable {t u : Translator} {w : Workspace} {lang : String} {d : Dictionary}

/-! ## §1. The language. -/

theorem language_eq_ok_iff : t.language = .ok lang ↔ t.lang = some lang ∧ lang ≠ "" := by
  unfold language
  cases t.lang with
  | none => simp
  | some lang' =>
      by_cases h : lang' = ""
      · subst h
        constructor
        · intro heq
          cases heq
        · rintro ⟨heq, hne⟩
          cases heq
          exact absurd rfl hne
      · have hempty : lang'.isEmpty = false := by
          simpa using h
        simp only [hempty, Bool.false_eq_true, if_false, Except.ok.injEq, Option.some.injEq]
        constructor
        · rintro rfl
          exact ⟨rfl, h⟩
        · exact fun heq => heq.1

theorem languageToLoad_eq_ok_iff :
    t.languageToLoad = .ok lang ↔ t.sources.isEmpty = false ∧ t.language = .ok lang := by
  unfold languageToLoad
  cases t.sources.isEmpty <;> simp

/-- A source that is registered is enough to load. -/
theorem languageToLoad_of_mem {source : String × String} (h : source ∈ t.sources.pairs)
    (hlang : t.language = .ok lang) : t.languageToLoad = .ok lang := by
  refine languageToLoad_eq_ok_iff.2 ⟨?_, hlang⟩
  unfold OrderedMap.isEmpty
  rw [List.isEmpty_eq_false_iff]
  exact List.ne_nil_of_mem h

/-! ## §2. Where the dictionary comes from. -/

/-- The dictionary that is taken from the cache, if there is a good one and the cache is
used. -/
def cached? (t : Translator) (w : Workspace) (lang : String) : Option Dictionary :=
  if t.productionMode then (t.cache.get w.cache w.files w.clock lang).1 else none

theorem cached?_of_development (h : t.productionMode = false) : t.cached? w lang = none := by
  unfold cached?
  rw [h]
  rfl

/-- **A good dictionary in the cache comes before the files.** -/
theorem fst_load (t : Translator) (w : Workspace) (lang : String) :
    (t.load w lang).1 = match t.cached? w lang with
      | some d => .ok d
      | none => (t.mergeSources w.files lang).map Prod.fst := by
  have hfiles : ∀ w' : Workspace, w'.files = w.files →
      (t.loadFromFiles w' lang).1 = (t.mergeSources w.files lang).map Prod.fst := by
    intro w' hw
    unfold loadFromFiles
    rw [hw]
    cases t.mergeSources w.files lang with
    | error fault => rfl
    | ok merged => cases t.productionMode <;> rfl
  unfold load cached?
  cases t.productionMode with
  | false => exact hfiles w rfl
  | true =>
      simp only [if_true]
      split
      next d c h => rw [h]
      next c h => rw [h]; exact hfiles _ rfl

/-- **What is loaded** is what the cache has, or else what readable sources make together. -/
theorem fst_load_eq_ok_iff :
    (t.load w lang).1 = .ok d
      ↔ t.cached? w lang = some d
        ∨ t.cached? w lang = none ∧ (∀ source ∈ t.sources.pairs, Readable w.files lang source)
          ∧ d = dictionaryIn w.files lang t.sources := by
  rw [fst_load]
  cases t.cached? w lang with
  | some cached => simp
  | none =>
      cases hmerge : t.mergeSources w.files lang with
      | error fault =>
          constructor
          · intro h
            cases h
          · rintro (h | ⟨-, hreadable, -⟩)
            · cases h
            · have hok := mergeSources_eq_ok_iff.2 ⟨hreadable, rfl⟩
              rw [hmerge] at hok
              cases hok
      | ok merged =>
          obtain ⟨hreadable, rfl⟩ := mergeSources_eq_ok_iff.1 hmerge
          constructor
          · intro h
            cases h
            exact Or.inr ⟨rfl, hreadable, rfl⟩
          · rintro (h | ⟨-, -, rfl⟩)
            · cases h
            · rfl

/-- Loading touches nothing but the cache. -/
theorem snd_load (t : Translator) (w : Workspace) (lang : String) :
    ∃ c, (t.load w lang).2 = { w with cache := c } := by
  have hfiles : ∀ w' : Workspace, ∃ c, (t.loadFromFiles w' lang).2 = { w' with cache := c } := by
    intro w'
    unfold loadFromFiles
    cases t.mergeSources w'.files lang with
    | error fault => exact ⟨w'.cache, rfl⟩
    | ok merged => cases t.productionMode <;> exact ⟨_, rfl⟩
  unfold load
  split
  · split
    next d c _ => exact ⟨c, rfl⟩
    next c _ => exact hfiles { w with cache := c }
  · exact hfiles w

/-! ## §3. Loading. -/

/-- Loading works, and this is the dictionary then. -/
def Loads (t : Translator) (w : Workspace) (d : Dictionary) : Prop :=
  (t.ensureLoaded w).result = .ok () ∧ (t.ensureLoaded w).translator.dictionary = d

theorem ensureLoaded_of_loaded (h : t.loaded = true) :
    t.ensureLoaded w = t.answer w (.ok ()) := by
  unfold ensureLoaded
  rw [if_pos h]

/-- **Everything that can come of loading**: the translator is as it was, or it has the
dictionary that is taken for its language. -/
theorem ensureLoaded_cases (t : Translator) (w : Workspace) :
    (∃ c, (t.ensureLoaded w).workspace = { w with cache := c })
      ∧ ((t.ensureLoaded w).translator = t
            ∧ ((t.ensureLoaded w).result = .ok () → t.loaded = true)
          ∨ ∃ lang d, t.loaded = false ∧ t.languageToLoad = .ok lang
            ∧ (t.load w lang).1 = .ok d ∧ (t.ensureLoaded w).result = .ok ()
            ∧ (t.ensureLoaded w).translator = t.withDictionary d) := by
  unfold ensureLoaded
  split
  next h => exact ⟨⟨w.cache, rfl⟩, Or.inl ⟨rfl, fun _ => h⟩⟩
  next h =>
    split
    next fault _ =>
      refine ⟨⟨w.cache, rfl⟩, Or.inl ⟨rfl, ?_⟩⟩
      intro hok
      cases hok
    next lang hlang =>
      obtain ⟨c, hc⟩ := snd_load t w lang
      split
      next fault w' hload =>
        rw [hload] at hc
        refine ⟨⟨c, hc⟩, Or.inl ⟨rfl, ?_⟩⟩
        intro hok
        cases hok
      next d w' hload =>
        rw [hload] at hc
        refine ⟨⟨c, hc⟩, Or.inr ⟨lang, d, by simpa using h, hlang, ?_, rfl, rfl⟩⟩
        rw [hload]

/-- Loading leaves the language as it is. -/
theorem language_ensureLoaded (t : Translator) (w : Workspace) :
    (t.ensureLoaded w).translator.language = t.language := by
  rcases (ensureLoaded_cases t w).2 with ⟨ht, -⟩ | ⟨lang, d, -, -, -, -, ht⟩ <;> rw [ht]
  rfl

/-- Loading leaves the tracker as it is. -/
theorem tracker_ensureLoaded (t : Translator) (w : Workspace) :
    (t.ensureLoaded w).translator.tracker = t.tracker := by
  rcases (ensureLoaded_cases t w).2 with ⟨ht, -⟩ | ⟨lang, d, -, -, -, -, ht⟩ <;> rw [ht]
  rfl

/-- Loading leaves the session as it is. -/
theorem session_ensureLoaded (t : Translator) (w : Workspace) :
    (t.ensureLoaded w).workspace.session = w.session := by
  obtain ⟨c, hc⟩ := (ensureLoaded_cases t w).1
  rw [hc]

theorem loads_iff_of_unloaded (h : t.loaded = false) :
    t.Loads w d ↔ ∃ lang, t.languageToLoad = .ok lang ∧ (t.load w lang).1 = .ok d := by
  constructor
  · rintro ⟨hresult, hdictionary⟩
    rcases (ensureLoaded_cases t w).2 with ⟨-, hloaded⟩ | ⟨lang, d', -, hlang, hd', -, ht⟩
    · rw [hloaded hresult] at h
      cases h
    · rw [ht] at hdictionary
      cases hdictionary
      exact ⟨lang, hlang, hd'⟩
  · rintro ⟨lang, hlang, hd⟩
    unfold Loads ensureLoaded
    cases hload : t.load w lang with
    | mk result w' =>
        rw [hload] at hd
        cases hd
        simp only [h, Bool.false_eq_true, if_false, hlang, hload]
        exact ⟨rfl, rfl⟩

/-- **Without the cache, readable sources are loaded** and nothing else happens. -/
theorem ensureLoaded_of_readable (hunloaded : t.loaded = false)
    (hdevelopment : t.productionMode = false) (hlang : t.languageToLoad = .ok lang)
    (hreadable : ∀ source ∈ t.sources.pairs, Readable w.files lang source) :
    t.ensureLoaded w
      = ⟨.ok (), t.withDictionary (dictionaryIn w.files lang t.sources), w⟩ := by
  have hload : t.load w lang = (.ok (dictionaryIn w.files lang t.sources), w) := by
    unfold load loadFromFiles
    simp only [hdevelopment, Bool.false_eq_true, if_false,
      mergeSources_eq_ok_iff.2 ⟨hreadable, rfl⟩]
  unfold ensureLoaded
  simp only [hunloaded, Bool.false_eq_true, if_false, hlang, hload]
  rfl

/-! ## §4. Loading anew. -/

/-- A translator that is set up like another one and reads the files anew. -/
structure Renews (u t : Translator) : Prop where
  sources : u.sources = t.sources
  lang : u.lang = t.lang
  unloaded : u.loaded = false
  development : u.productionMode = false

theorem Renews.languageToLoad (h : Renews u t) : u.languageToLoad = t.languageToLoad := by
  unfold Translator.languageToLoad language
  rw [h.sources, h.lang]

/-- **Who starts from the files gets what they make together.** -/
theorem Renews.loads_iff (h : Renews u t) :
    u.Loads w d ↔ ∃ lang, t.languageToLoad = .ok lang
      ∧ (∀ source ∈ t.sources.pairs, Readable w.files lang source)
      ∧ d = dictionaryIn w.files lang t.sources := by
  rw [loads_iff_of_unloaded h.unloaded, h.languageToLoad]
  refine exists_congr fun lang => and_congr_right fun _ => ?_
  rw [fst_load_eq_ok_iff, cached?_of_development h.development, h.sources]
  constructor
  · rintro (hcached | ⟨-, hfiles⟩)
    · cases hcached
    · exact hfiles
  · exact fun hfiles => Or.inr ⟨rfl, hfiles⟩

end MessageCatalog.Translator
