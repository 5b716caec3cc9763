/-
  MessageCatalog.Proofs.Translator.Lifetime
  ────────────────────────────────
  **WHERE THE DICTIONARY OF A TRANSLATOR COMES FROM.**

  A translator lives through events: its own operations, of whatever result, and changes
  of the workspace by others.  There are three things that an event can do to it
  (`after_cases`): it switches the language, which leaves nothing loaded (`Switches`); it
  loads the dictionary of the language (`Fetches`); or language and dictionary stay what
  they are, but for a translation that is set (`Stays`).

  So a translator that is not loaded has an empty dictionary, and the dictionary of one
  that is loaded is the result of the one load since its language was set, with the
  translations that were set from then on (`dictionary_of_events`).
-/
import Mathlib.Data.List.Induction
import MessageCatalog.Proofs.Translator.Operations
import MessageCatalog.Proofs.Translator.Resaving

namespace MessageCatalog.Translator

open MessageCatalog.Text

/-! ## §1. Events. -/

/-- What can happen to a translator. -/
inductive Event where
  /-- It does something itself. -/
  | own (op : Operation)
  /-- The workspace becomes another one, whatever others have done to it. -/
  | outside (w : Workspace)

/-- The original with which a translation of a message is set: what is pending of the message,
or else the message alone. -/
def originalFor (t : Translator) (w : Workspace) (message : String) : List String :=
  match t.language.bind fun lang => t.tracker.get w.session lang message with
  | .ok (some forms) => forms
  | _ => [message]

/-- Operations that load the dictionary first. -/
def Operation.loads : Operation → Bool
  | .ensureLoaded | .lookup _ _ | .setTranslation _ _ _ | .variantsCount | .stringsOf _
  | .groupedStrings => true
  | .addSource _ _ | .setLang _ | .setProductionMode _ | .save _ _ | .pass _ => false

namespace State

/-- The state after an event. -/
def after (s : State) : Event → State
  | .own op => s.apply op
  | .outside w => ⟨s.translator, w⟩

/-- The state after a sequence of events. -/
def through (s : State) (events : List Event) : State :=
  events.foldl after s

theorem through_append (s : State) (events events' : List Event) :
    s.through (events ++ events') = (s.through events).through events' :=
  List.foldl_append

/-- The entry that an event puts into the dictionary: that of a translation which is set with
success. -/
def entrySet? (s : State) : Event → Option Entry
  | .own (.setTranslation message translation source) =>
      match (s.translator.setTranslation s.workspace message translation source).result with
      | .ok _ => some ⟨s.translator.originalFor s.workspace message, translation, source⟩
      | .error _ => none
  | _ => none

/-- The entries that a sequence of events puts into the dictionary, in order. -/
def entriesSet : State → List Event → List Entry
  | _, [] => []
  | s, e :: events => (s.entrySet? e).toList ++ (s.after e).entriesSet events

theorem entriesSet_concat (s : State) (events : List Event) (e : Event) :
    s.entriesSet (events ++ [e]) = s.entriesSet events ++ ((s.through events).entrySet? e).toList := by
  induction events generalizing s with
  | nil => exact List.append_nil _
  | cons first events ih =>
      rw [List.cons_append, entriesSet, entriesSet, ih, List.append_assoc]
      rfl

end State

/-! ## §2. What an operation does to the dictionary. -/

variable {s : State} {e : Event} {op : Operation} {lang : String} {d : Dictionary}

/-- Setting a translation fails and only loads, or puts one entry into what is loaded. -/
theorem setTranslation_result (t : Translator) (w : Workspace) (message : String)
    (translation : List String) (source : String) :
    (∃ fault, (t.setTranslation w message translation source).result = .error fault
        ∧ (t.setTranslation w message translation source).translator
          = (t.ensureLoaded w).translator)
      ∨ (t.ensureLoaded w).result = .ok ()
        ∧ (t.setTranslation w message translation source).result = .ok ()
        ∧ (t.setTranslation w message translation source).translator
          = { (t.ensureLoaded w).translator with
              dictionary := (t.ensureLoaded w).translator.dictionary.insert
                ⟨t.originalFor w message, translation, source⟩ } := by
  rcases setTranslation_outcome t w message translation source with
    ⟨fault, heq⟩ | ⟨lang, forms, hload, hlang, hget, heq⟩
  · exact Or.inl ⟨fault, by rw [heq], by rw [heq]⟩
  · rw [language_ensureLoaded] at hlang
    rw [tracker_ensureLoaded, session_ensureLoaded] at hget
    have horiginal : t.originalFor w message = forms.getD [message] := by
      unfold originalFor
      rw [hlang]
      show (match t.tracker.get w.session lang message with
        | .ok (some forms) => forms
        | _ => [message]) = _
      rw [hget]
      cases forms <;> rfl
    exact Or.inr ⟨hload, by rw [heq], by rw [heq, horiginal]⟩

/-- **An operation that loads first** leaves what loading leaves, with the entry that it sets. -/
theorem translator_apply_of_loads (h : op.loads = true) :
    (s.apply op).translator
      = { (s.translator.ensureLoaded s.workspace).translator with
          dictionary := (s.entrySet? (.own op)).toList.foldl Dictionary.insert
            (s.translator.ensureLoaded s.workspace).translator.dictionary } := by
  cases op with
  | ensureLoaded | variantsCount | stringsOf | groupedStrings =>
      rw [apply_of_onlyLoads rfl]
      rfl
  | lookup message form =>
      show (s.translator.lookup s.workspace message form).state.translator = _
      rcases lookup_cases s.translator s.workspace message form with
        heq | ⟨lang, session, -, -, heq⟩ <;> rw [heq] <;> rfl
  | setTranslation message translation source =>
      show (s.translator.setTranslation s.workspace message translation source).translator = _
      unfold State.entrySet?
      rcases setTranslation_result s.translator s.workspace message translation source with
        ⟨fault, hresult, ht⟩ | ⟨-, hresult, ht⟩ <;> rw [ht] <;> simp only [hresult] <;> rfl
  | addSource | setLang | setProductionMode | save | pass => cases h

/-- An entry is set only where loading succeeds. -/
theorem result_ensureLoaded_of_entrySet? {entry : Entry} (h : s.entrySet? e = some entry) :
    (s.translator.ensureLoaded s.workspace).result = .ok () := by
  unfold State.entrySet? at h
  split at h
  next message translation source =>
    rcases setTranslation_result s.translator s.workspace message translation source with
      ⟨fault, hresult, -⟩ | ⟨hload, -, -⟩
    · simp only [hresult] at h
      cases h
    · exact hload
  next => cases h

/-- Where loading fails, an operation that loads first leaves the translator as it was. -/
theorem translator_apply_of_load_fails {fault : CatalogError} (h : op.loads = true)
    (hload : (s.translator.ensureLoaded s.workspace).result = .error fault) :
    (s.apply op).translator = s.translator := by
  have hnone : s.entrySet? (.own op) = none := by
    cases hset : s.entrySet? (.own op) with
    | none => rfl
    | some entry =>
        rw [result_ensureLoaded_of_entrySet? hset] at hload
        cases hload
  rw [translator_apply_of_loads h, hnone]
  rcases (ensureLoaded_cases s.translator s.workspace).2 with ⟨ht, -⟩ | ⟨_, _, -, -, -, hok, -⟩
  · rw [ht]
    rfl
  · rw [hok] at hload
    cases hload

/-! ## §3. What an event can do. -/

/-- The dictionary that is taken for the language of a translator: a good one from the cache, or
else what the files of its sources make together, in the order in which they are registered. -/
def Takes (s : State) (lang : String) (d : Dictionary) : Prop :=
  s.translator.languageToLoad = .ok lang
    ∧ (s.translator.cached? s.workspace lang = some d
      ∨ s.translator.cached? s.workspace lang = none
        ∧ (∀ source ∈ s.translator.sources.pairs, Readable s.workspace.files lang source)
        ∧ d = dictionaryIn s.workspace.files lang s.translator.sources)

/-- The language is another one after the event, and nothing is loaded. -/
structure Switches (s : State) (e : Event) : Prop where
  changed : (s.after e).translator.lang ≠ s.translator.lang
  not_blank : ∀ lang, (s.after e).translator.lang = some lang → isBlank lang = false
  unloaded : (s.after e).translator.loaded = false
  cleared : (s.after e).translator.dictionary = .empty

/-- The event loads a dictionary, and may set a translation in it. -/
structure Fetches (s : State) (e : Event) (lang : String) (d : Dictionary) : Prop where
  unloaded : s.translator.loaded = false
  takes : Takes s lang d
  loaded : (s.after e).translator.loaded = true
  same_lang : (s.after e).translator.lang = s.translator.lang
  same_sources : (s.after e).translator.sources = s.translator.sources
  dictionary : (s.after e).translator.dictionary
    = (s.entrySet? e).toList.foldl Dictionary.insert d

/-- The event leaves the language and the dictionary alone, but may set a translation in a
dictionary that is loaded. -/
structure Stays (s : State) (e : Event) : Prop where
  same_lang : (s.after e).translator.lang = s.translator.lang
  same_loaded : (s.after e).translator.loaded = s.translator.loaded
  sources : s.translator.sources.isEmpty = false → (s.after e).translator.sources.isEmpty = false
  dictionary : (s.after e).translator.dictionary
    = (s.entrySet? e).toList.foldl Dictionary.insert s.translator.dictionary
  loaded_of_set : (s.entrySet? e).isSome → s.translator.loaded = true

/-- What leaves the translator alone sets nothing. -/
theorem stays_of_translator_eq (h : (s.after e).translator = s.translator)
    (hset : s.entrySet? e = none) : Stays s e := by
  refine ⟨by rw [h], by rw [h], by rw [h]; exact id, by rw [h, hset]; rfl, ?_⟩
  rw [hset]
  exact fun hsome => absurd hsome Bool.false_ne_true

theorem stays_addSource (s : State) (dir identifier : String) :
    Stays s (.own (.addSource dir identifier)) := by
  have hafter : s.after (.own (.addSource dir identifier))
      = s.setUp (s.translator.addSource s.workspace.files dir identifier) := rfl
  cases hadd : s.translator.addSource s.workspace.files dir identifier with
  | error fault => exact stays_of_translator_eq (by rw [hafter, hadd]; rfl) rfl
  | ok t =>
      obtain ⟨hnew, -, rfl⟩ := addSource_eq_ok_iff.1 hadd
      rw [hadd] at hafter
      refine ⟨by rw [hafter]; rfl, by rw [hafter]; rfl, ?_, by rw [hafter]; rfl,
        fun hsome => absurd hsome Bool.false_ne_true⟩
      intro _
      rw [hafter]
      show ((s.translator.sources.insert identifier dir).pairs).isEmpty = false
      rw [OrderedMap.pairs_insert_of_not_mem dir hnew, List.isEmpty_eq_false_iff]
      simp

theorem switches_or_stays_setLang (s : State) (lang : String) :
    Switches s (.own (.setLang lang)) ∨ Stays s (.own (.setLang lang)) := by
  have hafter : s.after (.own (.setLang lang)) = s.setUp (s.translator.setLang lang) := rfl
  cases hset : s.translator.setLang lang with
  | error fault => exact Or.inr (stays_of_translator_eq (by rw [hafter, hset]; rfl) rfl)
  | ok t =>
      obtain ⟨hblank, rfl⟩ := setLang_eq_ok_iff.1 hset
      rw [hset] at hafter
      by_cases hlang : s.translator.lang = some lang
      · rw [if_pos hlang] at hafter
        exact Or.inr (stays_of_translator_eq (by rw [hafter]; rfl) rfl)
      · rw [if_neg hlang] at hafter
        refine Or.inl ⟨?_, ?_, by rw [hafter]; rfl, by rw [hafter]; rfl⟩
        · rw [hafter]
          exact fun heq => hlang heq.symm
        · rw [hafter]
          intro lang' hlang'
          cases hlang'
          exact hblank

theorem fetches_or_stays_of_loads (s : State) (h : op.loads = true) :
    (∃ lang d, Fetches s (.own op) lang d) ∨ Stays s (.own op) := by
  have hafter : (s.after (.own op)).translator = _ := translator_apply_of_loads h
  rcases (ensureLoaded_cases s.translator s.workspace).2 with
    ⟨ht, hloaded⟩ | ⟨lang, d, hunloaded, hlang, hload, -, ht⟩
  · right
    rw [ht] at hafter
    refine ⟨by rw [hafter], by rw [hafter], by rw [hafter]; exact id, by rw [hafter], ?_⟩
    intro hset
    obtain ⟨entry, hentry⟩ := Option.isSome_iff_exists.1 hset
    exact hloaded (result_ensureLoaded_of_entrySet? hentry)
  · left
    rw [ht] at hafter
    refine ⟨lang, d, hunloaded, ⟨hlang, fst_load_eq_ok_iff.1 hload⟩, ?_, ?_, ?_, ?_⟩ <;>
      rw [hafter] <;> rfl

/-- **Everything that an event can do to a translator.** -/
theorem after_cases (s : State) (e : Event) :
    Switches s e ∨ (∃ lang d, Fetches s e lang d) ∨ Stays s e := by
  cases e with
  | outside w => exact Or.inr (Or.inr (stays_of_translator_eq rfl rfl))
  | own op =>
      cases op with
      | addSource dir identifier => exact Or.inr (Or.inr (stays_addSource s dir identifier))
      | setLang lang =>
          exact (switches_or_stays_setLang s lang).imp_right Or.inr
      | setProductionMode on =>
          exact Or.inr (Or.inr ⟨rfl, rfl, id, rfl, fun hsome => absurd hsome Bool.false_ne_true⟩)
      | save source now =>
          refine Or.inr (Or.inr (stays_of_translator_eq ?_ rfl))
          show (s.translator.save s.workspace source now).state.translator = _
          rcases save_cases s.translator s.workspace source now with
            heq | ⟨x, session, cache, -, -, heq⟩ <;> rw [heq]
      | pass seconds => exact Or.inr (Or.inr (stays_of_translator_eq rfl rfl))
      | ensureLoaded | lookup | setTranslation | variantsCount | stringsOf | groupedStrings =>
          exact Or.inr (fetches_or_stays_of_loads s rfl)

/-- A dictionary stays loaded as long as the language stays the same. -/
theorem loaded_through {events : List Event} (h : s.translator.loaded = true)
    (hlang : ∀ part, part <+: events → (s.through part).translator.lang = some lang) :
    (s.through events).translator.loaded = true := by
  induction events generalizing s with
  | nil => exact h
  | cons e events ih =>
      have hnow : s.translator.lang = some lang := hlang [] List.nil_prefix
      have hnext : (s.after e).translator.lang = some lang :=
        hlang [e] (List.cons_prefix_cons.2 ⟨rfl, List.nil_prefix⟩)
      refine ih ?_ fun part hpart => hlang (e :: part) (List.cons_prefix_cons.2 ⟨rfl, hpart⟩)
      rcases after_cases s e with hswitch | ⟨_, _, hfetch⟩ | hstay
      · exact absurd (hnext.trans hnow.symm) hswitch.changed
      · exact hfetch.loaded
      · rw [hstay.same_loaded]
        exact h

/-! ## §4. The one load. -/

/-- An event is the one load of a dictionary since the language was set: nothing was loaded in
the language before it, and from then on the dictionary is loaded and the language the same. -/
structure LoadedOnce (start : State) (before : List Event) (load : Event) (rest : List Event)
    (lang : String) (d : Dictionary) : Prop where
  first : ∀ earlier recent, before = earlier ++ recent →
    (∀ part, part <+: recent → (start.through (earlier ++ part)).translator.lang = some lang) →
    (start.through earlier).translator.loaded = false
  takes : Takes (start.through before) lang d
  since : ∀ part, part <+: rest →
    (start.through (before ++ load :: part)).translator.loaded = true
      ∧ (start.through (before ++ load :: part)).translator.lang = some lang

/-- What is known of a translator after events: its language, and where its dictionary comes
from. -/
structure Accounted (start : State) (events : List Event) : Prop where
  not_blank : ∀ lang, (start.through events).translator.lang = some lang → isBlank lang = false
  unloaded : (start.through events).translator.loaded = false →
    (start.through events).translator.dictionary = .empty
  loaded : (start.through events).translator.loaded = true →
    (start.through events).translator.sources.isEmpty = false
      ∧ ∃ lang before load rest d, events = before ++ load :: rest
        ∧ LoadedOnce start before load rest lang d
        ∧ (start.through events).translator.dictionary
          = ((start.through before).entriesSet (load :: rest)).foldl Dictionary.insert d

section Steps

variable {start : State} {events : List Event}

theorem through_concat (start : State) (events : List Event) (e : Event) :
    start.through (events ++ [e]) = (start.through events).after e :=
  State.through_append start events [e]

theorem accounted_of_switches (h : Switches (start.through events) e) :
    Accounted start (events ++ [e]) := by
  refine ⟨?_, ?_, ?_⟩ <;> rw [through_concat]
  · exact h.not_blank
  · exact fun _ => h.cleared
  · intro hloaded
    rw [h.unloaded] at hloaded
    cases hloaded

theorem Accounted.fetches (h : Accounted start events) (hfetch : Fetches (start.through events) e lang d) :
    Accounted start (events ++ [e]) := by
  obtain ⟨hsources, hlanguage⟩ := languageToLoad_eq_ok_iff.1 hfetch.takes.1
  have hlang : (start.through events).translator.lang = some lang :=
    (language_eq_ok_iff.1 hlanguage).1
  refine ⟨?_, ?_, ?_⟩ <;> rw [through_concat]
  · rw [hfetch.same_lang]
    exact h.not_blank
  · intro hunloaded
    rw [hfetch.loaded] at hunloaded
    cases hunloaded
  · intro _
    rw [hfetch.same_sources]
    refine ⟨hsources, lang, events, e, [], d, rfl, ⟨?_, hfetch.takes, ?_⟩, ?_⟩
    · -- a dictionary that had been loaded in this language would still be there
      rintro earlier recent rfl hrecent
      by_contra hloaded
      have hstill := @loaded_through _ lang recent (by simpa using hloaded) fun part hpart => by
        rw [← State.through_append]
        exact hrecent part hpart
      rw [← State.through_append, hfetch.unloaded] at hstill
      cases hstill
    · intro part hpart
      rw [List.prefix_nil] at hpart
      subst hpart
      rw [through_concat, hfetch.same_lang]
      exact ⟨hfetch.loaded, hlang⟩
    · rw [hfetch.dictionary]
      unfold State.entriesSet
      rw [State.entriesSet, List.append_nil]

theorem Accounted.stays (h : Accounted start events) (hstay : Stays (start.through events) e) :
    Accounted start (events ++ [e]) := by
  refine ⟨?_, ?_, ?_⟩ <;> rw [through_concat]
  · rw [hstay.same_lang]
    exact h.not_blank
  · intro hunloaded
    rw [hstay.same_loaded] at hunloaded
    have hnone : (start.through events).entrySet? e = none := by
      rw [← Option.not_isSome_iff_eq_none]
      intro hsome
      rw [hstay.loaded_of_set hsome] at hunloaded
      cases hunloaded
    rw [hstay.dictionary, hnone]
    exact h.unloaded hunloaded
  · intro hloaded
    rw [hstay.same_loaded] at hloaded
    obtain ⟨hsources, lang, before, load, rest, d, hevents, honce, hdictionary⟩ := h.loaded hloaded
    have hsplit : start.through events = (start.through before).through (load :: rest) := by
      rw [hevents, State.through_append]
    refine ⟨hstay.sources hsources, lang, before, load, rest ++ [e], d, by rw [hevents]; simp,
      ⟨honce.first, honce.takes, ?_⟩, ?_⟩
    · intro part hpart
      rcases List.prefix_concat_iff.1 hpart with rfl | hpart
      · have hnow := honce.since rest (List.prefix_refl rest)
        rw [← hevents] at hnow
        rw [← List.cons_append, ← List.append_assoc, ← hevents, through_concat,
          hstay.same_loaded, hstay.same_lang]
        exact hnow
      · exact honce.since part hpart
    · rw [hstay.dictionary, hdictionary, ← List.cons_append, State.entriesSet_concat,
        List.foldl_append, hsplit]

/-- **Whatever happens, the dictionary of a translator can be accounted for.** -/
theorem accounted_through (h : Accounted start []) (events : List Event) :
    Accounted start events := by
  -- the last event decides, so the events are taken from the end
  induction events using List.reverseRecOn with
  | nil => exact h
  | append_singleton events e ih =>
      rcases after_cases (start.through events) e with hswitch | ⟨lang, d, hfetch⟩ | hstay
      · exact accounted_of_switches hswitch
      · exact ih.fetches hfetch
      · exact ih.stays hstay

end Steps

theorem accounted_new (ns : String) (expire : Nat) (hasSession responseSent : Bool)
    (w : Workspace) : Accounted ⟨new ns expire hasSession responseSent, w⟩ [] := by
  refine ⟨?_, fun _ => rfl, ?_⟩
  · intro lang hlang
    cases hlang
  · intro hloaded
    cases hloaded

/-- **The state of a translator.**  After any events, a translator that is not loaded has an empty
dictionary.  One that is loaded has sources and a language that is not blank, and its dictionary
is what was taken by the one load since the language was set, with the entries of the
translations that were set from then on.  What fails to register a source, to set a language or
to load leaves the translator as it was. -/
theorem dictionary_of_events {ns : String} {expire : Nat} {hasSession responseSent : Bool}
    {w : Workspace} {events : List Event} {s : State}
    (hs : State.through ⟨new ns expire hasSession responseSent, w⟩ events = s) :
    (s.translator.loaded = false → s.translator.dictionary = .empty)
      ∧ (s.translator.loaded = true → s.translator.sources.isEmpty = false
        ∧ ∃ lang, s.translator.lang = some lang ∧ isBlank lang = false
          ∧ ∃ before load rest d, events = before ++ load :: rest
            ∧ LoadedOnce ⟨new ns expire hasSession responseSent, w⟩ before load rest lang d
            ∧ s.translator.dictionary
              = (State.entriesSet (State.through ⟨new ns expire hasSession responseSent, w⟩ before)
                  (load :: rest)).foldl Dictionary.insert d)
      ∧ (∀ dir identifier fault,
          s.translator.addSource s.workspace.files dir identifier = .error fault →
            s.apply (.addSource dir identifier) = s)
      ∧ (∀ lang fault, s.translator.setLang lang = .error fault → s.apply (.setLang lang) = s)
      ∧ (∀ fault, (s.translator.ensureLoaded s.workspace).result = .error fault →
          ∀ op : Operation, op.loads = true → (s.apply op).translator = s.translator) := by
  have haccounted := accounted_through (accounted_new ns expire hasSession responseSent w) events
  subst hs
  refine ⟨haccounted.unloaded, ?_, ?_, ?_, ?_⟩
  · intro hloaded
    obtain ⟨hsources, lang, before, load, rest, d, hevents, honce, hdictionary⟩ :=
      haccounted.loaded hloaded
    have hlang := (honce.since rest (List.prefix_refl rest)).2
    rw [← hevents] at hlang
    exact ⟨hsources, lang, hlang, haccounted.not_blank lang hlang, before, load, rest, d, hevents,
      honce, hdictionary⟩
  · intro dir identifier fault hadd
    show State.setUp _ _ = _
    rw [hadd]
    rfl
  · intro lang fault hset
    show State.setUp _ _ = _
    rw [hset]
    rfl
  · exact fun fault hload op hop => translator_apply_of_load_fails hop hload

/-- Two sources are registered and loaded; then the files are gone, and a translation is set. -/
def rewording : List Event :=
  [.own (.addSource "d" "a"), .own (.addSource "d" "b"), .own (.setLang "cs"), .own .ensureLoaded,
    .outside .empty, .own (.setTranslation "Bye" ["Nashle"] "a")]

/-- The dictionary is what the files held when it was loaded, with the translation set since. -/
theorem dictionary_of_events_revised :
    ∃ s, State.through ⟨withDefaults true false, startOf overlapping⟩ rewording = s
      ∧ s.translator.loaded = true
      ∧ s.translator.dictionary
        = (dictionaryIn overlapping "cs" twoSources).insert ⟨["Bye"], ["Nashle"], "a"⟩
      ∧ ∃ before load rest d, rewording = before ++ load :: rest
        ∧ LoadedOnce ⟨withDefaults true false, startOf overlapping⟩ before load rest "cs" d
        ∧ s.translator.dictionary
          = (State.entriesSet (State.through ⟨withDefaults true false, startOf overlapping⟩ before)
              (load :: rest)).foldl Dictionary.insert d := by
  have hsetUp : State.through ⟨withDefaults true false, startOf overlapping⟩
      [.own (.addSource "d" "a"), .own (.addSource "d" "b"), .own (.setLang "cs")]
      = ⟨czechEditor, startOf overlapping⟩ := rfl
  have hload : State.apply ⟨czechEditor, startOf overlapping⟩ .ensureLoaded
      = ⟨czechEditor.withDictionary (dictionaryIn overlapping "cs" twoSources),
          startOf overlapping⟩ :=
    apply_ensureLoaded_of_readable rfl rfl rfl (readable_of_isOk (by decide +kernel))
  have hs : State.through ⟨withDefaults true false, startOf overlapping⟩ rewording
      = ⟨czechEditor.withDictionary
          ((dictionaryIn overlapping "cs" twoSources).insert ⟨["Bye"], ["Nashle"], "a"⟩), .empty⟩ := by
    show State.through (State.apply (State.through ⟨withDefaults true false, startOf overlapping⟩
      [.own (.addSource "d" "a"), .own (.addSource "d" "b"), .own (.setLang "cs")]) .ensureLoaded)
      [.outside .empty, .own (.setTranslation "Bye" ["Nashle"] "a")] = _
    rw [hsetUp, hload]
    rfl
  obtain ⟨-, hloaded, -⟩ := dictionary_of_events hs
  obtain ⟨-, lang, hcs, -, before, load, rest, d, hevents, honce, hdictionary⟩ := hloaded rfl
  cases hcs
  exact ⟨_, hs, rfl, rfl, before, load, rest, d, hevents, honce, hdictionary⟩

end MessageCatalog.Translator
