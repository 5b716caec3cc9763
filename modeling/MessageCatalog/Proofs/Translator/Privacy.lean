/-
  MessageCatalog.Proofs.Translator.Privacy
  ────────────────────────────────
  **WHAT IS NOT SAVED STAYS PRIVATE.**

  Translators share a session and a cache.  A translation that one of them sets is in its
  own dictionary only, but others may notice that it is there: what is found is not recorded
  as pending, and what is pending is the original with which a translation is set.

      A sets    A finds                     B sets: the message alone
      A loads   A misses, it is pending     B sets: the message and its plural

  The first run is the one that happens, the second one has every translation that A sets
  replaced by loading.  Side by side their states differ in the session and in the
  dictionary of A (`Beside`), and of the others' dictionaries only in originals that no
  lookup sees (`Dictionary.Alike`).  So the others hear the same answers, and the cache is the
  same (`unsaved_edits_stay_private`).
-/
import MessageCatalog.Proofs.Cache.Transparency
import MessageCatalog.Proofs.Translator.Handover

namespace MessageCatalog

open MessageCatalog.Text

/-! ## §1. What a lookup sees of a dictionary. -/

/-- What a lookup sees of an entry: its key, its variants and its source. -/
def Entry.face (e : Entry) : String × List String × String :=
  (e.key, e.translation, e.source)

/-- Dictionaries that answer alike: they have the same faces under the same keys, and the same
headers. -/
structure Dictionary.Alike (d d' : Dictionary) : Prop where
  face : ∀ key, (d.get? key).map Entry.face = (d'.get? key).map Entry.face
  metadata : d.metadata = d'.metadata

namespace Dictionary.Alike

variable {d d' : Dictionary}

theorem refl (d : Dictionary) : d.Alike d :=
  ⟨fun _ => rfl, rfl⟩

/-- Entries with one face are put into dictionaries that stay alike. -/
theorem insert (h : d.Alike d') {e e' : Entry} (hface : e.face = e'.face) :
    (d.insert e).Alike (d'.insert e') := by
  have hkey : e.key = e'.key := congrArg Prod.fst hface
  refine ⟨fun key => ?_, h.metadata⟩
  rw [get?_insert, get?_insert, hkey]
  split
  next => exact congrArg some hface
  next => exact h.face key

end Dictionary.Alike

namespace Translator

variable {t : Translator} {w : Workspace}

/-- The operation, or only loading if it sets a translation. -/
def Operation.hushed : Operation → Operation
  | .setTranslation _ _ _ => .ensureLoaded
  | op => op

/-- The text that the dictionary has for a message, if it has the message. -/
def found? (t : Translator) (message : String) (form : Form) : Option String :=
  (t.entry? message).map fun e => e.variant (t.pluralIndex e form.count)

/-- Dictionaries that are alike have the same texts. -/
theorem found?_with {d : Dictionary} (h : t.dictionary.Alike d) (message : String) (form : Form) :
    ({ t with dictionary := d } : Translator).found? message form = t.found? message form := by
  unfold found? entry?
  cases message.isEmpty with
  | true => rfl
  | false =>
      simp only [Bool.false_eq_true, if_false]
      have hface := h.face message
      cases he : t.dictionary.get? message with
      | none =>
          rw [he, Option.map_none, eq_comm, Option.map_eq_none_iff] at hface
          rw [hface]
          rfl
      | some e =>
          rw [he, Option.map_some, eq_comm, Option.map_eq_some_iff] at hface
          obtain ⟨e', he', hsame⟩ := hface
          have htranslation : e'.translation = e.translation := congrArg (·.2.1) hsame
          have hsource : e'.source = e.source := congrArg (·.2.2) hsame
          rw [he', Option.map_some, Option.map_some]
          unfold pluralIndex formula? Dictionary.metadataOf? Entry.variant
          rw [htranslation, hsource, h.metadata]

/-! ## §2. Translators in a session of trackers. -/

/-- In a session of trackers a pending message opens its forms. -/
theorem get_of_tracked (h : w.session.Tracked) (lang message : String) :
    ∃ forms, t.tracker.get w.session lang message = .ok forms
      ∧ (forms.getD [message]).headD "" = message := by
  obtain ⟨calls, hcalls⟩ := h
  refine ⟨_, hcalls.get t.tracker lang message, ?_⟩
  cases (t.tracker.awaited lang calls).get? message <;> rfl

/-- **In a session of trackers, a lookup fails only where loading does or the language is not
there.** -/
theorem result_lookup_of_tracked (h : w.session.Tracked) (message : String) (form : Form) :
    (t.lookup w message form).result
      = (t.ensureLoaded w).result.bind fun _ =>
          match (t.ensureLoaded w).translator.found? message form with
          | some text => .ok text
          | none => t.language.map fun _ => form.untranslated message := by
  have hlanguage := language_ensureLoaded t w
  have htracked : (t.ensureLoaded w).workspace.session.Tracked := by
    rw [session_ensureLoaded]
    exact h
  obtain ⟨calls, hcalls⟩ := htracked
  unfold lookup found?
  cases hload : t.ensureLoaded w with
  | mk result t' w' =>
      rw [hload] at hlanguage hcalls
      cases result with
      | error fault => rfl
      | ok u =>
          rw [Outcome.andThen_ok]
          cases hentry : t'.entry? message with
          | some e => rfl
          | none =>
              -- the message is recorded, and in a session of trackers no recording fails
              show (t'.miss w' message form).result = t.language.map _
              unfold miss
              rw [← hlanguage]
              cases t'.language with
              | error fault => rfl
              | ok lang =>
                  obtain ⟨session, calls', hrecord, -⟩ :=
                    hcalls.record t'.tracker lang message form.plural?
                  simp only [hrecord]
                  rfl

/-- **In a session of trackers, a translation is set in what is loaded** wherever there is a
language, and the entry has the face that was asked for. -/
theorem state_setTranslation_of_tracked (h : w.session.Tracked) (message : String)
    (translation : List String) (source : String) :
    ∃ e : Entry, e.face = (message, translation, source)
      ∧ (t.setTranslation w message translation source).state
        = match (t.ensureLoaded w).result.bind fun _ => t.language with
          | .ok _ => ⟨{ (t.ensureLoaded w).translator with
              dictionary := (t.ensureLoaded w).translator.dictionary.insert e },
                (t.ensureLoaded w).workspace⟩
          | .error _ => (t.ensureLoaded w).state := by
  have hlanguage := language_ensureLoaded t w
  have htracked : (t.ensureLoaded w).workspace.session.Tracked := by
    rw [session_ensureLoaded]
    exact h
  unfold setTranslation
  cases hload : t.ensureLoaded w with
  | mk result t' w' =>
      rw [hload] at hlanguage htracked
      cases result with
      | error fault => exact ⟨⟨[message], translation, source⟩, rfl, rfl⟩
      | ok u =>
          rw [Outcome.andThen_ok, ← hlanguage]
          cases hlang : t'.language with
          | error fault =>
              refine ⟨⟨[message], translation, source⟩, rfl, ?_⟩
              rfl
          | ok lang =>
              -- whatever is pending of the message opens with it
              obtain ⟨forms, hforms, hkey⟩ := get_of_tracked (t := t') htracked lang message
              refine ⟨⟨forms.getD [message], translation, source⟩, ?_, ?_⟩
              · unfold Entry.face Entry.key
                rw [hkey]
              · simp only [hforms]
                rfl

/-! ## §3. Two states side by side. -/

section Loading

variable (t w) (d : Dictionary) (σ : SessionStore) (lang : String)

/-- What is loaded depends on neither the dictionary nor the session. -/
theorem load_with :
    ({ t with dictionary := d } : Translator).load { w with session := σ } lang
      = ((t.load w lang).1, { (t.load w lang).2 with session := σ }) := by
  obtain ⟨sources, active, own, loaded, production, tracker, manager⟩ := t
  have hfiles : ∀ w' : Workspace,
      loadFromFiles ⟨sources, active, d, loaded, production, tracker, manager⟩
          { w' with session := σ } lang
        = ((loadFromFiles ⟨sources, active, own, loaded, production, tracker, manager⟩ w' lang).1,
            { (loadFromFiles ⟨sources, active, own, loaded, production, tracker, manager⟩ w'
              lang).2 with session := σ }) := by
    intro w'
    unfold loadFromFiles mergeSources
    simp only
    cases sources.pairs.foldlM (mergeSource w'.files lang) (Dictionary.empty, []) with
    | error fault => rfl
    | ok merged => cases production <;> rfl
  unfold load
  cases production with
  | false => exact hfiles w
  | true =>
      simp only [if_true]
      cases manager.get w.cache w.files w.clock lang with
      | mk found c =>
          cases found with
          | some cached => rfl
          | none => exact hfiles { w with cache := c }

/-- **Loading with another dictionary in another session** gives the same, and the dictionaries
are the same then or what they were. -/
theorem ensureLoaded_with :
    ∃ d', ({ t with dictionary := d } : Translator).ensureLoaded { w with session := σ }
        = ⟨(t.ensureLoaded w).result, { (t.ensureLoaded w).translator with dictionary := d' },
            { (t.ensureLoaded w).workspace with session := σ }⟩
      ∧ (d' = (t.ensureLoaded w).translator.dictionary
        ∨ d' = d ∧ (t.ensureLoaded w).translator.dictionary = t.dictionary) := by
  have hlanguage : ({ t with dictionary := d } : Translator).languageToLoad = t.languageToLoad :=
    rfl
  -- a dictionary is replaced only where one is loaded, and then it is the same in both
  by_cases hloaded : t.loaded = true
  · rw [ensureLoaded_of_loaded hloaded]
    exact ⟨d, ensureLoaded_of_loaded hloaded, Or.inr ⟨rfl, rfl⟩⟩
  · unfold ensureLoaded
    rw [if_neg hloaded, if_neg hloaded, hlanguage]
    cases t.languageToLoad with
    | error fault => exact ⟨d, rfl, Or.inr ⟨rfl, rfl⟩⟩
    | ok lang =>
        simp only [load_with]
        cases t.load w lang with
        | mk result w' =>
            cases result with
            | error fault => exact ⟨d, rfl, Or.inr ⟨rfl, rfl⟩⟩
            | ok loaded => exact ⟨loaded, rfl, Or.inl rfl⟩

end Loading

/-- States that differ only in the session, which trackers alone have written to, and in the
dictionary, where they are related. -/
structure Beside (R : Dictionary → Dictionary → Prop) (s s' : State) : Prop where
  translator : s'.translator = { s.translator with dictionary := s'.translator.dictionary }
  dictionary : R s.translator.dictionary s'.translator.dictionary
  workspace : s'.workspace = { s.workspace with session := s'.workspace.session }
  tracked : s.workspace.session.Tracked
  tracked' : s'.workspace.session.Tracked

namespace Beside

variable {R : Dictionary → Dictionary → Prop} {s s' r r' : State}

/-- Translators beside each other and workspaces beside each other may come from different
states. -/
theorem mix {R' : Dictionary → Dictionary → Prop} (h : Beside R s s') (hr : Beside R' r r') :
    Beside R ⟨s.translator, r.workspace⟩ ⟨s'.translator, r'.workspace⟩ :=
  ⟨h.translator, h.dictionary, hr.workspace, hr.tracked, hr.tracked'⟩

theorem language (h : Beside R s s') : s'.translator.language = s.translator.language := by
  rw [h.translator]
  rfl

theorem cache (h : Beside R s s') : s'.workspace.cache = s.workspace.cache := by
  rw [h.workspace]

theorem files (h : Beside R s s') : s'.workspace.files = s.workspace.files := by
  rw [h.workspace]

/-- Registering a source keeps states beside each other. -/
theorem addSource (h : Beside R s s') (dir identifier : String) :
    Beside R (s.apply (.addSource dir identifier)) (s'.apply (.addSource dir identifier)) := by
  have hsources : s'.translator.sources = s.translator.sources := by
    rw [h.translator]
  show Beside R (s.setUp (s.translator.addSource s.workspace.files dir identifier))
    (s'.setUp (s'.translator.addSource s'.workspace.files dir identifier))
  unfold Translator.addSource
  rw [hsources, h.files]
  split
  next => exact h
  next =>
    split
    next => exact h
    next =>
      refine ⟨?_, h.dictionary, h.workspace, h.tracked, h.tracked'⟩
      show ({ s'.translator with sources := _ } : Translator) = _
      rw [h.translator]
      rfl

section Reflexive

variable (hR : ∀ d, R d d)
include hR

/-- **Loading keeps states beside each other**, with the same result. -/
theorem ensureLoaded (h : Beside R s s') :
    (s'.translator.ensureLoaded s'.workspace).result
        = (s.translator.ensureLoaded s.workspace).result
      ∧ Beside R (s.translator.ensureLoaded s.workspace).state
          (s'.translator.ensureLoaded s'.workspace).state := by
  obtain ⟨d', hload, hd'⟩ := ensureLoaded_with s.translator s.workspace s'.translator.dictionary
    s'.workspace.session
  rw [← h.translator, ← h.workspace] at hload
  rw [hload]
  refine ⟨rfl, rfl, ?_, rfl, ?_, h.tracked'⟩
  · show R (s.translator.ensureLoaded s.workspace).translator.dictionary d'
    rcases hd' with rfl | ⟨rfl, hsame⟩
    · exact hR _
    · rw [hsame]
      exact h.dictionary
  · show (s.translator.ensureLoaded s.workspace).workspace.session.Tracked
    rw [session_ensureLoaded]
    exact h.tracked

/-- Switching the language keeps states beside each other. -/
theorem setLang (h : Beside R s s') (lang : String) :
    Beside R (s.apply (.setLang lang)) (s'.apply (.setLang lang)) := by
  have hlang : s'.translator.lang = s.translator.lang := by
    rw [h.translator]
  show Beside R (s.setUp (s.translator.setLang lang)) (s'.setUp (s'.translator.setLang lang))
  unfold Translator.setLang
  rw [hlang]
  split
  next => exact h
  next =>
    split
    next => exact h
    next =>
      -- the language is another one, and nothing is loaded in either state
      refine ⟨?_, hR _, h.workspace, h.tracked, h.tracked'⟩
      show ({ s'.translator with lang := some lang, dictionary := .empty, loaded := false }
        : Translator) = _
      rw [h.translator]
      rfl

/-- A lookup, which may record the message in the session, keeps states beside each other. -/
theorem lookup (h : Beside R s s') (message : String) (form : Form) :
    Beside R (s.apply (.lookup message form)) (s'.apply (.lookup message form)) := by
  have hstate : ∀ s : State, ∃ σ, s.apply (.lookup message form)
      = ⟨(s.translator.ensureLoaded s.workspace).translator,
          { (s.translator.ensureLoaded s.workspace).workspace with session := σ }⟩ := by
    intro s
    rcases lookup_cases s.translator s.workspace message form with
      heq | ⟨lang, session, -, -, heq⟩
    · exact ⟨_, heq⟩
    · exact ⟨session, heq⟩
  -- one state may find what the other one records, so the sessions have nothing in common
  obtain ⟨σ, hσ⟩ := hstate s
  obtain ⟨σ', hσ'⟩ := hstate s'
  have htracked := tracked_apply h.tracked (.lookup message form)
  have htracked' := tracked_apply h.tracked' (.lookup message form)
  obtain ⟨-, hload⟩ := h.ensureLoaded hR
  rw [hσ] at htracked ⊢
  rw [hσ'] at htracked' ⊢
  refine ⟨hload.translator, hload.dictionary, ?_, htracked, htracked'⟩
  show ({ (s'.translator.ensureLoaded s'.workspace).workspace with session := σ' } : Workspace) = _
  have hworkspace : (s'.translator.ensureLoaded s'.workspace).workspace = _ := hload.workspace
  rw [hworkspace]
  rfl

/-- **An operation that neither sets a translation nor saves keeps states beside each other.** -/
theorem apply (h : Beside R s s') {op : Operation} (hsave : ∀ source now, op ≠ .save source now)
    (hset : op.hushed = op) : Beside R (s.apply op) (s'.apply op) := by
  cases op with
  | addSource dir identifier => exact h.addSource dir identifier
  | setLang lang => exact h.setLang hR lang
  | setProductionMode on =>
      refine ⟨?_, h.dictionary, h.workspace, h.tracked, h.tracked'⟩
      show s'.translator.setProductionMode on = _
      rw [h.translator]
      rfl
  | ensureLoaded | variantsCount | stringsOf | groupedStrings =>
      rw [apply_of_onlyLoads rfl, apply_of_onlyLoads rfl]
      exact (h.ensureLoaded hR).2
  | lookup message form => exact h.lookup hR message form
  | setTranslation => cases hset
  | save source now => exact absurd rfl (hsave source now)
  | pass seconds =>
      refine ⟨h.translator, h.dictionary, ?_, h.tracked, h.tracked'⟩
      show ({ s'.workspace with clock := s'.workspace.clock + seconds } : Workspace) = _
      rw [h.workspace]
      rfl

/-- Setting a translation in both states keeps them beside each other, if the relation is kept
by entries of one face. -/
theorem setTranslation (hinsert : ∀ {d d' : Dictionary} {e e' : Entry}, R d d' →
      e.face = e'.face → R (d.insert e) (d'.insert e'))
    (h : Beside R s s') (message : String) (translation : List String) (source : String) :
    Beside R (s.apply (.setTranslation message translation source))
      (s'.apply (.setTranslation message translation source)) := by
  obtain ⟨e, hface, hstate⟩ :=
    s.translator.state_setTranslation_of_tracked h.tracked message translation source
  obtain ⟨e', hface', hstate'⟩ :=
    s'.translator.state_setTranslation_of_tracked h.tracked' message translation source
  obtain ⟨hresult, hload⟩ := h.ensureLoaded hR
  show Beside R (s.translator.setTranslation s.workspace _ _ _).state
    (s'.translator.setTranslation s'.workspace _ _ _).state
  rw [hstate, hstate', hresult, h.language]
  split
  next =>
    refine ⟨?_, hinsert hload.dictionary (hface.trans hface'.symm), hload.workspace,
      hload.tracked, hload.tracked'⟩
    have htranslator : (s'.translator.ensureLoaded s'.workspace).translator = _ := hload.translator
    rw [htranslator]
    rfl
  next => exact hload

end Reflexive

/-- **Translations that are set in one state only** keep states beside each other as far as the
dictionaries do not matter. -/
theorem hushed (hR : ∀ d d', R d d') (h : Beside R s s') {op : Operation}
    (hsave : ∀ source now, op ≠ .save source now) : Beside R (s.apply op) (s'.apply op.hushed) := by
  have hrefl : ∀ d, R d d := fun d => hR d d
  cases op with
  | setTranslation message translation source =>
      obtain ⟨e, -, hstate⟩ :=
        s.translator.state_setTranslation_of_tracked h.tracked message translation source
      obtain ⟨-, hload⟩ := h.ensureLoaded hrefl
      show Beside R (s.translator.setTranslation s.workspace _ _ _).state
        (s'.translator.ensureLoaded s'.workspace).state
      rw [hstate]
      split
      next => exact ⟨hload.translator, hR _ _, hload.workspace, hload.tracked, hload.tracked'⟩
      next => exact hload
  | addSource | setLang | setProductionMode | ensureLoaded | lookup | variantsCount | stringsOf
  | groupedStrings | save | pass => exact h.apply hrefl hsave rfl

/-- **Where the dictionaries are alike, lookups give the same.** -/
theorem result_lookup (h : Beside Dictionary.Alike s s') (message : String) (form : Form) :
    (s'.translator.lookup s'.workspace message form).result
      = (s.translator.lookup s.workspace message form).result := by
  obtain ⟨hresult, hload⟩ := h.ensureLoaded Dictionary.Alike.refl
  have htranslator : (s'.translator.ensureLoaded s'.workspace).translator = _ := hload.translator
  have hfound : (s'.translator.ensureLoaded s'.workspace).translator.found? message form
      = (s.translator.ensureLoaded s.workspace).translator.found? message form := by
    rw [htranslator]
    exact found?_with hload.dictionary message form
  rw [result_lookup_of_tracked h.tracked', result_lookup_of_tracked h.tracked, hresult, hfound,
    h.language]

end Beside

end Translator

/-! ## §4. Translators that share a workspace. -/

/-- Translators, each under its name, and the workspace they share. -/
structure Team (ι : Type) where
  translators : ι → Translator
  workspace : Workspace

namespace Team

/-- What can happen to translators that share a workspace. -/
inductive Event (ι : Type) where
  /-- One of them does something. -/
  | own (i : ι) (op : Translator.Operation)
  /-- One of them lists its sources. -/
  | list (i : ι)
  /-- A tracker is called. -/
  | call (c : Tracker.Call)
  /-- The files become others. -/
  | change (files : FileSystem)

/-- The event with the translations that `a` sets replaced by loading. -/
def Event.hushed {ι : Type} [DecidableEq ι] (a : ι) : Event ι → Event ι
  | .own i op => .own i (if i = a then op.hushed else op)
  | e => e

section Runs

variable {ι : Type} [DecidableEq ι]

/-- One of the translators in the workspace. -/
def state (τ : Team ι) (i : ι) : Translator.State :=
  ⟨τ.translators i, τ.workspace⟩

/-- What one of the translators is answered when it looks a message up. -/
def answer (τ : Team ι) (i : ι) (message : String) (form : Form) : Except CatalogError String :=
  ((τ.translators i).lookup τ.workspace message form).result

/-- The team after one of the translators has come to a state. -/
def withState (τ : Team ι) (i : ι) (s : Translator.State) : Team ι :=
  ⟨Function.update τ.translators i s.translator, s.workspace⟩

/-- The team after an event. -/
def after (τ : Team ι) : Event ι → Team ι
  | .own i op => τ.withState i ((τ.state i).apply op)
  | .list i => τ.withState i ((τ.translators i).listSources τ.workspace).state
  | .call c => { τ with workspace := { τ.workspace with session := c.apply τ.workspace.session } }
  | .change files => { τ with workspace := { τ.workspace with files := files } }

/-- The team after a sequence of events. -/
def through (τ : Team ι) (events : List (Event ι)) : Team ι :=
  events.foldl after τ

variable {a : ι} {τ τ' : Team ι}

/-- Teams that differ in the session, in the dictionary of `a`, and in what no lookup sees of the
others' dictionaries. -/
def Parallel (a : ι) (τ τ' : Team ι) : Prop :=
  ∀ i, Translator.Beside (fun d d' => i ≠ a → d.Alike d') (τ.state i) (τ'.state i)

/-- A step of one translator keeps teams parallel if it keeps its states beside each other. -/
theorem Parallel.withState (h : Parallel a τ τ') {i : ι} {s s' : Translator.State}
    (hs : Translator.Beside (fun d d' => i ≠ a → d.Alike d') s s') :
    Parallel a (τ.withState i s) (τ'.withState i s') := by
  intro j
  by_cases hj : j = i
  · subst hj
    simp only [Team.withState, state, Function.update_self]
    exact hs
  · -- the others keep their translators and are in the new workspaces
    simp only [Team.withState, state, Function.update_of_ne hj]
    exact (h j).mix hs

/-- An operation keeps teams parallel, and so it does if `a` sets its translations in one only. -/
theorem Parallel.own (h : Parallel a τ τ') (i : ι) {op : Translator.Operation}
    (hsave : ∀ source now, op ≠ .save source now) :
    Parallel a (τ.after (.own i op)) (τ'.after ((Event.own i op).hushed a)) := by
  refine h.withState ?_
  by_cases hi : i = a
  · rw [if_pos hi]
    exact (h i).hushed (fun _ _ hne => absurd hi hne) hsave
  · rw [if_neg hi]
    have hrefl : ∀ d : Dictionary, i ≠ a → d.Alike d := fun d _ => .refl d
    cases op with
    | setTranslation message translation source =>
        exact (h i).setTranslation hrefl (fun hd hface hne => (hd hne).insert hface) message
          translation source
    | addSource | setLang | setProductionMode | ensureLoaded | lookup | variantsCount | stringsOf
    | groupedStrings | save | pass => exact (h i).apply hrefl hsave rfl

/-- **An event keeps teams parallel.** -/
theorem Parallel.after (h : Parallel a τ τ') {e : Event ι}
    (hsave : ∀ i source now, e ≠ .own i (.save source now)) :
    Parallel a (τ.after e) (τ'.after (e.hushed a)) := by
  cases e with
  | own i op => exact h.own i fun source now hop => hsave i source now (congrArg _ hop)
  | list i =>
      refine h.withState ?_
      rw [Translator.state_listSources, Translator.state_listSources]
      exact ((h i).ensureLoaded fun d _ => .refl d).2
  | call c =>
      intro i
      have hworkspace : τ'.workspace = _ := (h i).workspace
      refine ⟨(h i).translator, (h i).dictionary, ?_, (h i).tracked.apply c, (h i).tracked'.apply c⟩
      show ({ τ'.workspace with session := c.apply τ'.workspace.session } : Workspace) = _
      rw [hworkspace]
      rfl
  | change files =>
      intro i
      have hworkspace : τ'.workspace = _ := (h i).workspace
      refine ⟨(h i).translator, (h i).dictionary, ?_, (h i).tracked, (h i).tracked'⟩
      show ({ τ'.workspace with files := files } : Workspace) = _
      rw [hworkspace]
      rfl

/-- **Teams stay parallel through any events without a save.** -/
theorem Parallel.through (h : Parallel a τ τ') {events : List (Event ι)}
    (hsave : ∀ i source now, .own i (.save source now) ∉ events) :
    Parallel a (τ.through events) (τ'.through (events.map (Event.hushed a))) := by
  induction events generalizing τ τ' with
  | nil => exact h
  | cons e events ih =>
      -- the first event is done by both teams, then the others follow from where they are
      refine ih (h.after fun i source now he => ?_) fun i source now hmem => ?_
      · exact hsave i source now (he ▸ List.mem_cons_self)
      · exact hsave i source now (List.mem_cons_of_mem _ hmem)

omit [DecidableEq ι] in
theorem parallel_self (a : ι) (h : τ.workspace.session.Tracked) : Parallel a τ τ :=
  fun _ => ⟨rfl, fun _ => .refl _, rfl, h, h⟩

/-- **Unsaved edits stay private.**  Translators share a session that only trackers write to, and a
cache, while files and time change, and none of them saves.  Whether `a` sets translations or only
loads wherever it sets one, the cache is the same, and so is what every other translator is
answered whenever it looks a message up. -/
theorem unsaved_edits_stay_private (a : ι) {start : Team ι} {events : List (Event ι)}
    (hstart : start.workspace.session.Tracked)
    (hsave : ∀ i source now, .own i (.save source now) ∉ events) :
    (start.through (events.map (Event.hushed a))).workspace.cache
        = (start.through events).workspace.cache
      ∧ ∀ (before rest : List (Event ι)) (i : ι) (message : String) (form : Form),
          events = before ++ .own i (.lookup message form) :: rest → i ≠ a →
          (start.through (before.map (Event.hushed a))).answer i message form
            = (start.through before).answer i message form := by
  refine ⟨(((parallel_self a hstart).through hsave) a).cache, ?_⟩
  intro before rest i message form hevents hi
  have hbefore : ∀ i source now, .own i (.save source now) ∉ before := by
    intro j source now hmem
    exact hsave j source now (hevents ▸ List.mem_append_left _ hmem)
  -- the dictionaries of all but `a` are alike when the message is looked up
  have hparallel := ((parallel_self a hstart).through hbefore) i
  have halike : Translator.Beside Dictionary.Alike _ _ :=
    ⟨hparallel.translator, hparallel.dictionary hi, hparallel.workspace, hparallel.tracked,
      hparallel.tracked'⟩
  exact halike.result_lookup message form

end Runs

/-- Two translators for Czech that use the cache. -/
def readers : Team Bool where
  translators _ := czechReader
  workspace := Translator.startOf (Translator.treeOf [("cs.a.mo", Translator.greeting, 1)])

/-- The first one sets a translation and finds it, then the second one sets its own. -/
def editing : List (Event Bool) :=
  [.own false (.setTranslation "Dog" ["Pes"] "a"),
    .own false (.lookup "Dog" (.withPlural "Dogs" 2)),
    .own true (.setTranslation "Dog" ["Psi"] "a"), .own true (.lookup "Dog" .one)]

/-- With what the first one sets, the second one sets its translation of the message alone; without
it, of the message and its plural.  It is answered the same. -/
theorem unsaved_edits_stay_private_dogs :
    ((readers.through (editing.take 3)).translators true).dictionary.get? "Dog"
        = some ⟨["Dog"], ["Psi"], "a"⟩
      ∧ ((readers.through ((editing.take 3).map (Event.hushed false))).translators
          true).dictionary.get? "Dog" = some ⟨["Dog", "Dogs"], ["Psi"], "a"⟩
      ∧ (readers.through (editing.map (Event.hushed false))).workspace.cache
        = (readers.through editing).workspace.cache
      ∧ (readers.through ((editing.take 3).map (Event.hushed false))).answer true "Dog" .one
        = .ok "Psi" := by
  have hsave : ∀ i source now, .own i (.save source now) ∉ editing := by
    intro i source now hmem
    simp [editing] at hmem
  obtain ⟨hcache, hlookup⟩ :=
    @unsaved_edits_stay_private Bool _ false readers editing SessionStore.tracked_empty hsave
  refine ⟨by decide +kernel, by decide +kernel, hcache, ?_⟩
  rw [hlookup (editing.take 3) [] true "Dog" .one rfl (by decide)]
  decide +kernel

end Team

end MessageCatalog
