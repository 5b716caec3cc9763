/-
  MessageCatalog.Proofs.Translator.Operations
  ────────────────────────────────
  **A TRANSLATOR AT WORK.**

  All that can be done with a translator are the operations listed here, in any order,
  each of them with whatever result (`State.apply`).  Most of them load first and then
  only look; so what an operation can change is what loading changes (`ensureLoaded_cases`)
  and little else: looking a message up may record it as pending, setting a translation
  puts one entry into the dictionary, and saving writes the two files of its source and
  settles the session.
-/
import MessageCatalog.Proofs.Translator.Saving
import MessageCatalog.Translator.Editing

namespace MessageCatalog.Translator

variable {t : Translator} {w : Workspace}

/-! ## §1. Operations. -/

/-- A translator and the workspace that it works in. -/
structure State where
  translator : Translator
  workspace : Workspace

/-- What can be done. -/
inductive Operation where
  | addSource (dir identifier : String)
  | setLang (lang : String)
  | setProductionMode (on : Bool)
  | ensureLoaded
  | lookup (message : String) (form : Form)
  | setTranslation (message : String) (translation : List String) (source : String)
  | variantsCount
  | stringsOf (source : String)
  | groupedStrings
  | save (source : String) (now : Moment)
  /-- Time passes in between. -/
  | pass (seconds : Nat)

/-- What an outcome leaves, its answer or its fault aside. -/
def Outcome.state {α : Type} (o : Outcome α) : State :=
  ⟨o.translator, o.workspace⟩

namespace State

/-- The state with the translator set up anew; a fault leaves it as it was. -/
def setUp (s : State) (result : Except CatalogError Translator) : State :=
  match result with
  | .ok t => ⟨t, s.workspace⟩
  | .error _ => s

/-- The state after an operation. -/
def apply (s : State) : Operation → State
  | .addSource dir identifier =>
      s.setUp (s.translator.addSource s.workspace.files dir identifier)
  | .setLang lang => s.setUp (s.translator.setLang lang)
  | .setProductionMode on => ⟨s.translator.setProductionMode on, s.workspace⟩
  | .ensureLoaded => (s.translator.ensureLoaded s.workspace).state
  | .lookup message form => (s.translator.lookup s.workspace message form).state
  | .setTranslation message translation source =>
      (s.translator.setTranslation s.workspace message translation source).state
  | .variantsCount => (s.translator.variantsCount s.workspace).state
  | .stringsOf source => (s.translator.stringsOf s.workspace source).state
  | .groupedStrings => (s.translator.groupedStrings s.workspace).state
  | .save source now => (s.translator.save s.workspace source now).state
  | .pass seconds =>
      ⟨s.translator, { s.workspace with clock := s.workspace.clock + seconds }⟩

/-- The state after a sequence of operations. -/
def run (s : State) (ops : List Operation) : State :=
  ops.foldl apply s

/-- Each operation of a sequence is allowed where it is done. -/
def Admits (allowed : State → Operation → Prop) : State → List Operation → Prop
  | _, [] => True
  | s, op :: ops => allowed s op ∧ Admits allowed (s.apply op) ops

/-- **What every allowed operation keeps is kept by a run.** -/
theorem run_induction {allowed : State → Operation → Prop} {P : State → Prop}
    (hstep : ∀ s op, P s → allowed s op → P (s.apply op)) {s : State} {ops : List Operation}
    (hops : s.Admits allowed ops) (hs : P s) : P (s.run ops) := by
  induction ops generalizing s with
  | nil => exact hs
  | cons op ops ih => exact ih hops.2 (hstep s op hs hops.1)

end State

/-! ## §2. Setting up. -/

theorem addSource_eq_ok_iff {fs : FileSystem} {dir identifier : String} {t' : Translator} :
    t.addSource fs dir identifier = .ok t'
      ↔ identifier ∉ t.sources.keys ∧ fs.isDirectory dir = true
        ∧ t' = { t with sources := t.sources.insert identifier dir } := by
  have hcontains : t.sources.contains identifier = true ↔ identifier ∈ t.sources.keys := by
    unfold OrderedMap.contains
    rw [← not_iff_not, ← OrderedMap.get?_eq_none_iff, Option.not_isSome_iff_eq_none]
  unfold addSource
  rw [← hcontains]
  cases t.sources.contains identifier <;> cases fs.isDirectory dir <;>
    simp [eq_comm (a := t')]

theorem setLang_eq_ok_iff {lang : String} {t' : Translator} :
    t.setLang lang = .ok t'
      ↔ Text.isBlank lang = false
        ∧ t' = (if t.lang = some lang then t
            else { t with lang := some lang, dictionary := .empty, loaded := false }) := by
  unfold setLang
  cases Text.isBlank lang with
  | true => simp
  | false =>
      by_cases h : t.lang = some lang
      · simp [h, eq_comm (a := t')]
      · simp [h, eq_comm (a := t')]

/-! ## §3. Loading first. -/

theorem Outcome.state_andThen {α β : Type} (o : Outcome α)
    (next : α → Translator → Workspace → Outcome β) :
    (o.andThen next).state = match o.result with
      | .ok a => (next a o.translator o.workspace).state
      | .error _ => o.state := by
  obtain ⟨result, t, w⟩ := o
  cases result <;> rfl

/-- What only looks changes nothing. -/
theorem Outcome.state_andThen_of_looking {α β : Type} {o : Outcome α}
    {next : α → Translator → Workspace → Outcome β}
    (h : ∀ a t w, (next a t w).state = ⟨t, w⟩) : (o.andThen next).state = o.state := by
  rw [Outcome.state_andThen]
  cases o.result with
  | ok a => exact h a o.translator o.workspace
  | error fault => rfl

/-- Readable sources are loaded when the cache is not used. -/
theorem apply_ensureLoaded_of_readable {lang : String} (hunloaded : t.loaded = false)
    (hdevelopment : t.productionMode = false) (hlang : t.languageToLoad = .ok lang)
    (hreadable : ∀ source ∈ t.sources.pairs, Readable w.files lang source) :
    State.apply ⟨t, w⟩ .ensureLoaded
      = ⟨t.withDictionary (dictionaryIn w.files lang t.sources), w⟩ := by
  show (t.ensureLoaded w).state = _
  rw [ensureLoaded_of_readable hunloaded hdevelopment hlang hreadable]
  rfl

theorem state_variantsCount : (t.variantsCount w).state = (t.ensureLoaded w).state :=
  Outcome.state_andThen_of_looking fun _ _ _ => rfl

theorem state_listSources : (t.listSources w).state = (t.ensureLoaded w).state :=
  Outcome.state_andThen_of_looking fun _ _ _ => rfl

theorem state_activePending : (t.activePending w).state = (t.ensureLoaded w).state := by
  apply Outcome.state_andThen_of_looking
  intro _ t w
  cases t.language <;> rfl

theorem state_stringsOf {source : String} :
    (t.stringsOf w source).state = (t.ensureLoaded w).state := by
  rw [← state_activePending]
  exact Outcome.state_andThen_of_looking fun _ _ _ => rfl

theorem state_groupedStrings : (t.groupedStrings w).state = (t.ensureLoaded w).state := by
  rw [← state_activePending]
  exact Outcome.state_andThen_of_looking fun _ _ _ => rfl

/-- Operations that load the dictionary and then only look. -/
def Operation.onlyLoads : Operation → Bool
  | .ensureLoaded | .variantsCount | .stringsOf _ | .groupedStrings => true
  | _ => false

theorem apply_of_onlyLoads {s : State} {op : Operation} (h : op.onlyLoads = true) :
    s.apply op = (s.translator.ensureLoaded s.workspace).state := by
  cases op with
  | ensureLoaded => rfl
  | variantsCount => exact state_variantsCount
  | stringsOf source => exact state_stringsOf
  | groupedStrings => exact state_groupedStrings
  | addSource | setLang | setProductionMode | lookup | setTranslation | save | pass => cases h

/-- **Looking a message up** loads, and may record the message in the session. -/
theorem lookup_cases (t : Translator) (w : Workspace) (message : String) (form : Form) :
    (t.lookup w message form).state = (t.ensureLoaded w).state
      ∨ ∃ lang session, (t.ensureLoaded w).translator.language = .ok lang
        ∧ (t.ensureLoaded w).translator.tracker.record (t.ensureLoaded w).workspace.session lang
            message form.plural? = .ok session
        ∧ (t.lookup w message form).state
            = ⟨(t.ensureLoaded w).translator,
                { (t.ensureLoaded w).workspace with session := session }⟩ := by
  unfold lookup
  rw [Outcome.state_andThen]
  cases (t.ensureLoaded w).result with
  | error fault => exact Or.inl rfl
  | ok u =>
      cases hentry : (t.ensureLoaded w).translator.entry? message with
      | some e => exact Or.inl rfl
      | none =>
          show (miss _ _ message form).state = _ ∨ _
          unfold miss
          cases hlang : (t.ensureLoaded w).translator.language with
          | error fault => exact Or.inl rfl
          | ok lang =>
              cases hrecord : (t.ensureLoaded w).translator.tracker.record
                  (t.ensureLoaded w).workspace.session lang message form.plural? with
              | error fault => exact Or.inl (by simp only [hrecord]; rfl)
              | ok session =>
                  exact Or.inr ⟨lang, session, rfl, hrecord, by simp only [hrecord]; rfl⟩

/-- A message that the dictionary does not have is recorded. -/
theorem lookup_of_missing {t' : Translator} {w' : Workspace} {lang message : String} {form : Form}
    {session : SessionStore} (hload : t.ensureLoaded w = ⟨.ok (), t', w'⟩)
    (hentry : t'.entry? message = none) (hlang : t'.language = .ok lang)
    (hrecord : t'.tracker.record w'.session lang message form.plural? = .ok session) :
    t.lookup w message form
      = ⟨.ok (form.untranslated message), t', { w' with session := session }⟩ := by
  unfold lookup
  rw [hload, Outcome.andThen_ok]
  unfold miss
  simp only [hentry, hlang, hrecord]
  rfl

/-- A translation that is set takes over the forms that are pending of the message. -/
theorem setTranslation_of_pending {t' : Translator} {w' : Workspace} {lang message source : String}
    {translation : List String} {forms : Option (List String)}
    (hload : t.ensureLoaded w = ⟨.ok (), t', w'⟩) (hlang : t'.language = .ok lang)
    (hget : t'.tracker.get w'.session lang message = .ok forms) :
    t.setTranslation w message translation source
      = ⟨.ok (), { t' with
          dictionary := t'.dictionary.insert ⟨forms.getD [message], translation, source⟩ }, w'⟩ := by
  unfold setTranslation
  rw [hload, Outcome.andThen_ok]
  simp only [hlang, hget]
  rfl

/-- **Setting a translation** loads, and then it fails or puts one entry into the dictionary, whose
original is what is pending of the message or else the message. -/
theorem setTranslation_outcome (t : Translator) (w : Workspace) (message : String)
    (translation : List String) (source : String) :
    (∃ fault, t.setTranslation w message translation source
        = ⟨.error fault, (t.ensureLoaded w).translator, (t.ensureLoaded w).workspace⟩)
      ∨ ∃ lang forms, (t.ensureLoaded w).result = .ok ()
        ∧ (t.ensureLoaded w).translator.language = .ok lang
        ∧ (t.ensureLoaded w).translator.tracker.get (t.ensureLoaded w).workspace.session lang
            message = .ok forms
        ∧ t.setTranslation w message translation source
            = ⟨.ok (), { (t.ensureLoaded w).translator with
                  dictionary := (t.ensureLoaded w).translator.dictionary.insert
                    ⟨forms.getD [message], translation, source⟩ },
                (t.ensureLoaded w).workspace⟩ := by
  cases hload : t.ensureLoaded w with
  | mk result t' w' =>
      cases result with
      | error fault =>
          refine Or.inl ⟨fault, ?_⟩
          unfold setTranslation
          rw [hload]
          rfl
      | ok u =>
          cases hlang : t'.language with
          | error fault =>
              refine Or.inl ⟨fault, ?_⟩
              unfold setTranslation
              rw [hload, Outcome.andThen_ok, hlang]
              rfl
          | ok lang =>
              cases hget : t'.tracker.get w'.session lang message with
              | error fault =>
                  refine Or.inl ⟨fault, ?_⟩
                  unfold setTranslation
                  rw [hload, Outcome.andThen_ok]
                  simp only [hlang, hget]
                  rfl
              | ok forms =>
                  exact Or.inr ⟨lang, forms, rfl, rfl, hget,
                    setTranslation_of_pending hload hlang hget⟩

/-- What setting a translation leaves: what loading leaves, or one entry more. -/
theorem setTranslation_cases (t : Translator) (w : Workspace) (message : String)
    (translation : List String) (source : String) :
    (t.setTranslation w message translation source).state = (t.ensureLoaded w).state
      ∨ ∃ lang forms, (t.ensureLoaded w).translator.language = .ok lang
        ∧ (t.ensureLoaded w).translator.tracker.get (t.ensureLoaded w).workspace.session lang
            message = .ok forms
        ∧ (t.setTranslation w message translation source).state
            = ⟨{ (t.ensureLoaded w).translator with
                  dictionary := (t.ensureLoaded w).translator.dictionary.insert
                    ⟨forms.getD [message], translation, source⟩ },
                (t.ensureLoaded w).workspace⟩ := by
  rcases setTranslation_outcome t w message translation source with
    ⟨fault, heq⟩ | ⟨lang, forms, -, hlang, hget, heq⟩ <;> rw [heq]
  · exact Or.inl rfl
  · exact Or.inr ⟨lang, forms, hlang, hget, rfl⟩

/-! ## §4. Saving. -/

/-- **Saving**, whether it succeeds or not, leaves the translator alone; it has done nothing,
or it has written to the files, and then it may have settled the session and the cache. -/
theorem save_cases (t : Translator) (w : Workspace) (source : String) (now : Moment) :
    (t.save w source now).state = ⟨t, w⟩
      ∨ ∃ x session cache, t.exportOf w.session source now.stamp = .ok x
        ∧ (session = w.session ∨ ∃ lang, t.tracker.clear w.session lang = .ok session)
        ∧ (t.save w source now).state
            = ⟨t, { w with
                files := (x.writeTo w.files now.seconds).2, session := session, cache := cache }⟩ := by
  unfold save
  cases hexport : t.exportOf w.session source now.stamp with
  | error fault => exact Or.inl rfl
  | ok x =>
      right
      cases hwrite : x.writeTo w.files now.seconds with
      | mk result fs =>
          cases result with
          | error fault =>
              refine ⟨x, w.session, w.cache, rfl, Or.inl rfl, ?_⟩
              simp only [hwrite]
              rfl
          | ok u =>
              -- both files are written; what may still fail is the session
              cases hsettle : t.language.bind (t.settle { w with files := fs }) with
              | error fault =>
                  refine ⟨x, w.session, w.cache, rfl, Or.inl rfl, ?_⟩
                  simp only [hwrite, hsettle]
                  rfl
              | ok w' =>
                  obtain ⟨lang, -, hsettled⟩ := bind_eq_ok_iff.1 hsettle
                  obtain ⟨session, hclear, hw'⟩ := settle_eq_ok_iff.1 hsettled
                  refine ⟨x, session, w'.cache, rfl, Or.inr ⟨lang, hclear⟩, ?_⟩
                  simp only [hwrite, hsettle]
                  rw [hw']
                  split <;> rfl

end MessageCatalog.Translator
