/-
  MessageCatalog.Proofs.Translator.Answers
  ────────────────────────────────
  **WHAT A MESSAGE IS ANSWERED WITH.**

  A message that the dictionary has is answered from its entry, and nothing changes.  Which
  variant it is depends on the header of the entry's own source (`Selects`); a header that is
  missing or cannot be evaluated never makes the lookup fail.

  All other messages answer for themselves.  What is left of such a lookup is one message more
  that is pending in the active language, with the forms it was asked for (`Tracker.Adds`).
  Whether recording is possible does not say whether the session keeps what it is given, so the
  two are told apart: a session that keeps nothing is left as it was, as by a lookup that records
  nothing.
-/
import MessageCatalog.Proofs.Session.Recorded
import MessageCatalog.Proofs.Translator.Operations

namespace MessageCatalog

open MessageCatalog.Text

/-! ## §1. What a recording adds. -/

/-- Recording a message changes what is pending in its language as if it was inserted there. -/
theorem Pending.forLanguage_record (p : Pending) (lang : String) {original : String}
    (h : isBlank original = false) (forms : List String) :
    (p.record lang original forms).forLanguage lang
      = (p.forLanguage lang).insert original forms := by
  have hkept : (!isBlank original) = true := by
    rw [h]
    rfl
  unfold Pending.forLanguage Pending.record
  rw [OrderedMap.get?_insert, if_pos rfl, Option.getD_some]
  exact OrderedMap.filter_insert (fun original => !isBlank original) hkept _ forms

namespace Tracker

variable {u : Tracker} {s s' : SessionStore} {lang original : String} {plural : Option String}

/-- A session has one message more that is pending in a language of the tracker's namespace, or
other forms of it, and all else in it is as it was. -/
structure Adds (u : Tracker) (lang original : String) (forms : List String) (s s' : SessionStore) :
    Prop where
  own : ∀ v : Tracker, v.ns = u.ns → ∃ strings,
    v.pending s lang = .ok strings ∧ v.pending s' lang = .ok (strings.insert original forms)
  others : ∀ (v : Tracker) (lang' : String), v.ns ≠ u.ns ∨ lang' ≠ lang →
    v.pending s' lang' = v.pending s lang'
  values : ∀ ns key, ns ≠ u.ns ∨ key ≠ newStringsKey → s'.load ns key = s.load ns key

/-- A recording as a call. -/
theorem apply_of_record (h : u.record s lang original plural = .ok s') :
    (Call.record u lang original plural).apply s = s' := by
  rw [Call.apply_record, h]
  rfl

/-- **Recording adds one message** that is not blank, where recording is possible and the session
keeps what is stored. -/
theorem adds_of_record (hkeeps : s.keeps = true) (hcan : u.canRecord = true)
    (hblank : isBlank original = false) (h : u.record s lang original plural = .ok s') :
    u.Adds lang original (original :: plural.toList) s s' := by
  obtain ⟨p, hp⟩ : ∃ p, stored s u.ns = .ok p := by
    unfold record accepts at h
    rw [hblank, hcan] at h
    obtain ⟨p, hp, -⟩ := bind_eq_ok_iff.1 h
    exact ⟨p, hp⟩
  have hstore := record_of_stored hcan hblank hp lang plural
  rw [h, Except.ok.injEq] at hstore
  have happly := apply_of_record h
  constructor
  · -- whoever shares the namespace reads what was stored
    intro v hns
    have hafter := stored_apply_record hcan hblank hp lang plural v.ns
    rw [happly, if_pos ⟨hkeeps, hns.symm⟩] at hafter
    refine ⟨p.forLanguage lang, ?_, ?_⟩
    · unfold pending
      rw [decode_load, hns, hp]
      rfl
    · unfold pending
      rw [decode_load, hafter, ← p.forLanguage_record lang hblank]
      rfl
  · intro v lang' hother
    rw [← happly]
    exact pending_apply_of_ne hother s
  · -- there is one store, and it is under the key of the namespace
    intro ns key hother
    rw [hstore]
    unfold store
    rw [SessionStore.load_store, if_neg]
    rintro ⟨-, heq⟩
    obtain ⟨hns, hkey⟩ := Prod.ext_iff.1 heq
    rcases hother with hne | hne
    · exact hne hns.symm
    · exact hne hkey.symm

/-- A session that keeps nothing is left as it was. -/
theorem eq_of_record_of_not_keeps (hkeeps : s.keeps = false)
    (h : u.record s lang original plural = .ok s') : s' = s := by
  rcases record_cases h with rfl | ⟨p, -, rfl⟩
  · rfl
  · exact SessionStore.store_of_not_keeps hkeeps ..

/-- **Nothing is recorded** where it is not possible, nothing blank, and nothing that the session
does not keep. -/
theorem eq_of_record
    (hidle : u.canRecord = false ∨ isBlank original = true ∨ s.keeps = false)
    (h : u.record s lang original plural = .ok s') : s' = s := by
  rcases hidle with hcan | hblank | hkeeps
  · rw [← apply_of_record h]
    exact apply_record_eq_self (Or.inl hcan) s lang plural
  · rw [← apply_of_record h]
    exact apply_record_eq_self (Or.inr hblank) s lang plural
  · exact eq_of_record_of_not_keeps hkeeps h

end Tracker

/-! ## §2. Which variant answers. -/

/-- Which variant a formula selects for a count.  Where there is no formula, or evaluating it
fails, counts above one get the second variant and all others the first. -/
inductive Selects : Option String → Nat → Nat → Prop
  | formula {header : String} {count index : Nat} (h : Plural.evaluate header count = .ok index) :
      Selects (some header) count index
  | missing {count : Nat} : Selects none count (if 1 < count then 1 else 0)
  | failing {header : String} {count : Nat} {fault : Plural.Fault}
      (h : Plural.evaluate header count = .error fault) :
      Selects (some header) count (if 1 < count then 1 else 0)

/-- The variant of an entry at an index: the first one if there is none, and no text if there are
no variants at all. -/
theorem Entry.variant_eq (e : Entry) (index : Nat) :
    e.variant index = (e.translation[index]?.or e.translation.head?).getD "" := by
  unfold Entry.variant
  cases hvariant : e.translation[index]? with
  | some text => rfl
  | none =>
      rw [Option.none_or, List.headD_eq_head?_getD]

namespace Translator

variable {t t' : Translator} {w w' : Workspace} {message text : String} {form : Form}

/-- **The index comes from the header of the entry's own source.** -/
theorem selects_pluralIndex (t : Translator) (e : Entry) (count : Nat) :
    Selects ((t.dictionary.metadataOf? e.source).bind Metadata.pluralForms?) count
      (t.pluralIndex e count) := by
  show Selects (t.formula? e.source) count (t.pluralIndex e count)
  unfold pluralIndex
  cases hformula : t.formula? e.source with
  | none => exact .missing
  | some header =>
      cases hindex : Plural.evaluate header count with
      | ok index =>
          simp only [hindex]
          exact .formula hindex
      | error fault =>
          simp only [hindex]
          exact .failing hindex

/-! ## §3. Lookups of a loaded translator. -/

/-- A message that the dictionary has is answered from its entry. -/
theorem lookup_of_entry (hloaded : t.loaded = true) {e : Entry} (he : t.entry? message = some e) :
    t.lookup w message form = ⟨.ok (e.variant (t.pluralIndex e form.count)), t, w⟩ := by
  have hload : t.ensureLoaded w = ⟨.ok (), t, w⟩ := ensureLoaded_of_loaded hloaded
  unfold lookup
  rw [hload, Outcome.andThen_ok]
  simp only [he]
  rfl

theorem entry?_eq_none_iff :
    t.entry? message = none ↔ message = "" ∨ t.dictionary.get? message = none := by
  unfold entry?
  by_cases hempty : message = ""
  · simp [hempty]
  · simp [hempty, String.isEmpty_iff]

/-- A message that the dictionary does not have is recorded, which changes the session at most. -/
theorem exists_record_of_lookup (hloaded : t.loaded = true) (hnone : t.entry? message = none)
    (h : t.lookup w message form = ⟨.ok text, t', w'⟩) :
    ∃ lang session, t.language = .ok lang
      ∧ t.tracker.record w.session lang message form.plural? = .ok session
      ∧ text = form.untranslated message ∧ t' = t ∧ w' = { w with session := session } := by
  have hload : t.ensureLoaded w = ⟨.ok (), t, w⟩ := ensureLoaded_of_loaded hloaded
  have hmiss : t.miss w message form = ⟨.ok text, t', w'⟩ := by
    unfold lookup at h
    rw [hload, Outcome.andThen_ok] at h
    simp only [hnone] at h
    exact h
  unfold miss at hmiss
  split at hmiss
  next => cases hmiss
  next lang hlang =>
    split at hmiss
    next => cases hmiss
    next session hsession =>
      cases hmiss
      exact ⟨lang, session, hlang, hsession, rfl, rfl, rfl⟩

/-- An answer comes with what the translator and the workspace are after it. -/
theorem Outcome.exists_eq_of_toOption {α : Type} {o : Outcome α} {a : α}
    (h : o.result.toOption = some a) : ∃ t w, o = ⟨.ok a, t, w⟩ := by
  obtain ⟨result, t, w⟩ := o
  have hresult : result = .ok a := toOption_eq_some_iff.1 h
  exact ⟨t, w, by rw [hresult]⟩

/-- The plural answers for counts above one, where one was given that is not empty. -/
theorem untranslated_cases (form : Form) (message : String) :
    (∃ plural, form.plural? = some plural ∧ 1 < form.count ∧ form.untranslated message = plural)
      ∨ (form.plural? = none ∨ form.count ≤ 1) ∧ form.untranslated message = message := by
  unfold Form.untranslated
  cases form.plural? with
  | none => exact Or.inr ⟨Or.inl rfl, rfl⟩
  | some plural =>
      by_cases hcount : 1 < form.count
      · exact Or.inl ⟨plural, rfl, hcount, if_pos hcount⟩
      · exact Or.inr ⟨Or.inr (Nat.not_lt.1 hcount), if_neg hcount⟩

/-- **Looking up a message.**

A message that the dictionary has is answered, whatever the header of its source holds, with the
variant that this header selects, and nothing changes.  Any other message is answered with its
plural or with itself.  If it is not blank and recording is possible, it becomes pending in the
active language with the forms of this lookup, in a session that keeps what it is given.  Nothing
else changes, and otherwise nothing does. -/
theorem answer_of_lookup (hloaded : t.loaded = true) (w : Workspace) (message : String)
    (form : Form) :
    (∀ e, message ≠ "" → t.dictionary.get? message = some e →
      ∃ index,
        Selects ((t.dictionary.metadataOf? e.source).bind Metadata.pluralForms?) form.count index
          ∧ t.lookup w message form
            = ⟨.ok ((e.translation[index]?.or e.translation.head?).getD ""), t, w⟩)
      ∧ (message = "" ∨ t.dictionary.get? message = none →
        ∀ text t' w', t.lookup w message form = ⟨.ok text, t', w'⟩ →
          ((∃ plural, form.plural? = some plural ∧ 1 < form.count ∧ text = plural)
              ∨ (form.plural? = none ∨ form.count ≤ 1) ∧ text = message)
            ∧ t' = t ∧ w' = { w with session := w'.session }
            ∧ (t.tracker.canRecord = true ∧ isBlank message = false ∧ w.session.keeps = true →
              ∃ lang, t.language = .ok lang
                ∧ t.tracker.Adds lang message (message :: form.plural?.toList) w.session w'.session)
            ∧ (t.tracker.canRecord = false ∨ isBlank message = true ∨ w.session.keeps = false →
              w' = w)) := by
  constructor
  · -- the dictionary has the message
    intro e hne he
    refine ⟨t.pluralIndex e form.count, t.selects_pluralIndex e form.count, ?_⟩
    have hentry : t.entry? message = some e := by
      unfold entry?
      rw [if_neg (by rw [String.isEmpty_iff]; exact hne)]
      exact he
    rw [lookup_of_entry hloaded hentry, e.variant_eq]
  · -- the message is recorded, or passed over
    intro hmissing text t' w' h
    obtain ⟨lang, session, hlang, hrecord, rfl, rfl, rfl⟩ :=
      exists_record_of_lookup hloaded (entry?_eq_none_iff.2 hmissing) h
    refine ⟨untranslated_cases form message, rfl, rfl, ?_, ?_⟩
    · rintro ⟨hcan, hblank, hkeeps⟩
      exact ⟨lang, hlang, Tracker.adds_of_record hkeeps hcan hblank hrecord⟩
    · intro hidle
      rw [Tracker.eq_of_record hidle hrecord]

/-- The header of a source with three plural forms. -/
def threeForms : String :=
  "nplurals=3; plural=(n==1 ? 0 : n>=2 && n<=4 ? 1 : 2);"

/-- A loaded translator that knows cats only, with a session available or not.  The response has
not been sent. -/
def catKeeper (hasSession : Bool) : Translator :=
  { withDefaults hasSession false with
    sources := .ofList [("a", "d")]
    lang := some "cs"
    dictionary := (Dictionary.empty.mergeMetadata "a"
      (Metadata.empty.insert pluralFormsKey threeForms)).insert
        ⟨["Cat", "Cats"], ["kocka", "kocky", "kocek"], "a"⟩
    loaded := true }

/-- A workspace in which nothing is kept of what is pending. -/
def forgetful : Workspace :=
  { Workspace.empty with session := .unbacked }

/-- Five cats are answered with the third variant.  Five dogs are answered with their plural, and
are then the only thing that is pending, though no session is said to be available.  Where nothing
is kept, they leave nothing. -/
theorem answer_of_lookup_pets :
    (catKeeper true).lookup .empty "Cat" (.bare 5) = ⟨.ok "kocek", catKeeper true, .empty⟩
      ∧ (∃ w' strings, (catKeeper false).lookup .empty "Dog" (.withPlural "Dogs" 5)
            = ⟨.ok "Dogs", catKeeper false, w'⟩
          ∧ (catKeeper false).tracker.pending w'.session "cs" = .ok strings
          ∧ strings.pairs = [("Dog", ["Dog", "Dogs"])])
      ∧ (catKeeper false).lookup forgetful "Dog" (.withPlural "Dogs" 5)
        = ⟨.ok "Dogs", catKeeper false, forgetful⟩ := by
  have hmissing : (catKeeper false).dictionary.get? "Dog" = none := by decide +kernel
  refine ⟨?_, ?_, ?_⟩
  · have hentry : (catKeeper true).dictionary.get? "Cat"
        = some ⟨["Cat", "Cats"], ["kocka", "kocky", "kocek"], "a"⟩ := by decide +kernel
    obtain ⟨index, hindex, hlookup⟩ :=
      (answer_of_lookup (t := catKeeper true) rfl .empty "Cat" (.bare 5)).1 _ (by decide) hentry
    have hformula : ((catKeeper true).dictionary.metadataOf? "a").bind Metadata.pluralForms?
        = some threeForms := by decide +kernel
    have hselected : (Plural.evaluate threeForms 5).toOption = some 2 := by decide +kernel
    change Selects (((catKeeper true).dictionary.metadataOf? "a").bind Metadata.pluralForms?) 5 index
      at hindex
    rw [hformula] at hindex
    cases hindex with
    | formula h =>
        rw [h] at hselected
        cases hselected
        exact hlookup
    | failing h =>
        rw [h] at hselected
        cases hselected
  · obtain ⟨t', w', hlookup⟩ := Outcome.exists_eq_of_toOption (show
      ((catKeeper false).lookup .empty "Dog" (.withPlural "Dogs" 5)).result.toOption
        = some "Dogs" by decide +kernel)
    obtain ⟨-, rfl, -, hadds, -⟩ :=
      (answer_of_lookup (t := catKeeper false) rfl .empty "Dog" (.withPlural "Dogs" 5)).2
        (Or.inr hmissing) _ _ _ hlookup
    obtain ⟨lang, hlang, hadds⟩ := hadds ⟨rfl, by decide +kernel, rfl⟩
    cases hlang
    obtain ⟨strings, hbefore, hafter⟩ := hadds.own (catKeeper false).tracker rfl
    cases hbefore
    exact ⟨w', _, hlookup, hafter, rfl⟩
  · obtain ⟨t', w', hlookup⟩ := Outcome.exists_eq_of_toOption (show
      ((catKeeper false).lookup forgetful "Dog" (.withPlural "Dogs" 5)).result.toOption
        = some "Dogs" by decide +kernel)
    obtain ⟨-, rfl, -, -, hidle⟩ :=
      (answer_of_lookup (t := catKeeper false) rfl forgetful "Dog" (.withPlural "Dogs" 5)).2
        (Or.inr hmissing) _ _ _ hlookup
    rw [hlookup, hidle (Or.inr (Or.inr rfl))]

end Translator

end MessageCatalog
