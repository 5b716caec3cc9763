/-
  MessageCatalog.Proofs.Translator.Durability
  ────────────────────────────────
  **NO SAVE LOSES A MESSAGE.**

  A save writes a whole file anew from the dictionary, so it loses what the file has and
  the dictionary has not.  While a translator is at work its dictionary covers the files
  (`InStep`), provided that the operations that could leave it behind are done with care:
  no source is registered after the load that has a catalog already, and no dictionary is
  taken from the cache that is not what the files make (`Careful`).  This is kept by each
  operation (`inStep_apply`), and so by all of them in any order.

  A save in such a state keeps every message (`resolved_after_save`), provided that
  messages that were moved to another source have been saved there first (`Housed`).
  Registering a source too late loses a message (`lost_after_late_source`).
-/
import MessageCatalog.Proofs.Session.Payload
import MessageCatalog.Proofs.Translator.Operations
import MessageCatalog.Proofs.Translator.Resaving

namespace MessageCatalog.Translator

open MessageCatalog.Text

variable {t t' : Translator} {w w' : Workspace} {s : State} {lang : String}

/-! ## §1. Dictionaries that cover the files. -/

/-- A dictionary has every message that the files of the sources have. -/
def Covers (d : Dictionary) (fs : FileSystem) (lang : String) (sources : OrderedMap String String) :
    Prop :=
  ∀ source ∈ sources.pairs, ∀ key, (entryIn? fs lang key source).isSome → (d.get? key).isSome

theorem covers_dictionaryIn (fs : FileSystem) (lang : String) (sources : OrderedMap String String) :
    Covers (dictionaryIn fs lang sources) fs lang sources :=
  fun source hsource _ hentry => isSome_get?_dictionaryIn.2 ⟨source, hsource, hentry⟩

theorem Covers.insert {d : Dictionary} {fs : FileSystem} {sources : OrderedMap String String}
    (h : Covers d fs lang sources) (e : Entry) : Covers (d.insert e) fs lang sources := by
  intro source hsource key hentry
  rw [Dictionary.get?_insert]
  split
  next => rfl
  next => exact h source hsource key hentry

/-- A source without a catalog has nothing to cover. -/
theorem Covers.insert_source {d : Dictionary} {fs : FileSystem} {sources : OrderedMap String String}
    (h : Covers d fs lang sources) {identifier dir : String} (hnew : identifier ∉ sources.keys)
    (habsent : fs.content? (pathOf lang (identifier, dir)) = none) :
    Covers d fs lang (sources.insert identifier dir) := by
  intro source hsource key hentry
  rw [OrderedMap.pairs_insert_of_not_mem dir hnew, List.mem_append, List.mem_singleton] at hsource
  rcases hsource with hsource | rfl
  · exact h source hsource key hentry
  · unfold entryIn? catalogIn? at hentry
    rw [habsent] at hentry
    cases hentry

/-- **What is exported is in the dictionary**, so the dictionary covers the files afterwards as
it did before, whatever was written of them. -/
theorem Covers.writeTo {session : SessionStore} {source : String} {stamp : Timestamp} {x : Export}
    {fs : FileSystem} {seconds : Int} (h : Covers t.dictionary fs lang t.sources)
    (hkept : ∀ e ∈ t.dictionary.toList, Kept e)
    (hexport : t.exportOf session source stamp = .ok x) (hlang : t.language = .ok lang)
    (hseparate : Separate t fs lang source) :
    Covers t.dictionary (x.writeTo fs seconds).2 lang t.sources := by
  intro other hother key hentry
  obtain ⟨hbytes, hcontent⟩ :=
    @content?_writeTo_of_exportOf _ _ _ _ _ _ _ seconds hexport hlang hseparate
  have hfile := hcontent other hother
  split at hfile
  next hwritten =>
    -- this file is written anew, and all that is in it are entries of the dictionary
    obtain ⟨c, hc, -, hentries⟩ := lastUnder?_of_write hkept hbytes
    rw [← hwritten.1] at hc
    unfold entryIn? at hentry
    rw [catalogIn?_eq_some_iff.2 ⟨x.catalog, hfile, hc⟩, Option.bind_some, hentries,
      Option.isSome_map] at hentry
    obtain ⟨e, he⟩ := Option.isSome_iff_exists.1 hentry
    rw [(Option.filter_eq_some_iff.1 he).1]
    rfl
  next =>
    -- this file is as it was
    unfold entryIn? at hentry
    rw [catalogIn?_congr hfile] at hentry
    exact h other hother key hentry

/-! ## §2. In step. -/

/-- The state of a translator that is in step with the files: everything in its dictionary can
be written and read back, and once it is loaded its dictionary covers the files. -/
structure InStep (s : State) : Prop where
  tidy : s.translator.tracker.Tidy s.workspace.session
  kept : ∀ e ∈ s.translator.dictionary.toList, Kept e
  covers : ∀ lang, s.translator.loaded = true → s.translator.language = .ok lang →
    Covers s.translator.dictionary s.workspace.files lang s.translator.sources

/-- What would be taken from the cache now is what the files make. -/
def Fresh (s : State) : Prop :=
  ∀ lang d, s.translator.loaded = false → s.translator.languageToLoad = .ok lang →
    s.translator.cached? s.workspace lang = some d →
    d = dictionaryIn s.workspace.files lang s.translator.sources

/-- With how much care an operation is to be done. -/
def Careful (s : State) : Operation → Prop
  | .addSource dir identifier =>
      ∀ lang, s.translator.loaded = true → s.translator.language = .ok lang →
        s.workspace.files.content? (pathOf lang (identifier, dir)) = none
  | .setTranslation message translation _ =>
      Fresh s ∧ message ≠ "" ∧ '\x00' ∉ message.toList ∧ translation ≠ [] ∧ translation ≠ [""]
  | .ensureLoaded | .lookup _ _ | .variantsCount | .stringsOf _ | .groupedStrings => Fresh s
  | .save source _ =>
      ∀ lang, s.translator.language = .ok lang →
        Separate s.translator s.workspace.files lang source
  | .setLang _ | .setProductionMode _ | .pass _ => True

/-- A new translator is in step with whatever files there are. -/
theorem inStep_new {ns : String} {expire : Nat} {hasSession responseSent : Bool}
    (h : (new ns expire hasSession responseSent).tracker.Tidy w.session) :
    InStep ⟨new ns expire hasSession responseSent, w⟩ where
  tidy := h
  kept _ he := absurd he List.not_mem_nil
  covers _ hloaded _ := absurd hloaded Bool.false_ne_true

/-! ## §3. What each operation keeps. -/

theorem InStep.addSource (h : InStep s) {dir identifier : String}
    (hcareful : Careful s (.addSource dir identifier)) :
    InStep (s.apply (.addSource dir identifier)) := by
  show InStep (s.setUp (s.translator.addSource s.workspace.files dir identifier))
  cases hadd : s.translator.addSource s.workspace.files dir identifier with
  | error fault => exact h
  | ok t =>
      obtain ⟨hnew, -, rfl⟩ := addSource_eq_ok_iff.1 hadd
      refine ⟨h.tidy, h.kept, ?_⟩
      intro lang hloaded hlang
      exact (h.covers lang hloaded hlang).insert_source hnew (hcareful lang hloaded hlang)

theorem InStep.setLang (h : InStep s) (lang : String) : InStep (s.apply (.setLang lang)) := by
  show InStep (s.setUp (s.translator.setLang lang))
  cases hset : s.translator.setLang lang with
  | error fault => exact h
  | ok t =>
      obtain ⟨-, rfl⟩ := setLang_eq_ok_iff.1 hset
      show InStep ⟨ite _ _ _, s.workspace⟩
      split
      next => exact h
      next =>
        exact ⟨h.tidy, fun e he => absurd he List.not_mem_nil,
          fun _ hloaded _ => absurd hloaded Bool.false_ne_true⟩

/-- Loading gives a dictionary that covers the files, wherever it is taken from. -/
theorem InStep.ensureLoaded (h : InStep s) (hfresh : Fresh s) :
    InStep (s.translator.ensureLoaded s.workspace).state := by
  obtain ⟨⟨c, hw⟩, hcases⟩ := ensureLoaded_cases s.translator s.workspace
  unfold Outcome.state
  rcases hcases with ⟨ht, -⟩ | ⟨lang, d, hunloaded, hlang, hload, -, ht⟩
  · -- nothing is loaded, and the cache does not count
    rw [ht, hw]
    exact ⟨h.tidy, h.kept, h.covers⟩
  · -- from the cache or from the files, it is the same dictionary
    have hd : d = dictionaryIn s.workspace.files lang s.translator.sources := by
      rcases fst_load_eq_ok_iff.1 hload with hcached | ⟨-, -, hfiles⟩
      · exact hfresh lang d hunloaded hlang hcached
      · exact hfiles
    rw [ht, hw, hd]
    refine ⟨h.tidy, kept_dictionaryIn, ?_⟩
    intro lang' _ hlang'
    have heq : s.translator.language = .ok lang := (languageToLoad_eq_ok_iff.1 hlang).2
    have hsame : lang = lang' := Except.ok.inj (heq.symm.trans hlang')
    subst hsame
    exact covers_dictionaryIn _ _ _

theorem InStep.lookup (h : InStep s) (hfresh : Fresh s) (message : String) (form : Form) :
    InStep (s.apply (.lookup message form)) := by
  have hloaded := h.ensureLoaded hfresh
  show InStep (s.translator.lookup s.workspace message form).state
  rcases lookup_cases s.translator s.workspace message form with heq | ⟨lang, session, -, hrecord, heq⟩
  · rw [heq]
    exact hloaded
  · rw [heq]
    exact ⟨Tracker.tidy_record hloaded.tidy hrecord, hloaded.kept, hloaded.covers⟩

/-- An entry with a key and variants of its own can be written and read back. -/
theorem kept_of_ne {e : Entry} (hkey : e.key ≠ "") (hfree : '\x00' ∉ e.key.toList)
    (hne : e.translation ≠ []) (htext : e.translation ≠ [""]) : Kept e := by
  have hbytes : bytesOf e.key ≠ [] := by
    rw [Ne, bytesOf_eq_nil_iff]
    exact hkey
  have horiginal : Mo.originalOf e ≠ [] := by
    unfold Mo.originalOf
    split
    next => simp
    next => exact hbytes
  have hjoined : String.intercalate "\x00" e.translation ≠ "" := by
    match htranslation : e.translation with
    | [] => exact absurd htranslation hne
    | [text] =>
        rw [String.intercalate_singleton]
        rintro rfl
        exact htext htranslation
    | first :: next :: rest =>
        rw [String.intercalate_cons_cons, Ne, String.append_eq_empty_iff,
          String.append_eq_empty_iff]
        exact fun hempty => absurd hempty.1.2 (by decide)
  have htranslation : Mo.translationOf e ≠ [] := by
    unfold Mo.translationOf
    rw [Mo.joinNul_eq_bytesOf, Ne, bytesOf_eq_nil_iff]
    exact hjoined
  refine ⟨?_, hfree⟩
  unfold Mo.Record.isMessage Mo.Record.ofEntry
  simp [horiginal, htranslation]

theorem InStep.setTranslation (h : InStep s) {message source : String} {translation : List String}
    (hcareful : Careful s (.setTranslation message translation source)) :
    InStep (s.apply (.setTranslation message translation source)) := by
  obtain ⟨hfresh, hmessage, hfree, hne, htext⟩ := hcareful
  have hloaded := h.ensureLoaded hfresh
  show InStep (s.translator.setTranslation s.workspace message translation source).state
  rcases setTranslation_cases s.translator s.workspace message translation source with
    heq | ⟨lang, forms, -, hforms, heq⟩
  · rw [heq]
    exact hloaded
  · -- what is pending of a message opens with it, so the entry is one of the message
    have hkey : (Entry.mk (forms.getD [message]) translation source).key = message := by
      cases forms with
      | none => rfl
      | some forms =>
          show forms.headD "" = message
          rw [List.headD_eq_head?_getD, Tracker.head?_of_get hloaded.tidy hforms,
            Option.getD_some]
    rw [heq]
    refine ⟨hloaded.tidy, ?_, fun lang' hl hlang' => (hloaded.covers lang' hl hlang').insert _⟩
    intro e he
    rw [Dictionary.mem_toList_iff, Dictionary.get?_insert] at he
    split at he
    next =>
      cases he
      refine kept_of_ne ?_ ?_ hne htext
      · rw [hkey]
        exact hmessage
      · rw [hkey]
        exact hfree
    next => exact hloaded.kept e (Dictionary.mem_toList_iff.2 he)

theorem InStep.save (h : InStep s) {source : String} {now : Moment}
    (hcareful : Careful s (.save source now)) : InStep (s.apply (.save source now)) := by
  show InStep (s.translator.save s.workspace source now).state
  rcases save_cases s.translator s.workspace source now with
    heq | ⟨x, session, cache, hexport, hsession, heq⟩
  · rw [heq]
    exact h
  · rw [heq]
    refine ⟨?_, h.kept, ?_⟩
    · rcases hsession with rfl | ⟨lang, hclear⟩
      · exact h.tidy
      · exact Tracker.tidy_clear h.tidy hclear
    · intro lang hloaded hlang
      exact (h.covers lang hloaded hlang).writeTo h.kept hexport hlang (hcareful lang hlang)

/-- **Whatever is done with care, the translator stays in step.** -/
theorem inStep_apply (s : State) (op : Operation) (h : InStep s) (hcareful : Careful s op) :
    InStep (s.apply op) := by
  cases op with
  | addSource dir identifier => exact h.addSource hcareful
  | setLang lang => exact h.setLang lang
  | setProductionMode on => exact ⟨h.tidy, h.kept, h.covers⟩
  | ensureLoaded | variantsCount | stringsOf | groupedStrings =>
      rw [apply_of_onlyLoads rfl]
      exact h.ensureLoaded hcareful
  | lookup message form => exact h.lookup hcareful message form
  | setTranslation message translation source => exact h.setTranslation hcareful
  | save source now => exact h.save hcareful
  | pass seconds => exact ⟨h.tidy, h.kept, h.covers⟩

theorem inStep_run {ns : String} {expire : Nat} {hasSession responseSent : Bool}
    {ops : List Operation} (hsession : (new ns expire hasSession responseSent).tracker.Tidy w.session)
    (hops : State.Admits Careful ⟨new ns expire hasSession responseSent, w⟩ ops) :
    InStep (State.run ⟨new ns expire hasSession responseSent, w⟩ ops) :=
  State.run_induction inStep_apply hops (inStep_new hsession)

/-! ## §4. What a save keeps. -/

/-- A message that files have, and that the dictionary has under another source than the one to
be saved, is in the file of another source. -/
def Housed (s : State) (lang source : String) : Prop :=
  ∀ key e, s.translator.dictionary.get? key = some e → e.source ≠ source →
    ((dictionaryIn s.workspace.files lang s.translator.sources).get? key).isSome →
    ∃ other ∈ s.translator.sources.pairs, other.1 ≠ source
      ∧ (entryIn? s.workspace.files lang key other).isSome

/-- Messages that other sources have as they were loaded are in their files. -/
theorem housed_of_unmoved {source : String}
    (h : ∀ key e, s.translator.dictionary.get? key = some e → e.source ≠ source →
      (dictionaryIn s.workspace.files lang s.translator.sources).get? key = some e) :
    Housed s lang source := by
  intro key e he hne _
  obtain ⟨other, hother, hname, hentry⟩ := of_get?_dictionaryIn (h key e he hne)
  exact ⟨other, hother, hname ▸ hne, hentry ▸ rfl⟩

/-- In step with the files, a save keeps all that they have. -/
theorem InStep.isSome_get?_of_save (h : InStep s) {source : String} {now : Moment}
    {paths : String × String} (hlang : s.translator.language = .ok lang)
    (hseparate : Separate s.translator s.workspace.files lang source)
    (hhoused : Housed s lang source)
    (hsave : s.translator.save s.workspace source now = ⟨.ok paths, t', w'⟩) {key : String}
    (hkey : ((dictionaryIn s.workspace.files lang s.translator.sources).get? key).isSome) :
    ((dictionaryIn w'.files lang s.translator.sources).get? key).isSome := by
  have hloaded : s.translator.loaded = true := by
    obtain ⟨x, fs, lang', hexport, -⟩ := save_eq_ok_iff.1 hsave
    exact (exportOf_eq_ok_iff.1 hexport).1
  have hafter := fun other hother =>
    (@entryIn?_of_save _ _ _ _ _ _ _ _ hsave hlang hseparate h.kept other hother).2 key
  -- the files of all other sources are as they were
  have hothers : ∀ other ∈ s.translator.sources.pairs, other.1 ≠ source →
      (entryIn? s.workspace.files lang key other).isSome →
      ((dictionaryIn w'.files lang s.translator.sources).get? key).isSome := by
    intro other hother hne hentry
    have hsame := hafter other hother
    rw [if_neg hne] at hsame
    refine isSome_get?_dictionaryIn.2 ⟨other, hother, ?_⟩
    rw [hsame]
    exact hentry
  obtain ⟨holder, hholder, hentry⟩ := isSome_get?_dictionaryIn.1 hkey
  by_cases hsource : holder.1 = source
  · -- the message is in the file that is written anew, so the dictionary has an entry of it
    obtain ⟨e, he⟩ := Option.isSome_iff_exists.1
      (h.covers lang hloaded hlang holder hholder key hentry)
    by_cases hown : e.source = source
    · -- and the entry is written
      have hnew := hafter holder hholder
      rw [if_pos hsource, he, Option.filter_some, if_pos (beq_iff_eq.2 hown), Option.map_some] at hnew
      refine isSome_get?_dictionaryIn.2 ⟨holder, hholder, ?_⟩
      rw [hnew]
      rfl
    · -- or it was moved to another source
      obtain ⟨other, hother, hne, hother'⟩ := hhoused key e he hown hkey
      exact hothers other hother hne hother'
  · exact hothers holder hholder hsource hentry

/-- **No save loses a message**: after anything that has been done with care, whatever a fresh
translator finds in the files before a save it finds in them afterwards. -/
theorem resolved_after_save {ns : String} {expire : Nat} {hasSession responseSent : Bool}
    {ops : List Operation} {source : String} {now : Moment} {paths : String × String}
    (hsession : (new ns expire hasSession responseSent).tracker.Tidy w.session)
    (hops : State.Admits Careful ⟨new ns expire hasSession responseSent, w⟩ ops)
    (hs : State.run ⟨new ns expire hasSession responseSent, w⟩ ops = s)
    (hlang : s.translator.language = .ok lang)
    (hseparate : Separate s.translator s.workspace.files lang source)
    (hhoused : Housed s lang source)
    (hsave : s.translator.save s.workspace source now = ⟨.ok paths, t', w'⟩)
    {u : Translator} (hu : Renews u s.translator) {v v' : Workspace}
    (hv : v.files = s.workspace.files) (hv' : v'.files = w'.files) {d : Dictionary}
    (hd : u.Loads v d) :
    ∃ d', u.Loads v' d' ∧ ∀ key, (d.get? key).isSome → (d'.get? key).isSome := by
  have hstep : InStep s := hs ▸ inStep_run hsession hops
  -- before as well as after the save a fresh translator has what the files make
  obtain ⟨lang', hlang', hreadable, rfl⟩ := hu.loads_iff.1 hd
  have heq : s.translator.language = .ok lang' := (languageToLoad_eq_ok_iff.1 hlang').2
  rw [hlang, Except.ok.injEq] at heq
  subst heq
  refine ⟨dictionaryIn w'.files lang s.translator.sources, ?_, ?_⟩
  · refine hu.loads_iff.2 ⟨lang, hlang', ?_, by rw [hv']⟩
    intro other hother
    rw [hv']
    rw [hv] at hreadable
    exact (entryIn?_of_save hsave hlang hseparate hstep.kept hother).1 (hreadable other hother)
  · intro key hkey
    rw [hv] at hkey
    exact hstep.isSome_get?_of_save hlang hseparate hhoused hsave hkey

/-- Without the cache nothing stale can be taken from it. -/
theorem fresh_of_development (h : s.translator.productionMode = false) : Fresh s := by
  intro lang d _ _ hcached
  rw [cached?_of_development h] at hcached
  cases hcached

/-- The translator for the two sources, once it has another translation of a message of the
first one. -/
def revisingEditor : Translator :=
  czechEditor.withDictionary
    ((dictionaryIn overlapping "cs" twoSources).insert ⟨["Bye"], ["Nashle"], "a"⟩)

/-- The two sources are registered and loaded, and a message of the first one is translated
anew. -/
def revising : List Operation :=
  [.addSource "d" "a", .addSource "d" "b", .setLang "cs", .ensureLoaded,
    .setTranslation "Bye" ["Nashle"] "a"]

/-- The first source is saved, of which the second one overrides a message: its file loses the
message, and a fresh translator still finds it. -/
theorem resolved_after_save_overridden :
    ∃ s paths w' d d',
      State.run ⟨withDefaults true false, startOf overlapping⟩ revising = s
        ∧ s.translator.save s.workspace "a" ⟨⟨2024, 3, 1, 9, 30, 15, 0⟩, 5⟩
            = ⟨.ok paths, s.translator, w'⟩
        ∧ czechEditor.Loads (startOf overlapping) d ∧ czechEditor.Loads w' d'
        ∧ (d.get? "Hello").isSome ∧ (d'.get? "Hello").isSome
        ∧ (d.get? "Bye").isSome ∧ (d'.get? "Bye").isSome := by
  have hreadable : ∀ source ∈ czechEditor.sources.pairs,
      Readable (startOf overlapping).files "cs" source :=
    readable_of_isOk (by decide +kernel)
  have hsetUp : State.run ⟨withDefaults true false, startOf overlapping⟩
      [.addSource "d" "a", .addSource "d" "b", .setLang "cs"]
      = ⟨czechEditor, startOf overlapping⟩ := rfl
  have hload : State.apply ⟨czechEditor, startOf overlapping⟩ .ensureLoaded
      = ⟨czechEditor.withDictionary (dictionaryIn overlapping "cs" twoSources),
          startOf overlapping⟩ :=
    apply_ensureLoaded_of_readable rfl rfl rfl hreadable
  have hrun : State.run ⟨withDefaults true false, startOf overlapping⟩ revising
      = ⟨revisingEditor, startOf overlapping⟩ := by
    show State.apply (State.apply (State.run ⟨withDefaults true false, startOf overlapping⟩
      [.addSource "d" "a", .addSource "d" "b", .setLang "cs"]) .ensureLoaded)
      (.setTranslation "Bye" ["Nashle"] "a") = ⟨revisingEditor, startOf overlapping⟩
    rw [hsetUp, hload]
    rfl
  have hops : State.Admits Careful ⟨withDefaults true false, startOf overlapping⟩ revising := by
    refine ⟨fun _ hloaded _ => absurd hloaded Bool.false_ne_true,
      fun _ hloaded _ => absurd hloaded Bool.false_ne_true, trivial, fresh_of_development rfl, ?_,
      trivial⟩
    show Careful (State.apply (State.run ⟨withDefaults true false, startOf overlapping⟩
      [.addSource "d" "a", .addSource "d" "b", .setLang "cs"]) .ensureLoaded)
      (.setTranslation "Bye" ["Nashle"] "a")
    rw [hsetUp, hload]
    exact ⟨fresh_of_development rfl, by decide, by decide, by decide, by decide⟩
  have hnamed : Named revisingEditor "cs" := ⟨by decide, by decide⟩
  have hhoused : Housed ⟨revisingEditor, startOf overlapping⟩ "cs" "a" := by
    apply housed_of_unmoved
    intro key e he hne
    change ((dictionaryIn overlapping "cs" twoSources).insert _).get? key = some e at he
    rw [Dictionary.get?_insert] at he
    split at he
    next =>
      cases he
      exact absurd rfl hne
    next => exact he
  have hsave := @save_of_ordered revisingEditor (startOf overlapping) "a" "cs" "d"
    [⟨["Bye"], ["Nashle"], "a"⟩] ⟨⟨2024, 3, 1, 9, 30, 15, 0⟩, 5⟩ rfl rfl rfl rfl rfl
    (by decide +kernel) (List.mergeSort_singleton _) (Mo.fitsWords_recordsOf (by decide +kernel))
    (by decide +kernel)
  have hrenews : Renews czechEditor revisingEditor := ⟨rfl, rfl, rfl, rfl⟩
  have hloads : czechEditor.Loads (startOf overlapping) (dictionaryIn overlapping "cs" twoSources) :=
    hrenews.loads_iff.2 ⟨"cs", rfl, hreadable, rfl⟩
  obtain ⟨d', hd', hkept⟩ := resolved_after_save (Tracker.tidy_empty _) hops hrun rfl
    (hnamed.separate rfl _ _) hhoused hsave hrenews rfl rfl hloads
  have hhello : ((dictionaryIn overlapping "cs" twoSources).get? "Hello").isSome := by
    decide +kernel
  have hbye : ((dictionaryIn overlapping "cs" twoSources).get? "Bye").isSome := by
    decide +kernel
  exact ⟨_, _, _, _, d', hrun, hsave, hloads, hd', hhello, hkept _ hhello, hbye, hkept _ hbye⟩

/-- A catalog of the second source, and none of the first one. -/
def lateCatalog : FileSystem :=
  treeOf [("cs.b.mo", greeting, 1)]

/-- A translator for the first source. -/
def czechBeginner : Translator :=
  { withDefaults true false with sources := oneSource, lang := some "cs" }

/-- A translator that has loaded the first source when the second one is registered. -/
def lateEditor : Translator :=
  czechEditor.withDictionary (dictionaryIn lateCatalog "cs" oneSource)

/-- **A source that is registered too late loses its messages**: its file is written anew, and
was never read. -/
theorem lost_after_late_source :
    ∃ s paths w' d d',
      State.run ⟨withDefaults true false, startOf lateCatalog⟩
          [.addSource "d" "a", .setLang "cs", .ensureLoaded, .addSource "d" "b"] = s
        ∧ s.translator.save s.workspace "b" ⟨⟨2024, 3, 1, 9, 30, 15, 0⟩, 5⟩
            = ⟨.ok paths, s.translator, w'⟩
        ∧ Renews czechEditor s.translator
        ∧ czechEditor.Loads s.workspace d ∧ czechEditor.Loads w' d'
        ∧ (d.get? "Hello").isSome = true ∧ d'.get? "Hello" = none := by
  have hreadable : ∀ source ∈ twoSources.pairs, Readable lateCatalog "cs" source :=
    @readable_of_isOk _ _ czechEditor (by decide +kernel)
  have hone : ∀ source ∈ oneSource.pairs, Readable lateCatalog "cs" source :=
    fun source hsource => hreadable source (List.mem_of_mem_take (i := 1) hsource)
  have hrun : State.run ⟨withDefaults true false, startOf lateCatalog⟩
      [.addSource "d" "a", .setLang "cs", .ensureLoaded, .addSource "d" "b"]
      = ⟨lateEditor, startOf lateCatalog⟩ := by
    have hsetUp : State.run ⟨withDefaults true false, startOf lateCatalog⟩
        [.addSource "d" "a", .setLang "cs"] = ⟨czechBeginner, startOf lateCatalog⟩ := rfl
    have hload : State.apply ⟨czechBeginner, startOf lateCatalog⟩ .ensureLoaded
        = ⟨czechBeginner.withDictionary (dictionaryIn lateCatalog "cs" oneSource),
            startOf lateCatalog⟩ :=
      apply_ensureLoaded_of_readable rfl rfl rfl hone
    show State.apply (State.apply (State.run ⟨withDefaults true false, startOf lateCatalog⟩
      [.addSource "d" "a", .setLang "cs"]) .ensureLoaded) (.addSource "d" "b")
        = ⟨lateEditor, startOf lateCatalog⟩
    rw [hsetUp, hload]
    rfl
  have hsave := @save_of_ordered lateEditor (startOf lateCatalog) "b" "cs" "d" []
    ⟨⟨2024, 3, 1, 9, 30, 15, 0⟩, 5⟩ rfl rfl rfl rfl rfl
    (by decide +kernel) List.mergeSort_nil (Mo.fitsWords_recordsOf (by decide +kernel))
    (by decide +kernel)
  have hseparate : Separate lateEditor lateCatalog "cs" "b" :=
    Named.separate ⟨by decide, by decide⟩ rfl _ _
  have hafter := fun other hother =>
    @entryIn?_of_save _ _ _ _ _ _ _ _ hsave rfl hseparate kept_dictionaryIn other hother
  have hrenews : Renews czechEditor lateEditor := ⟨rfl, rfl, rfl, rfl⟩
  refine ⟨_, _, _, dictionaryIn lateCatalog "cs" twoSources, _, hrun, hsave, hrenews,
    hrenews.loads_iff.2 ⟨"cs", rfl, hreadable, rfl⟩,
    hrenews.loads_iff.2 ⟨"cs", rfl, ?_, rfl⟩, by decide +kernel, ?_⟩
  · intro other hother
    exact (hafter other hother).1 (hreadable other hother)
  · rw [← Option.not_isSome_iff_eq_none, isSome_get?_dictionaryIn]
    rintro ⟨other, hother, hentry⟩
    rw [(hafter other hother).2 "Hello"] at hentry
    have hsources : other = ("a", "d") ∨ other = ("b", "d") := List.mem_pair.1 hother
    -- the first source has no file, and nothing is known of the second one
    rcases hsources with rfl | rfl
    · exact absurd hentry (by decide +kernel)
    · exact absurd hentry (by decide +kernel)

end MessageCatalog.Translator
