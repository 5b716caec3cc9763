/-
  MessageCatalog.Proofs.Translator.Saving
  ────────────────────────────────
  **WHAT A SAVE WRITES.**

  A save that succeeds has done all of its steps (`save_eq_ok_iff`).  As long as the files
  of the sources are separate, which they are when no identifier and no language has a
  slash in it (`Named.separate`), it replaces the catalog of its source and the catalog of
  no other one (`content?_of_save`), and what this catalog holds are the entries that the
  dictionary has of the source (`entryIn?_of_save`).
-/
import MessageCatalog.Proofs.Translator.Loading
import MessageCatalog.Translator.Saving

namespace MessageCatalog.Translator

open MessageCatalog.Text

variable {t t' : Translator} {w w' : Workspace} {source lang : String}

/-! ## §1. The steps of a save. -/

/-- What an export needs, and what it consists of. -/
theorem exportOf_eq_ok_iff {session : SessionStore} {stamp : Timestamp} {x : Export} :
    t.exportOf session source stamp = .ok x
      ↔ t.loaded = true ∧ ∃ dir lang pending catalog,
          t.sources.get? source = some dir ∧ t.language = .ok lang
            ∧ t.tracker.pending session lang = .ok pending
            ∧ Mo.write (t.dictionary.sortedEntriesFor source) (t.dictionary.metadataOf? source) stamp
                = .ok catalog
            ∧ x = ⟨pathOf lang (source, dir), catalog, Path.textFormOf (pathOf lang (source, dir)),
                bytesOf (Po.write (t.dictionary.entriesFor source) (t.dictionary.metadataOf? source)
                  (unknownForms t.dictionary pending) stamp)⟩ := by
  unfold exportOf
  cases t.loaded with
  | false =>
      constructor
      · intro h
        cases h
      · rintro ⟨h, -⟩
        cases h
  | true =>
      simp only [Bool.not_true, Bool.false_eq_true, if_false, true_and]
      cases t.sources.get? source with
      | none =>
          constructor
          · intro h
            cases h
          · rintro ⟨dir, lang, pending, catalog, h, -⟩
            cases h
      | some dir =>
          simp only [bind_eq_ok_iff]
          constructor
          · rintro ⟨lang, hlang, pending, hpending, h⟩
            refine ⟨dir, lang, pending, ?_⟩
            split at h
            next => cases h
            next catalog hcatalog =>
              cases h
              exact ⟨catalog, rfl, hlang, hpending, hcatalog, rfl⟩
          · rintro ⟨dir', lang, pending, catalog, hdir, hlang, hpending, hcatalog, rfl⟩
            cases hdir
            refine ⟨lang, hlang, pending, hpending, ?_⟩
            rw [hcatalog]
            rfl

theorem writeTo_eq_ok_iff {x : Export} {fs fs' : FileSystem} {seconds : Int} :
    x.writeTo fs seconds = (.ok (), fs')
      ↔ ∃ between, fs.replace? x.catalogPath x.catalog seconds = some between
          ∧ between.replace? x.textPath x.textForm seconds = some fs' := by
  unfold Export.writeTo
  cases fs.replace? x.catalogPath x.catalog seconds with
  | none => simp
  | some between =>
      cases hnext : between.replace? x.textPath x.textForm seconds with
      | none => simp [hnext]
      | some fs'' => simp [hnext]

/-- **A save succeeds when all of its steps do.** -/
theorem save_eq_ok_iff {now : Moment} {paths : String × String} :
    t.save w source now = ⟨.ok paths, t', w'⟩
      ↔ ∃ x fs lang, t.exportOf w.session source now.stamp = .ok x
          ∧ x.writeTo w.files now.seconds = (.ok (), fs) ∧ t.language = .ok lang
          ∧ t.settle { w with files := fs } lang = .ok w'
          ∧ t' = t ∧ paths = (x.catalogPath, x.textPath) := by
  constructor
  · intro h
    unfold save at h
    split at h
    next => cases h
    next x hx =>
      split at h
      next => cases h
      next u fs hfs =>
        split at h
        next => cases h
        next w'' hsettle =>
          cases h
          obtain ⟨lang, hlang, hw'⟩ := bind_eq_ok_iff.1 hsettle
          exact ⟨x, fs, lang, hx, hfs, hlang, hw', rfl, rfl⟩
  · rintro ⟨x, fs, lang, hx, hfs, hlang, hsettle, ht, rfl⟩
    have hend : t.language.bind (t.settle { w with files := fs }) = .ok w' :=
      bind_eq_ok_iff.2 ⟨lang, hlang, hsettle⟩
    unfold save
    rw [hx, ht]
    simp only [hfs, hend]
    rfl

/-- Settling leaves the files alone. -/
theorem settle_eq_ok_iff :
    t.settle w lang = .ok w'
      ↔ ∃ session, t.tracker.clear w.session lang = .ok session
          ∧ w' = (if t.productionMode
              then { w with session := session, cache := t.cache.invalidate w.cache lang }
              else { w with session := session }) := by
  unfold settle
  rw [bind_eq_ok_iff]
  refine exists_congr fun session => and_congr_right fun _ => ?_
  rw [Except.ok.injEq]
  exact eq_comm

/-! ## §2. The files after a save. -/

section Writing

variable {x : Export} {fs : FileSystem} {seconds : Int} {path : String}

/-- What is apart from both files of an export stays as it is. -/
theorem content?_writeTo_of_apart (hcatalog : fs.Apart x.catalogPath path)
    (htext : fs.Apart x.textPath path) :
    (x.writeTo fs seconds).2.content? path = fs.content? path := by
  unfold Export.writeTo
  cases hfirst : fs.replace? x.catalogPath x.catalog seconds with
  | none => rfl
  | some between =>
      obtain ⟨-, hothers, hresolve⟩ := FileSystem.content?_of_replace? hfirst
      have hbetween : between.content? path = fs.content? path := hothers path hcatalog
      cases hsecond : between.replace? x.textPath x.textForm seconds with
      | none => simp only [hsecond]; exact hbetween
      | some after =>
          have hapart : between.Apart x.textPath path := by
            intro loc h h'
            exact htext loc ((hresolve _ _).1 h) ((hresolve _ _).1 h')
          simp only [hsecond]
          rw [(FileSystem.content?_of_replace? hsecond).2.1 path hapart, hbetween]

/-- The catalog is there as soon as it could be written, whatever comes of the text form. -/
theorem content?_writeTo_catalogPath (htext : fs.Apart x.textPath x.catalogPath) :
    (x.writeTo fs seconds).2.content? x.catalogPath
      = if (fs.replace? x.catalogPath x.catalog seconds).isSome then some x.catalog
        else fs.content? x.catalogPath := by
  unfold Export.writeTo
  cases hfirst : fs.replace? x.catalogPath x.catalog seconds with
  | none => rfl
  | some between =>
      obtain ⟨hcatalog, -, hresolve⟩ := FileSystem.content?_of_replace? hfirst
      rw [Option.isSome_some, if_pos rfl]
      cases hsecond : between.replace? x.textPath x.textForm seconds with
      | none => simp only [hsecond]; exact hcatalog
      | some after =>
          have hapart : between.Apart x.textPath x.catalogPath := by
            intro loc h h'
            exact htext loc ((hresolve _ _).1 h) ((hresolve _ _).1 h')
          simp only [hsecond]
          rw [(FileSystem.content?_of_replace? hsecond).2.1 _ hapart, hcatalog]

end Writing

/-- Neither file that is written for a source is the catalog of another one, nor are they the
same file. -/
structure Separate (t : Translator) (fs : FileSystem) (lang source : String) : Prop where
  catalog : ∀ dir, (source, dir) ∈ t.sources.pairs → ∀ other ∈ t.sources.pairs, other.1 ≠ source →
    fs.Apart (pathOf lang (source, dir)) (pathOf lang other)
  textForm : ∀ dir, (source, dir) ∈ t.sources.pairs → ∀ other ∈ t.sources.pairs,
    fs.Apart (Path.textFormOf (pathOf lang (source, dir))) (pathOf lang other)

/-- Names that make paths in a directory: the identifiers of the sources and the language. -/
structure Named (t : Translator) (lang : String) : Prop where
  identifiers : ∀ source ∈ t.sources.pairs, '/' ∉ source.1.toList
  language : '/' ∉ lang.toList

/-- **Names without a slash keep all files separate.** -/
theorem Named.separate (h : Named t lang) (hlang : t.language = .ok lang) (fs : FileSystem)
    (source : String) : Separate t fs lang source where
  catalog dir hmem other hother hne :=
    fs.apart_catalogFile dir other.2 h.language (h.identifiers _ hmem) (h.identifiers _ hother)
      (Ne.symm hne)
  textForm dir hmem other hother :=
    fs.apart_textFormOf dir other.2 h.language (h.identifiers _ hmem) (h.identifiers _ hother)
      (language_eq_ok_iff.1 hlang).2

/-- **An export replaces the catalog of its source**, if it can be written, and no other one. -/
theorem content?_writeTo_of_exportOf {session : SessionStore} {stamp : Timestamp} {x : Export}
    {fs : FileSystem} {seconds : Int} (hexport : t.exportOf session source stamp = .ok x)
    (hlang : t.language = .ok lang) (hseparate : Separate t fs lang source) :
    Mo.write (t.dictionary.sortedEntriesFor source) (t.dictionary.metadataOf? source) stamp
        = .ok x.catalog
      ∧ ∀ other ∈ t.sources.pairs, (x.writeTo fs seconds).2.content? (pathOf lang other)
          = if other.1 = source ∧ (fs.replace? x.catalogPath x.catalog seconds).isSome = true
            then some x.catalog else fs.content? (pathOf lang other) := by
  obtain ⟨-, dir, lang', pending, bytes, hdir, hlang', -, hbytes, rfl⟩ :=
    exportOf_eq_ok_iff.1 hexport
  rw [hlang, Except.ok.injEq] at hlang'
  subst hlang'
  have hmem : (source, dir) ∈ t.sources.pairs := OrderedMap.get?_eq_some_iff.1 hdir
  refine ⟨hbytes, ?_⟩
  intro other hother
  by_cases heq : other.1 = source
  · have hpair : other = (source, dir) := OrderedMap.eq_of_mem_pairs hother hmem heq
    subst hpair
    simp only [true_and]
    exact content?_writeTo_catalogPath (hseparate.textForm dir hmem _ hmem)
  · simp only [heq, false_and, if_false]
    exact content?_writeTo_of_apart (hseparate.catalog dir hmem other hother heq)
      (hseparate.textForm dir hmem other hother)

/-- **A save replaces the catalog of its source and no other one.** -/
theorem content?_of_save {now : Moment} {paths : String × String}
    (h : t.save w source now = ⟨.ok paths, t', w'⟩) (hlang : t.language = .ok lang)
    (hseparate : Separate t w.files lang source) :
    ∃ bytes, Mo.write (t.dictionary.sortedEntriesFor source) (t.dictionary.metadataOf? source)
        now.stamp = .ok bytes
      ∧ ∀ other ∈ t.sources.pairs, w'.files.content? (pathOf lang other)
          = if other.1 = source then some bytes else w.files.content? (pathOf lang other) := by
  obtain ⟨x, fs, lang', hexport, hwrite, -, hsettle, -, -⟩ := save_eq_ok_iff.1 h
  obtain ⟨between, hcatalog, -⟩ := writeTo_eq_ok_iff.1 hwrite
  obtain ⟨session, -, hw'⟩ := settle_eq_ok_iff.1 hsettle
  have hfiles : w'.files = fs := by
    rw [hw']
    split <;> rfl
  obtain ⟨hbytes, hcontent⟩ :=
    @content?_writeTo_of_exportOf _ _ _ _ _ _ _ now.seconds hexport hlang hseparate
  rw [hwrite] at hcontent
  simp only [hcatalog, Option.isSome_some, and_true] at hcontent
  refine ⟨x.catalog, hbytes, ?_⟩
  rw [hfiles]
  exact hcontent

/-! ## §3. What the new catalog holds. -/

/-- An entry that is read back under its key. -/
def Kept (e : Entry) : Prop :=
  (Mo.Record.ofEntry e).isMessage = true ∧ '\x00' ∉ e.key.toList

theorem kept_of_storable {e : Entry} (h : Mo.Storable e.written) : Kept e :=
  ⟨(Mo.toEntry_ofEntry_of_storable h).1, h.original_free _ List.mem_cons_self⟩

/-- What was read from files is read back. -/
theorem kept_dictionaryIn {fs : FileSystem} {sources : OrderedMap String String} :
    ∀ e ∈ (dictionaryIn fs lang sources).toList, Kept e := by
  intro e he
  exact kept_of_storable (storable_of_get?_dictionaryIn (Dictionary.mem_toList_iff.1 he))

/-- **The catalog that is written has the entries that the dictionary has of the source**, as
their records give them back. -/
theorem lastUnder?_of_write {d : Dictionary} {metadata : Option Metadata} {stamp : Timestamp}
    {bytes : Bytes} (hkept : ∀ e ∈ d.toList, Kept e)
    (hwrite : Mo.write (d.sortedEntriesFor source) metadata stamp = .ok bytes) :
    ∃ c, Catalog.ofBytes bytes source = .ok c
      ∧ c.metadata = some (Metadata.parse (Mo.headerText metadata stamp))
      ∧ ∀ key, lastUnder? key c.entries
          = ((d.get? key).filter fun e => e.source == source).map fun e =>
              (Mo.Record.ofEntry e).toEntry source := by
  have hperm : ((d.sortedEntriesFor source).mergeSort Entry.keyLE).Perm (d.entriesFor source) :=
    (List.mergeSort_perm _ _).trans (List.mergeSort_perm _ _)
  have hentries : ∀ e ∈ d.entriesFor source, Kept e :=
    fun e he => hkept e (List.mem_filter.1 he).1
  have hsorted : ∀ e ∈ d.sortedEntriesFor source, Kept e :=
    fun e he => hentries e ((List.mergeSort_perm _ _).mem_iff.1 he)
  refine ⟨_, Mo.ofBytes_of_write (fun e he => (hsorted e he).1) hwrite source, rfl, ?_⟩
  intro key
  show lastUnder? key (List.map _ _) = _
  rw [lastUnder?_map, Dictionary.lastUnder?_of_perm_entriesFor hperm]
  intro e he
  exact Mo.key_toEntry_ofEntry (hentries e (hperm.mem_iff.1 he)).2 source

/-- What a source has in its file after a save: what it had, or what was written for it. -/
theorem entryIn?_of_save {now : Moment} {paths : String × String}
    (h : t.save w source now = ⟨.ok paths, t', w'⟩) (hlang : t.language = .ok lang)
    (hseparate : Separate t w.files lang source) (hkept : ∀ e ∈ t.dictionary.toList, Kept e)
    {other : String × String} (hother : other ∈ t.sources.pairs) :
    (Readable w.files lang other → Readable w'.files lang other)
      ∧ ∀ key, entryIn? w'.files lang key other
          = if other.1 = source then
              ((t.dictionary.get? key).filter fun e => e.source == source).map fun e =>
                (Mo.Record.ofEntry e).toEntry source
            else entryIn? w.files lang key other := by
  obtain ⟨bytes, hwrite, hcontent⟩ := content?_of_save h hlang hseparate
  have hfile := hcontent other hother
  by_cases heq : other.1 = source
  · rw [if_pos heq] at hfile
    obtain ⟨c, hc, -, hentries⟩ := lastUnder?_of_write hkept hwrite
    rw [← heq] at hc
    have hcatalog : catalogIn? w'.files lang other = some c :=
      catalogIn?_eq_some_iff.2 ⟨bytes, hfile, hc⟩
    refine ⟨fun _ bytes' hbytes' => ?_, fun key => ?_⟩
    · rw [hfile, Option.some.injEq] at hbytes'
      exact ⟨c, hbytes' ▸ hc⟩
    · unfold entryIn?
      rw [hcatalog, if_pos heq]
      exact hentries key
  · rw [if_neg heq] at hfile
    refine ⟨(readable_congr hfile).2, fun key => ?_⟩
    unfold entryIn?
    rw [catalogIn?_congr hfile, if_neg heq]

/-! ## §4. Saves that succeed. -/

/-- What is written for some entries that are in order and the forms of what is pending. -/
def orderedExport (t : Translator) (lang : String) (source : String × String)
    (entries : List Entry) (pending : List (List String)) (stamp : Timestamp) : Export where
  catalogPath := pathOf lang source
  catalog := Mo.image .little (Mo.recordsOf entries (t.dictionary.metadataOf? source.1) stamp)
  textPath := Path.textFormOf (pathOf lang source)
  textForm := bytesOf (Po.write entries (t.dictionary.metadataOf? source.1) pending stamp)

/-- What is written for some entries that are in order when nothing is pending. -/
def plainExport (t : Translator) (lang : String) (source : String × String) (entries : List Entry)
    (stamp : Timestamp) : Export :=
  t.orderedExport lang source entries [] stamp

/-- What is exported when the session can be read and the numbers in the catalog fit their words. -/
theorem exportOf_of_ordered {dir : String} {entries : List Entry} {pending : PendingStrings}
    {session : SessionStore} {stamp : Timestamp}
    (hloaded : t.loaded = true) (hdir : t.sources.get? source = some dir)
    (hlang : t.language = .ok lang) (hpending : t.tracker.pending session lang = .ok pending)
    (hentries : t.dictionary.entriesFor source = entries)
    (hordered : entries.mergeSort Entry.keyLE = entries)
    (hfits : Mo.FitsWords (Mo.recordsOf entries (t.dictionary.metadataOf? source) stamp)) :
    t.exportOf session source stamp
      = .ok (t.orderedExport lang (source, dir) entries (unknownForms t.dictionary pending)
          stamp) := by
  have hwrite : Mo.write (t.dictionary.sortedEntriesFor source)
      (t.dictionary.metadataOf? source) stamp
        = .ok (Mo.image .little
            (Mo.recordsOf entries (t.dictionary.metadataOf? source) stamp)) := by
    unfold Dictionary.sortedEntriesFor
    rw [hentries, hordered, Mo.write_eq_ok_iff, hordered]
    exact ⟨hfits, rfl⟩
  refine exportOf_eq_ok_iff.2 ⟨hloaded, dir, lang, _, _, hdir, hlang, hpending, hwrite, ?_⟩
  rw [hentries]
  rfl

/-- **A save succeeds** when the session can be read and cleared, the numbers in the catalog fit
their words and both files can be written. -/
theorem save_of_pending {dir : String} {entries : List Entry} {pending : PendingStrings}
    {session : SessionStore} {now : Moment}
    (hloaded : t.loaded = true) (hdir : t.sources.get? source = some dir)
    (hlang : t.language = .ok lang) (hdevelopment : t.productionMode = false)
    (hpending : t.tracker.pending w.session lang = .ok pending)
    (hclear : t.tracker.clear w.session lang = .ok session)
    (hentries : t.dictionary.entriesFor source = entries)
    (hordered : entries.mergeSort Entry.keyLE = entries)
    (hfits : Mo.FitsWords
      (Mo.recordsOf entries (t.dictionary.metadataOf? source) now.stamp))
    (hwritten : ((t.orderedExport lang (source, dir) entries (unknownForms t.dictionary pending)
      now.stamp).writeTo w.files now.seconds).1.isOk = true) :
    t.save w source now
      = ⟨.ok (pathOf lang (source, dir), Path.textFormOf (pathOf lang (source, dir))), t,
          { w with
              files := ((t.orderedExport lang (source, dir) entries
                (unknownForms t.dictionary pending) now.stamp).writeTo w.files now.seconds).2
              session := session }⟩ := by
  have hexport := @exportOf_of_ordered t source lang dir entries pending w.session now.stamp
    hloaded hdir hlang hpending hentries hordered hfits
  cases hfiles : (t.orderedExport lang (source, dir) entries (unknownForms t.dictionary pending)
      now.stamp).writeTo w.files now.seconds with
  | mk result fs =>
      rw [hfiles] at hwritten
      cases result with
      | error fault => cases hwritten
      | ok u =>
          refine save_eq_ok_iff.2 ⟨_, _, lang, hexport, hfiles, hlang, settle_eq_ok_iff.2
            ⟨session, hclear, ?_⟩, rfl, rfl⟩
          rw [hdevelopment]
          rfl

/-- **A save succeeds** when the session is new, the numbers in the catalog fit their words and
both files can be written. -/
theorem save_of_ordered {dir : String} {entries : List Entry} {now : Moment}
    (hloaded : t.loaded = true) (hdir : t.sources.get? source = some dir)
    (hlang : t.language = .ok lang) (hdevelopment : t.productionMode = false)
    (hsession : w.session = .empty) (hentries : t.dictionary.entriesFor source = entries)
    (hordered : entries.mergeSort Entry.keyLE = entries)
    (hfits : Mo.FitsWords
      (Mo.recordsOf entries (t.dictionary.metadataOf? source) now.stamp))
    (hwritten : ((t.plainExport lang (source, dir) entries now.stamp).writeTo w.files
      now.seconds).1.isOk = true) :
    t.save w source now
      = ⟨.ok (pathOf lang (source, dir), Path.textFormOf (pathOf lang (source, dir))), t,
          { w with files := ((t.plainExport lang (source, dir) entries now.stamp).writeTo w.files
              now.seconds).2 }⟩ := by
  have hpending : t.tracker.pending w.session lang = .ok .empty := by
    rw [hsession]
    rfl
  have hclear : t.tracker.clear w.session lang = .ok w.session := by
    rw [hsession]
    rfl
  have hplain : t.plainExport lang (source, dir) entries now.stamp
      = t.orderedExport lang (source, dir) entries (unknownForms t.dictionary .empty) now.stamp :=
    rfl
  rw [hplain] at hwritten ⊢
  exact save_of_pending hloaded hdir hlang hdevelopment hpending hclear hentries hordered hfits
    hwritten

end MessageCatalog.Translator
