/-
  MessageCatalog.Proofs.Translator.FailedSaves
  ────────────────────────────────
  **A SAVE THAT FAILS DOES NO HARM.**

  A save first puts together what it is going to write, then writes the catalog, then the text
  form, and only then forgets what is pending:

      exportOf ── catalog ── text form ── settle
          ╎          ╎           ╎
          error      error       error           settling cannot fail

  An export that was made has read the session already, so that the session can be settled
  (`exists_settle_of_exportOf`).  A save that fails therefore fails at one of the first three
  steps (`save_eq_error_iff`), before the session and the cache are touched, and the only thing
  it can have done is to replace the catalog by the complete new one.
-/
import MessageCatalog.Proofs.Translator.Saving

namespace MessageCatalog

open MessageCatalog.Text

/-! ## §1. Where a save fails. -/

/-- Messages that can be read can be cleared. -/
theorem Tracker.exists_clear_of_pending {u : Tracker} {s : SessionStore} {lang : String}
    {pending : PendingStrings} (h : u.pending s lang = .ok pending) (lang' : String) :
    ∃ s', u.clear s lang' = .ok s' := by
  unfold Tracker.pending at h
  obtain ⟨p, hp, -⟩ := bind_eq_ok_iff.1 h
  unfold Tracker.clear
  exact ⟨_, bind_eq_ok_iff.2 ⟨p, hp, rfl⟩⟩

namespace Translator

variable {t t' : Translator} {w w' : Workspace} {source : String}

theorem writeTo_eq_error_iff {x : Export} {fs fs' : FileSystem} {seconds : Int} {e : CatalogError} :
    x.writeTo fs seconds = (.error e, fs')
      ↔ e = .io
        ∧ (fs.replace? x.catalogPath x.catalog seconds = none ∧ fs' = fs
          ∨ fs.replace? x.catalogPath x.catalog seconds = some fs'
            ∧ fs'.replace? x.textPath x.textForm seconds = none) := by
  unfold Export.writeTo
  cases fs.replace? x.catalogPath x.catalog seconds with
  | none => simp [eq_comm]
  | some between =>
      cases hnext : between.replace? x.textPath x.textForm seconds with
      | none =>
          simp only [hnext, Prod.mk.injEq, Except.error.injEq, Option.some.injEq]
          constructor
          · rintro ⟨rfl, rfl⟩
            exact ⟨rfl, Or.inr ⟨rfl, hnext⟩⟩
          · rintro ⟨rfl, ⟨h, -⟩ | ⟨rfl, -⟩⟩
            · cases h
            · exact ⟨rfl, rfl⟩
      | some after =>
          simp only [hnext, Prod.mk.injEq, reduceCtorEq, false_and, Option.some.injEq, false_or,
            false_iff, not_and]
          rintro - rfl h
          rw [hnext] at h
          cases h

/-- **After an export settling cannot fail**: the language is known and the session is readable. -/
theorem exists_settle_of_exportOf {stamp : Timestamp} {x : Export}
    (h : t.exportOf w.session source stamp = .ok x) (fs : FileSystem) :
    ∃ w', t.language.bind (t.settle { w with files := fs }) = .ok w' := by
  obtain ⟨-, dir, lang, pending, bytes, -, hlang, hpending, -⟩ := exportOf_eq_ok_iff.1 h
  obtain ⟨session, hclear⟩ := Tracker.exists_clear_of_pending hpending lang
  exact ⟨_, bind_eq_ok_iff.2 ⟨lang, hlang, settle_eq_ok_iff.2 ⟨session, hclear, rfl⟩⟩⟩

/-- **A save fails** when nothing can be exported, or when one of the two files cannot be
written. -/
theorem save_eq_error_iff {now : Moment} {e : CatalogError} :
    t.save w source now = ⟨.error e, t', w'⟩
      ↔ t' = t
        ∧ (t.exportOf w.session source now.stamp = .error e ∧ w' = w
          ∨ ∃ x fs, t.exportOf w.session source now.stamp = .ok x
            ∧ x.writeTo w.files now.seconds = (.error e, fs) ∧ w' = { w with files := fs }) := by
  unfold save
  -- the steps of a save, one after the other
  cases hexport : t.exportOf w.session source now.stamp with
  | error e' =>
      simp [answer, eq_comm, and_comm, and_left_comm]
  | ok x =>
      cases hwrite : x.writeTo w.files now.seconds with
      | mk result fs =>
          cases result with
          | error e' =>
              simp [answer, hwrite, eq_comm, and_comm, and_left_comm]
          | ok u =>
              obtain ⟨w'', hsettle⟩ := exists_settle_of_exportOf hexport fs
              simp [answer, hwrite, hsettle]

/-! ## §2. What a failed save leaves. -/

/-- **A save that fails leaves everything as it was**: the translator, the session and with it
what is pending in every language, the cache, and the files, except that the catalog of the source
can hold what was to be saved, and this completely.  The text form is in no case another one. -/
theorem unchanged_of_failed_save {now : Moment} {e : CatalogError}
    (h : t.save w source now = ⟨.error e, t', w'⟩) :
    t' = t ∧ w' = { w with files := w'.files }
      ∧ (w'.files = w.files
        ∨ ∃ dir lang bytes, t.sources.get? source = some dir ∧ t.language = .ok lang
          ∧ Mo.write (t.dictionary.sortedEntriesFor source) (t.dictionary.metadataOf? source)
              now.stamp = .ok bytes
          ∧ w'.files.content? (Path.catalogFile dir lang source) = some bytes
          ∧ w'.files.content? (Path.textFormOf (Path.catalogFile dir lang source))
              = w.files.content? (Path.textFormOf (Path.catalogFile dir lang source))
          ∧ ∀ path, w.files.Apart (Path.catalogFile dir lang source) path →
              w'.files.content? path = w.files.content? path) := by
  obtain ⟨rfl, ⟨-, rfl⟩ | ⟨x, fs, hexport, hwrite, rfl⟩⟩ := save_eq_error_iff.1 h
  · -- nothing was exported, so nothing was written either
    exact ⟨rfl, rfl, Or.inl rfl⟩
  refine ⟨rfl, rfl, ?_⟩
  obtain ⟨-, ⟨-, rfl⟩ | ⟨hcatalog, -⟩⟩ := writeTo_eq_error_iff.1 hwrite
  · -- not even the catalog could be written
    exact Or.inl rfl
  · -- the catalog is the new one, and the text form, which is another file, was refused
    right
    obtain ⟨-, dir, lang, pending, bytes, hdir, hlang, -, hbytes, rfl⟩ :=
      exportOf_eq_ok_iff.1 hexport
    obtain ⟨hnew, hothers, -⟩ := FileSystem.content?_of_replace? hcatalog
    have hapart := w.files.apart_catalogFile_textFormOf dir lang source
    exact ⟨dir, lang, bytes, hdir, hlang, hbytes, hnew, hothers _ hapart, hothers⟩

/-- A catalog without bytes, beside a text form that cannot be written. -/
def lockedText : FileSystem :=
  { treeOf [("cs.a.mo", [], 1), ("cs.a.po", bytesOf "# by hand", 1)] with
    locked := [[['d'], "cs.a.po".toList]] }

/-- A translator with one message that has not been saved yet. -/
def greetingEditor : Translator :=
  { withDefaults true false with
    sources := .ofList [("a", "d")]
    lang := some "cs"
    dictionary := Dictionary.empty.insert ⟨["Hello"], ["Ahoj"], "a"⟩
    loaded := true }

/-- The message is saved into the catalog, the text form stays as it was made by hand, and the
save is reported to have failed. -/
theorem unchanged_of_failed_save_locked :
    ∃ bytes w',
      greetingEditor.save (startOf lockedText) "a" ⟨⟨2024, 3, 1, 9, 30, 15, 0⟩, 5⟩
          = ⟨.error .io, greetingEditor, w'⟩
        ∧ w' = { startOf lockedText with files := w'.files }
        ∧ Mo.write (greetingEditor.dictionary.sortedEntriesFor "a") none
            ⟨2024, 3, 1, 9, 30, 15, 0⟩ = .ok bytes
        ∧ w'.files.content? "d/cs.a.mo" = some bytes
        ∧ w'.files.content? "d/cs.a.po" = some (bytesOf "# by hand") := by
  have hexport := @exportOf_of_ordered greetingEditor "a" "cs" "d" [⟨["Hello"], ["Ahoj"], "a"⟩]
    .empty .empty ⟨2024, 3, 1, 9, 30, 15, 0⟩ rfl rfl rfl rfl (by decide +kernel)
    (List.mergeSort_singleton _) (Mo.fitsWords_recordsOf (by decide +kernel))
  generalize hx : greetingEditor.orderedExport "cs" ("a", "d") [⟨["Hello"], ["Ahoj"], "a"⟩]
    (unknownForms greetingEditor.dictionary .empty) ⟨2024, 3, 1, 9, 30, 15, 0⟩ = x at hexport
  -- the catalog can be written, and then the text form cannot
  obtain ⟨fs, hfirst⟩ : ∃ fs, lockedText.replace? x.catalogPath x.catalog 5 = some fs := by
    apply Option.isSome_iff_exists.1
    subst hx
    decide +kernel
  have hsecond : fs.replace? x.textPath x.textForm 5 = none := by
    have hstops : (lockedText.replace? x.catalogPath x.catalog 5).bind
        (fun fs => fs.replace? x.textPath x.textForm 5) = none := by
      subst hx
      decide +kernel
    rw [hfirst] at hstops
    exact hstops
  have hsave : greetingEditor.save (startOf lockedText) "a" ⟨⟨2024, 3, 1, 9, 30, 15, 0⟩, 5⟩
      = ⟨.error .io, greetingEditor, { startOf lockedText with files := fs }⟩ :=
    save_eq_error_iff.2 ⟨rfl, Or.inr ⟨x, fs, hexport,
      writeTo_eq_error_iff.2 ⟨rfl, Or.inr ⟨hfirst, hsecond⟩⟩, rfl⟩⟩
  have hnew : fs.content? "d/cs.a.mo" = some x.catalog := by
    have hpath : x.catalogPath = "d/cs.a.mo" := by
      subst hx
      decide +kernel
    rw [← hpath]
    exact (FileSystem.content?_of_replace? hfirst).1
  obtain ⟨-, hrest, hsame | ⟨dir, lang, bytes, hdir, hlang, hbytes, hcatalog, htext, -⟩⟩ :=
    unchanged_of_failed_save hsave
  · exfalso
    have hfiles : fs = lockedText := hsame
    rw [hfiles] at hnew
    have hempty : lockedText.content? "d/cs.a.mo" = some [] := by decide +kernel
    have hne : x.catalog ≠ [] := by
      subst hx
      decide +kernel
    rw [hempty, Option.some.injEq] at hnew
    exact hne hnew.symm
  · cases hdir
    cases hlang
    exact ⟨bytes, _, hsave, hrest, hbytes, hcatalog, htext.trans (by decide +kernel)⟩

end Translator

end MessageCatalog
