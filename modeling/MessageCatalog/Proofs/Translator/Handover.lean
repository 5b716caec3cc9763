/-
  MessageCatalog.Proofs.Translator.Handover
  ────────────────────────────────
  **WHAT WAITS GOES INTO THE TEXT FORM.**

  A save clears what is pending in its language, so it has to hand it over first: to the
  dictionary, which has a translation of it by then, or to the text form, where it stands
  after all entries (`write_forms`).  It does so in every session that only trackers have
  written to, and whatever translators do leaves a session like that (`tracked_through`).
  So no save drops a message (`handed_over_by_save`).
-/
import MessageCatalog.Proofs.Session.History
import MessageCatalog.Proofs.Translator.Lifetime

namespace MessageCatalog

open MessageCatalog.Text Tracker.Call

/-! ## §1. Blocks of what waits. -/

namespace Po

/-- The block of an original that waits for its translation. -/
def waitingBlock (original : String) (plural : Option String) : String :=
  "msgid \"" ++ escape original ++ "\"\n"
    ++ (match plural with
      | some plural => "msgid_plural \"" ++ escape plural ++ "\"\n"
      | none => "")
    ++ "msgstr \"\"\n\n"

/-- The blocks of originals with their plurals, one after the other. -/
def waitingText (pairs : List (String × Option String)) : String :=
  String.join (pairs.map fun (original, plural) => waitingBlock original plural)

theorem escape_empty : escape "" = "" := rfl

theorem field_line (keyword text : String) :
    field keyword text ++ "\n" = keyword ++ " \"" ++ escape text ++ "\"\n" := by
  unfold field
  simp [String.append_assoc]

theorem join_pendingBlock {original : String} (h : isBlank original = false)
    (plural : Option String) :
    String.join ((pendingBlock (Tracker.forms original plural)).map (· ++ "\n"))
      = waitingBlock original plural := by
  unfold Tracker.forms pendingBlock
  simp only [h, Bool.false_eq_true, if_false]
  unfold originalLines waitingBlock
  cases plural with
  | none => simp [field_line, escape_empty, String.append_assoc]
  | some plural => simp [field_line, escape_empty, String.append_assoc]

/-- **What waits is written after all entries**, in its order. -/
theorem write_forms (entries : List Entry) (metadata : Option Metadata)
    {pairs : List (String × Option String)} (now : Timestamp)
    (h : ∀ pair ∈ pairs, isBlank pair.1 = false) :
    write entries metadata (pairs.map fun (original, plural) => Tracker.forms original plural) now
      = write entries metadata [] now ++ waitingText pairs := by
  -- banner, header and entries are the same lines in both texts
  have hblocks : String.join (((pairs.map fun (original, plural) =>
      Tracker.forms original plural).flatMap pendingBlock).map (· ++ "\n")) = waitingText pairs := by
    induction pairs with
    | nil => rfl
    | cons pair pairs ih =>
        rw [List.forall_mem_cons] at h
        rw [List.map_cons, List.flatMap_cons, List.map_append, String.join_append, ih h.2,
          join_pendingBlock h.1]
        unfold waitingText
        rw [List.map_cons, String.join_cons]
  unfold write lines
  rw [List.map_append, String.join_append, hblocks, List.flatMap_nil, List.append_nil]

end Po

namespace Translator

/-! ## §2. Sessions along a run. -/

section Runs

variable {s : State}

theorem workspace_setUp (s : State) (result : Except CatalogError Translator) :
    (s.setUp result).workspace = s.workspace := by
  cases result <;> rfl

/-- Whatever a translator does, only its tracker writes to the session. -/
theorem tracked_apply (h : s.workspace.session.Tracked) (op : Operation) :
    (s.apply op).workspace.session.Tracked := by
  have hload : (s.translator.ensureLoaded s.workspace).workspace.session.Tracked := by
    rw [session_ensureLoaded]
    exact h
  cases op with
  | addSource dir identifier =>
      show (s.setUp _).workspace.session.Tracked
      rw [workspace_setUp]
      exact h
  | setLang lang =>
      show (s.setUp _).workspace.session.Tracked
      rw [workspace_setUp]
      exact h
  | setProductionMode on => exact h
  | ensureLoaded | variantsCount | stringsOf | groupedStrings =>
      rw [apply_of_onlyLoads rfl]
      exact hload
  | lookup message form =>
      show (s.translator.lookup s.workspace message form).state.workspace.session.Tracked
      rcases lookup_cases s.translator s.workspace message form with
        heq | ⟨lang, session, -, hrecord, heq⟩
      · rw [heq]
        exact hload
      · rw [heq]
        exact hload.record hrecord
  | setTranslation message translation source =>
      show (s.translator.setTranslation s.workspace message translation
        source).state.workspace.session.Tracked
      rcases setTranslation_cases s.translator s.workspace message translation source with
        heq | ⟨lang, forms, -, -, heq⟩ <;> rw [heq] <;> exact hload
  | save source now =>
      show (s.translator.save s.workspace source now).state.workspace.session.Tracked
      rcases save_cases s.translator s.workspace source now with
        heq | ⟨x, session, cache, -, rfl | ⟨lang, hclear⟩, heq⟩
      · rw [heq]
        exact h
      · rw [heq]
        exact h
      · rw [heq]
        exact h.clear hclear
  | pass seconds => exact h

/-- **A session stays one that only trackers have written to**, as long as others leave it so. -/
theorem tracked_through {events : List Event} (h : s.workspace.session.Tracked)
    (hothers : ∀ w, Event.outside w ∈ events → w.session.Tracked) :
    (s.through events).workspace.session.Tracked := by
  induction events generalizing s with
  | nil => exact h
  | cons e events ih =>
      refine ih ?_ fun w hw => hothers w (List.mem_cons_of_mem _ hw)
      cases e with
      | own op => exact tracked_apply h op
      | outside w => exact hothers w List.mem_cons_self

end Runs

/-! ## §3. Handing over. -/

variable {t t' : Translator} {w w' : Workspace} {source : String}
variable {calls : List Tracker.Call}

/-- What waits and is not in the dictionary is what goes into the text form. -/
theorem unknownForms_forms (d : Dictionary) (m : Waiting) :
    unknownForms d m.forms
      = (m.pairs.filter fun pair => !d.contains pair.1).map fun (original, plural) =>
          Tracker.forms original plural := by
  unfold unknownForms OrderedMap.values Waiting.forms
  rw [List.map_map, List.filter_map]
  rfl

/-- The text form that a save writes when nothing is pending. -/
def plainText (t : Translator) (source : String) (stamp : Timestamp) : String :=
  Po.write (t.dictionary.entriesFor source) (t.dictionary.metadataOf? source) [] stamp

/-- The originals that wait for a translator and are not in its dictionary, in their order. -/
def unknown (t : Translator) (lang : String) (calls : List Tracker.Call) :
    List (String × Option String) :=
  (t.tracker.awaited lang calls).pairs.filter fun pair => !t.dictionary.contains pair.1

/-- A save that succeeds writes what waits into the text form and clears it. -/
theorem textForm_of_save {now : Moment} {paths : String × String}
    (hretains : w.session.Retains calls) (h : t.save w source now = ⟨.ok paths, t', w'⟩) :
    ∃ lang, t.language = .ok lang
      ∧ w'.files.content? paths.2
        = some (bytesOf (t.plainText source now.stamp ++ Po.waitingText (t.unknown lang calls)))
      ∧ t.tracker.clear w.session lang = .ok w'.session := by
  obtain ⟨x, fs, lang, hexport, hwrite, hlang, hsettle, -, rfl⟩ := save_eq_ok_iff.1 h
  obtain ⟨-, dir, lang', pending, catalog, -, hlang', hpending, -, rfl⟩ :=
    exportOf_eq_ok_iff.1 hexport
  rw [hlang, Except.ok.injEq] at hlang'
  subst hlang'
  obtain ⟨between, -, htext⟩ := writeTo_eq_ok_iff.1 hwrite
  obtain ⟨session', hclear, hw'⟩ := settle_eq_ok_iff.1 hsettle
  have hparts : w'.files = fs ∧ w'.session = session' := by
    rw [hw']
    split <;> exact ⟨rfl, rfl⟩
  refine ⟨lang, hlang, ?_, ?_⟩
  · -- the text form is written last, so nothing is written over it
    rw [hparts.1, (FileSystem.content?_of_replace? htext).1]
    rw [hretains.pending, Except.ok.injEq] at hpending
    subst hpending
    unfold plainText unknown
    rw [← Po.write_forms, ← unknownForms_forms]
    intro pair hpair
    exact Tracker.Call.isBlank_of_mem_waiting (List.mem_map_of_mem (List.mem_filter.1 hpair).1)
  · rw [hparts.2]
    exact hclear

/-- **A save hands over all that is pending.**  In every state that translators lead to, where
only trackers have written to the session, a save that succeeds writes each original that waits
for the translator and is not in its dictionary into the text form: after all entries, in its
place, with its plural if it was recorded with one and without a translation.  After it nothing
is pending in the language, and what is pending elsewhere is what it was. -/
theorem handed_over_by_save {start s : State} {events : List Event} {now : Moment}
    {paths : String × String} (hstart : start.workspace.session.Tracked)
    (hothers : ∀ w, Event.outside w ∈ events → w.session.Tracked)
    (hs : start.through events = s)
    (hsave : s.translator.save s.workspace source now = ⟨.ok paths, t', w'⟩) :
    s.workspace.session.Tracked
      ∧ ∃ lang, s.translator.language = .ok lang
        ∧ (∀ calls, s.workspace.session.Retains calls →
            s.translator.tracker.pending s.workspace.session lang
                = .ok (s.translator.tracker.awaited lang calls).forms
              ∧ w'.files.content? paths.2
                = some (bytesOf (s.translator.plainText source now.stamp
                    ++ Po.waitingText (s.translator.unknown lang calls))))
        ∧ s.translator.tracker.pending w'.session lang = .ok .empty
        ∧ ∀ (u : Tracker) (lang' : String), u.ns ≠ s.translator.tracker.ns ∨ lang' ≠ lang →
            u.pending w'.session lang' = u.pending s.workspace.session lang' := by
  have htracked : s.workspace.session.Tracked := by
    rw [← hs]
    exact tracked_through hstart hothers
  obtain ⟨calls, hcalls⟩ := htracked
  obtain ⟨lang, hlang, -, hclear⟩ := textForm_of_save hcalls hsave
  -- what waits afterwards is what waits once the language was cleared
  obtain ⟨after, calls', hafter, hcalls', hawaited⟩ :=
    hcalls.clear s.translator.tracker lang
  rw [hclear, Except.ok.injEq] at hafter
  subst hafter
  refine ⟨⟨calls, hcalls⟩, lang, hlang, ?_, ?_, ?_⟩
  · intro kept hkept
    obtain ⟨lang', hlang', htext, -⟩ := textForm_of_save hkept hsave
    rw [hlang, Except.ok.injEq] at hlang'
    subst hlang'
    exact ⟨hkept.pending s.translator.tracker lang, htext⟩
  · rw [hcalls'.pending, hawaited, if_pos ⟨rfl, rfl⟩]
    rfl
  · intro u lang' hother
    rw [hcalls'.pending, hcalls.pending, hawaited, if_neg]
    rintro ⟨hns, hlang'⟩
    exact hother.elim (fun hne => hne hns.symm) fun hne => hne hlang'.symm

/-- Calls of the tracker of a translator: one for another language, then two of its own. -/
def soughtCalls : List Tracker.Call :=
  [.record czechEditor.tracker "de" "Hund" none,
    .record czechEditor.tracker "cs" "Dog" (some "Dogs"),
    .record czechEditor.tracker "cs" "Cat" none]

/-- The catalogs of two sources, and a session after calls. -/
def overlappingWith (calls : List Tracker.Call) : Workspace :=
  { startOf overlapping with session := session calls }

/-- Two messages are not found, and one of them is translated then. -/
def seeking : List Event :=
  [.own (.addSource "d" "a"), .own (.addSource "d" "b"), .own (.setLang "cs"),
    .outside (overlappingWith (soughtCalls.take 1)),
    .own (.lookup "Dog" (.withPlural "Dogs" 2)), .own (.lookup "Cat" .one),
    .own (.setTranslation "Cat" ["Kocka"] "a")]

/-- What comes from outside is a session of trackers. -/
theorem tracked_of_seeking (w : Workspace) (hw : Event.outside w ∈ seeking) :
    w.session.Tracked := by
  simp only [seeking, List.mem_cons, reduceCtorEq, false_or, List.not_mem_nil, or_false,
    Event.outside.injEq] at hw
  exact ⟨soughtCalls.take 1, by rw [hw]; exact .all _⟩

/-- The translator after it. -/
def seekingEditor : Translator :=
  czechEditor.withDictionary
    ((dictionaryIn overlapping "cs" twoSources).insert ⟨["Cat"], ["Kocka"], "a"⟩)

theorem through_seeking :
    State.through ⟨withDefaults true false, startOf overlapping⟩ seeking
      = ⟨seekingEditor, overlappingWith soughtCalls⟩ := by
  have hsetUp : State.through ⟨withDefaults true false, startOf overlapping⟩ (seeking.take 4)
      = ⟨czechEditor, overlappingWith (soughtCalls.take 1)⟩ := rfl
  have hload := @ensureLoaded_of_readable czechEditor (overlappingWith (soughtCalls.take 1)) "cs"
    rfl rfl rfl (readable_of_isOk (by decide +kernel))
  have hdog : State.apply ⟨czechEditor, overlappingWith (soughtCalls.take 1)⟩
      (.lookup "Dog" (.withPlural "Dogs" 2))
      = ⟨czechEditor.withDictionary (dictionaryIn overlapping "cs" twoSources),
          overlappingWith (soughtCalls.take 2)⟩ := by
    show (lookup _ _ _ _).state = _
    rw [lookup_of_missing hload (by decide +kernel) rfl
      (Tracker.record_session _ (soughtCalls.take 1) _ _ _)]
    rfl
  have hcat : State.apply ⟨czechEditor.withDictionary (dictionaryIn overlapping "cs" twoSources),
        overlappingWith (soughtCalls.take 2)⟩ (.lookup "Cat" .one)
      = ⟨czechEditor.withDictionary (dictionaryIn overlapping "cs" twoSources),
          overlappingWith soughtCalls⟩ := by
    show (lookup _ _ _ _).state = _
    rw [lookup_of_missing (ensureLoaded_of_loaded rfl) (by decide +kernel) rfl
      (Tracker.record_session _ (soughtCalls.take 2) _ _ _)]
    rfl
  have hget : czechEditor.tracker.get (session soughtCalls) "cs" "Cat" = .ok (some ["Cat"]) := by
    unfold Tracker.get
    rw [Tracker.pending_session]
    decide +kernel
  have hset : State.apply ⟨czechEditor.withDictionary (dictionaryIn overlapping "cs" twoSources),
        overlappingWith soughtCalls⟩ (.setTranslation "Cat" ["Kocka"] "a")
      = ⟨seekingEditor, overlappingWith soughtCalls⟩ := by
    show (setTranslation _ _ _ _ _).state = _
    rw [setTranslation_of_pending (ensureLoaded_of_loaded rfl) rfl hget]
    rfl
  show State.apply (State.apply (State.apply
    (State.through ⟨withDefaults true false, startOf overlapping⟩ (seeking.take 4))
      (.lookup "Dog" (.withPlural "Dogs" 2))) (.lookup "Cat" .one))
      (.setTranslation "Cat" ["Kocka"] "a") = _
  rw [hsetUp, hdog, hcat, hset]

/-- The message that was translated is in the dictionary, the other one goes into the text form. -/
theorem handed_over_by_save_sought :
    ∃ s paths w',
      State.through ⟨withDefaults true false, startOf overlapping⟩ seeking = s
        ∧ s.translator.save s.workspace "b" ⟨⟨2024, 3, 1, 9, 30, 15, 0⟩, 5⟩
            = ⟨.ok paths, s.translator, w'⟩
        ∧ w'.files.content? paths.2
          = some (bytesOf (s.translator.plainText "b" ⟨2024, 3, 1, 9, 30, 15, 0⟩
              ++ "msgid \"Dog\"\nmsgid_plural \"Dogs\"\nmsgstr \"\"\n\n"))
        ∧ s.translator.tracker.pending w'.session "cs" = .ok .empty
        ∧ s.translator.tracker.pending w'.session "de"
          = s.translator.tracker.pending s.workspace.session "de" := by
  have hsave := @save_of_pending seekingEditor (overlappingWith soughtCalls) "b" "cs" "d"
    [⟨["Hello"], ["Nazdar"], "b"⟩] _ _ ⟨⟨2024, 3, 1, 9, 30, 15, 0⟩, 5⟩ rfl rfl rfl rfl
    (Tracker.pending_session _ _ _) (Tracker.clear_session _ _ _)
    (by decide +kernel) (List.mergeSort_singleton _) (Mo.fitsWords_recordsOf (by decide +kernel))
    (by decide +kernel)
  obtain ⟨-, lang, hlang, hwritten, hcleared, hkept⟩ := handed_over_by_save
    SessionStore.tracked_empty tracked_of_seeking through_seeking hsave
  cases hlang
  have hunknown : Po.waitingText (seekingEditor.unknown "cs" soughtCalls)
      = "msgid \"Dog\"\nmsgid_plural \"Dogs\"\nmsgstr \"\"\n\n" := by
    decide +kernel
  obtain ⟨-, htext⟩ := hwritten soughtCalls (.all _)
  rw [hunknown] at htext
  exact ⟨_, _, _, through_seeking, hsave, htext, hcleared, hkept _ "de" (Or.inr (by decide))⟩

end Translator

end MessageCatalog
