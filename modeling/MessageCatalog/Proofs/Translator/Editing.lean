/-
  MessageCatalog.Proofs.Translator.Editing
  ────────────────────────────────
  **WHAT SETTING A TRANSLATION KEEPS.**

  A translation that is set replaces the whole entry of its message and no other one
  (`revises_insert`).  What the new entry has for its original is not what the old one had: it is
  what the message is pending with, or else the message alone.

      pending with a plural        this plural
      pending without one          no plural
      not pending                  no plural, also if the entry before had one

  So the plural of an entry goes when its translation is set again, unless the message is pending
  with it (`entry_of_setTranslation`, `plural_lost_by_setTranslation`).
-/
import MessageCatalog.Proofs.Translator.Handover
import MessageCatalog.Proofs.Translator.Texts

namespace MessageCatalog

open Tracker.Call

/-! ## §1. One entry. -/

/-- A dictionary with an entry in it, and everything else as it was: an entry under a new key comes
last, and one under an old key takes its place. -/
structure Dictionary.Revises (d d' : Dictionary) (e : Entry) : Prop where
  entry : d'.get? e.key = some e
  others : ∀ key, key ≠ e.key → d'.get? key = d.get? key
  order : d'.entries.keys
    = if e.key ∈ d.entries.keys then d.entries.keys else d.entries.keys ++ [e.key]
  metadata : d'.metadata = d.metadata

theorem Dictionary.revises_insert (d : Dictionary) (e : Entry) : d.Revises (d.insert e) e where
  entry := by
    rw [Dictionary.get?_insert, if_pos rfl]
  others key hkey := by
    rw [Dictionary.get?_insert, if_neg (Ne.symm hkey)]
  order := OrderedMap.keys_insert d.entries e.key e
  metadata := rfl

/-- The plural of a message is the second of its forms. -/
theorem Entry.plural?_forms (message : String) (plural : Option String)
    (translation : List String) (source : String) :
    (Entry.mk (Tracker.forms message plural) translation source).plural? = plural := by
  cases plural with
  | none => rfl
  | some plural => rfl

/-- The plural that a message is to keep: the one that it is pending with, and if it is not
pending, the one that its entry has. -/
def pluralToKeep (pending : Option (Option String)) (stored : Option Entry) : Option String :=
  pending.getD (stored.bind Entry.plural?)

/-- What is pending is kept, and besides it only that there is no plural. -/
theorem join_eq_pluralToKeep_iff (pending : Option (Option String)) (stored : Option Entry) :
    pending.join = pluralToKeep pending stored
      ↔ pending.isSome = true ∨ stored.bind Entry.plural? = none := by
  unfold pluralToKeep
  cases pending with
  | none => simp [eq_comm]
  | some plural => simp

namespace Translator

/-! ## §2. Setting a translation. -/

/-- **Setting a translation puts one entry into what is loaded** and leaves everything else alone:
the other entries, their order, the headers and what is pending.  The entry has the translation and
the source that were given, and the plural that the message is pending with.  That is the plural to
keep exactly if the message is pending or had none before. -/
theorem entry_of_setTranslation {start s : State} {events : List Event} {t' : Translator}
    {w' : Workspace} {message source : String} {translation : List String}
    (hstart : start.workspace.session.Tracked)
    (hothers : ∀ w, Event.outside w ∈ events → w.session.Tracked)
    (hs : start.through events = s)
    (hset : s.translator.setTranslation s.workspace message translation source
      = ⟨.ok (), t', w'⟩) :
    ∃ loaded lang, ∃ pending : Option (Option String),
      s.translator.ensureLoaded s.workspace = ⟨.ok (), loaded, w'⟩
        ∧ loaded.language = .ok lang
        ∧ s.translator.tracker.get s.workspace.session lang message
            = .ok (pending.map (Tracker.forms message))
        ∧ t' = { loaded with dictionary := t'.dictionary }
        ∧ loaded.dictionary.Revises t'.dictionary
            ⟨Tracker.forms message pending.join, translation, source⟩
        ∧ ((t'.dictionary.get? message).bind Entry.plural?
              = pluralToKeep pending (loaded.dictionary.get? message)
            ↔ pending.isSome = true ∨ (loaded.dictionary.get? message).bind Entry.plural? = none)
        ∧ w'.session = s.workspace.session := by
  have htracked : s.workspace.session.Tracked := by
    rw [← hs]
    exact tracked_through hstart hothers
  obtain ⟨calls, hcalls⟩ := htracked
  rcases setTranslation_outcome s.translator s.workspace message translation source with
    ⟨fault, heq⟩ | ⟨lang, forms, hload, hlang, hget, heq⟩
  · rw [heq] at hset
    cases hset
  · rw [heq] at hset
    cases hset
    rw [tracker_ensureLoaded, session_ensureLoaded] at hget
    obtain ⟨pending, rfl⟩ : ∃ pending : Option (Option String),
        forms = pending.map (Tracker.forms message) := by
      rw [hcalls.get, Except.ok.injEq] at hget
      exact ⟨_, hget.symm⟩
    -- a message that is not pending is its only form
    have horiginal : (pending.map (Tracker.forms message)).getD [message]
        = Tracker.forms message pending.join := by
      cases pending <;> rfl
    rw [horiginal]
    have hrevises := (s.translator.ensureLoaded s.workspace).translator.dictionary.revises_insert
      ⟨Tracker.forms message pending.join, translation, source⟩
    refine ⟨_, lang, pending, by rw [← hload], hlang, hget, rfl, hrevises, ?_,
      session_ensureLoaded ..⟩
    have hentry := hrevises.entry
    change Dictionary.get? _ message = _ at hentry
    rw [hentry, Option.bind_some, Entry.plural?_forms]
    exact join_eq_pluralToKeep_iff pending _

/-- A message that is pending with its plural, in a language with other messages. -/
theorem entry_of_setTranslation_sought :
    ∃ t', seekingEditor.setTranslation (overlappingWith soughtCalls) "Dog" ["Pes", "Psi"] "a"
        = ⟨.ok (), t', overlappingWith soughtCalls⟩
      ∧ t'.dictionary.get? "Dog" = some ⟨["Dog", "Dogs"], ["Pes", "Psi"], "a"⟩
      ∧ t'.dictionary.get? "Hello" = seekingEditor.dictionary.get? "Hello" := by
  have hget : seekingEditor.tracker.get (session soughtCalls) "cs" "Dog"
      = .ok (some ["Dog", "Dogs"]) := by
    rw [(SessionStore.Retains.all soughtCalls).get]
    decide +kernel
  have hset := @setTranslation_of_pending seekingEditor (overlappingWith soughtCalls) _ _ "cs" "Dog"
    "a" ["Pes", "Psi"] _ (ensureLoaded_of_loaded rfl) rfl hget
  obtain ⟨loaded, lang, pending, hload, hlang, hpending, -, hrevises, -⟩ :=
    entry_of_setTranslation SessionStore.tracked_empty tracked_of_seeking through_seeking hset
  rw [ensureLoaded_of_loaded rfl] at hload
  cases hload
  cases hlang
  change seekingEditor.tracker.get (session soughtCalls) "cs" "Dog" = _ at hpending
  rw [hget, Except.ok.injEq] at hpending
  have hjoin : pending.join = some "Dogs" := by
    rcases pending with - | - | plural
    · cases hpending
    · cases hpending
    · cases hpending
      rfl
  rw [hjoin] at hrevises
  exact ⟨_, hset, hrevises.entry, hrevises.others "Hello" (by decide)⟩

/-- **A plural that is lost**: the message is in the catalog with its plural and is not pending, and
its translation is set again. -/
theorem plural_lost_by_setTranslation :
    ∃ s t', State.through ⟨withDefaults true false, startOf (counted [])⟩
          [.own (.addSource "d" "a"), .own (.setLang "cs"), .own .ensureLoaded] = s
      ∧ s.translator.dictionary.get? "Cat" = some ⟨["Cat", "Cats"], ["a", "b", "c"], "a"⟩
      ∧ s.translator.tracker.get s.workspace.session "cs" "Cat" = .ok none
      ∧ s.translator.setTranslation s.workspace "Cat" ["x", "y", "z"] "a"
          = ⟨.ok (), t', s.workspace⟩
      ∧ t'.dictionary.get? "Cat" = some ⟨["Cat"], ["x", "y", "z"], "a"⟩ := by
  have hsetUp : State.through ⟨withDefaults true false, startOf (counted [])⟩
      [.own (.addSource "d" "a"), .own (.setLang "cs")] = ⟨czechCounter, startOf (counted [])⟩ := rfl
  have hload : State.apply ⟨czechCounter, startOf (counted [])⟩ .ensureLoaded
      = ⟨loadedCounter [], startOf (counted [])⟩ :=
    apply_ensureLoaded_of_readable rfl rfl rfl (readable_counted (by decide +kernel))
  have hthrough : State.through ⟨withDefaults true false, startOf (counted [])⟩
      [.own (.addSource "d" "a"), .own (.setLang "cs"), .own .ensureLoaded]
        = ⟨loadedCounter [], startOf (counted [])⟩ := by
    show State.through _ ([.own (.addSource "d" "a"), .own (.setLang "cs")]
      ++ [.own .ensureLoaded]) = _
    rw [State.through_append, hsetUp]
    exact hload
  have hget : (loadedCounter []).tracker.get SessionStore.empty "cs" "Cat" = .ok none := rfl
  have hset := @setTranslation_of_pending (loadedCounter []) (startOf (counted [])) _ _ "cs" "Cat"
    "a" ["x", "y", "z"] _ (ensureLoaded_of_loaded rfl) rfl hget
  refine ⟨_, _, hthrough, by decide +kernel, hget, hset, ?_⟩
  exact (Dictionary.revises_insert _ ⟨["Cat"], ["x", "y", "z"], "a"⟩).entry

end Translator

end MessageCatalog
