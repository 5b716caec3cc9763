/-
  MessageCatalog.Proofs.Session.Recorded
  ────────────────────────────────
  **WHAT WAS RECORDED IS WHAT IS PENDING.**

  What is pending in a language of a namespace can be read off the calls.  Only the
  messages count that were recorded there since the language was cleared last:

      record Cat    clear    record Dog    record Cat    record Dog + Dogs
                           └───────────────────────────────────────────────┘

  Here Dog is pending before Cat, as it was recorded first, and with its plural, as it was
  recorded with it last.

  In any session, a call changes one language of one namespace and leaves all that is
  pending elsewhere as it was (`apply_cases`), and a session value of another shape is
  refused by whoever reads it (`decode_eq_error_iff`).
-/
import Mathlib.Data.List.DropRight
import MessageCatalog.Proofs.Session.History

namespace MessageCatalog

open MessageCatalog.Text

/-! ## §1. Recordings that count. -/

namespace Tracker.Call

/-- Whether a call clears a language of a namespace. -/
def clears (ns lang : String) : Call → Bool
  | .record _ _ _ _ => false
  | .clear t lang' => t.ns == ns && lang' == lang

/-- The message that a call records in a language of a namespace, with its plural; a blank one
is not recorded, and none is when recording is not possible. -/
def recorded? (ns lang : String) : Call → Option (String × Option String)
  | .record t lang' original plural =>
      if t.canRecord ∧ t.ns = ns ∧ lang' = lang ∧ isBlank original = false then
        some (original, plural)
      else none
  | .clear _ _ => none

/-- The messages that were recorded in a language of a namespace since it was cleared last, in
the order of their recordings. -/
def recordings (ns lang : String) (calls : List Call) : List (String × Option String) :=
  (calls.rtakeWhile fun call => !call.clears ns lang).filterMap (recorded? ns lang)

section Recordings

variable {ns lang : String}

theorem recordings_concat (calls : List Call) (call : Call) :
    recordings ns lang (calls ++ [call])
      = if call.clears ns lang then []
        else recordings ns lang calls ++ (call.recorded? ns lang).toList := by
  unfold recordings
  rw [List.rtakeWhile_concat]
  cases call.clears ns lang with
  | true => rfl
  | false =>
      simp only [Bool.not_false, if_true, Bool.false_eq_true, if_false, List.filterMap_append]
      cases hcall : call.recorded? ns lang <;> simp [hcall]

/-- What a call makes of what waits: nothing of it is left, or the recorded message is added. -/
theorem update_ofList (pairs : List (String × Option String)) (call : Call) :
    call.update ns lang (.ofList pairs)
      = .ofList (if call.clears ns lang then [] else pairs ++ (call.recorded? ns lang).toList) := by
  cases call with
  | record t lang' original plural =>
      rw [update_record]
      show _ = OrderedMap.ofList (pairs ++ Option.toList (if _ then _ else none))
      split
      next => exact (OrderedMap.ofList_concat pairs (original, plural)).symm
      next => rw [Option.toList_none, List.append_nil]
  | clear t lang' =>
      rw [update_clear]
      show _ = OrderedMap.ofList (if (t.ns == ns && lang' == lang) = true then []
        else pairs ++ [])
      simp only [Bool.and_eq_true, beq_iff_eq, List.append_nil]
      split
      next => rfl
      next => rfl

/-- **What waits are the recordings that count.** -/
theorem waiting_eq_ofList (calls : List Call) :
    waiting ns lang calls = .ofList (recordings ns lang calls) := by
  induction calls using List.reverseRecOn with
  | nil => rfl
  | append_singleton calls call ih =>
      rw [waiting_concat, recordings_concat, ih, update_ofList]

end Recordings

end Tracker.Call

/-! ## §2. What a call leaves alone. -/

namespace Tracker

open Call

variable {t u : Tracker} {s : SessionStore} {call : Call} {ns lang : String}

/-- A call that cannot read the session value does nothing. -/
theorem apply_eq_self_of_stored {e : CatalogError} (h : stored s call.tracker.ns = .error e) :
    call.apply s = s := by
  rcases apply_cases s call with heq | ⟨p, p', hp, -, -⟩
  · exact heq
  · rw [h] at hp
    cases hp

/-- A call leaves the values of other namespaces as they are. -/
theorem load_apply_of_ne (h : ns ≠ call.tracker.ns) (s : SessionStore) (key : String) :
    (call.apply s).load ns key = s.load ns key := by
  rcases apply_cases s call with heq | ⟨p, p', -, heq, -⟩
  · rw [heq]
  · rw [heq]
    unfold store
    rw [SessionStore.load_store, if_neg]
    rintro ⟨-, hkey⟩
    exact h (Prod.ext_iff.1 hkey).1.symm

/-- **A call leaves what is pending in other namespaces and languages as it is.** -/
theorem pending_apply_of_ne (h : u.ns ≠ call.tracker.ns ∨ lang ≠ call.lang) (s : SessionStore) :
    u.pending (call.apply s) lang = u.pending s lang := by
  unfold pending
  rw [decode_load, decode_load]
  rcases apply_cases s call with heq | ⟨p, p', hp, heq, hlang⟩
  · rw [heq]
  · rw [heq, stored_store]
    split
    next hown =>
      have hns : call.tracker.ns = u.ns := hown.2
      have hother : call.lang ≠ lang := by
        rcases h with hne | hne
        · exact absurd hns.symm hne
        · exact hne.symm
      rw [← hns, hp]
      show Except.ok (p'.forLanguage lang) = Except.ok (p.forLanguage lang)
      rw [hlang lang hother]
    next => rfl

end Tracker

/-! ## §3. Values of another shape. -/

namespace Pending

/-- A value that holds pending messages: an object of the languages, in it an object of the
originals, in it a list of texts. -/
def Shape (value : Json) : Prop :=
  ∃ languages, value = .object languages ∧ ∀ language ∈ languages,
    ∃ originals, language.2 = .object originals ∧ ∀ original ∈ originals,
      ∃ forms, original.2 = Json.ofStrings forms

theorem isSome_readFields_iff {α : Type} {read : Json → Option α} {fields : List (String × Json)} :
    (readFields read fields).isSome ↔ ∀ field ∈ fields, (read field.2).isSome := by
  induction fields with
  | nil => simp [readFields]
  | cons field fields ih =>
      obtain ⟨key, value⟩ := field
      rw [List.forall_mem_cons, ← ih, readFields]
      cases read value <;> cases readFields read fields <;> simp

theorem isSome_mapOfJson_iff {α : Type} {read : Json → Option α} {value : Json} :
    (mapOfJson read value).isSome
      ↔ ∃ fields, value = .object fields ∧ ∀ field ∈ fields, (read field.2).isSome := by
  cases value with
  | object fields =>
      unfold mapOfJson
      rw [Option.isSome_map, isSome_readFields_iff]
      simp
  | null | bool | number | string | array => simp [mapOfJson]

/-- A list that is read as texts is the list of these texts. -/
theorem eq_map_of_mapM_textOfJson {items : List Json} {texts : List String}
    (h : items.mapM textOfJson = some texts) : items = texts.map .string := by
  induction items generalizing texts with
  | nil =>
      cases h
      rfl
  | cons item items ih =>
      rw [List.mapM_cons] at h
      obtain ⟨text, htext, hrest⟩ := Option.bind_eq_some_iff.1 h
      obtain ⟨rest, hitems, heq⟩ := Option.bind_eq_some_iff.1 hrest
      cases heq
      cases item with
      | string found =>
          cases htext
          rw [List.map_cons, ← ih hitems]
      | null | bool | number | array | object => cases htext

theorem isSome_formsOfJson_iff {value : Json} :
    (formsOfJson value).isSome ↔ ∃ forms, value = Json.ofStrings forms := by
  constructor
  · intro h
    obtain ⟨forms, hforms⟩ := Option.isSome_iff_exists.1 h
    cases value with
    | array items => exact ⟨forms, congrArg Json.array (eq_map_of_mapM_textOfJson hforms)⟩
    | null | bool | number | string | object => cases hforms
  · rintro ⟨forms, rfl⟩
    rw [formsOfJson_ofStrings]
    rfl

/-- **Exactly the values of the right shape are read.** -/
theorem isSome_ofJson_iff {value : Json} : (ofJson value).isSome ↔ Shape value := by
  unfold ofJson Shape
  simp only [isSome_mapOfJson_iff, isSome_formsOfJson_iff]

end Pending

namespace Tracker

open Call

variable {t : Tracker} {s : SessionStore} {value : Json}

theorem decode_eq_error_iff {e : CatalogError} :
    decode (some value) = .error e ↔ ¬ Pending.Shape value ∧ e = .serialization := by
  unfold decode
  rw [← Pending.isSome_ofJson_iff]
  cases hread : Pending.ofJson value <;> simp [hread, eq_comm]

/-- A call that reads a value of another shape fails and leaves the session as it was. -/
theorem refused_of_not_shape (hvalue : s.load t.ns newStringsKey = some value)
    (hshape : ¬ Pending.Shape value) (lang original : String) (plural : Option String) :
    t.pending s lang = .error .serialization ∧ t.get s lang original = .error .serialization
      ∧ t.clear s lang = .error .serialization
      ∧ (t.canRecord = true → isBlank original = false →
          t.record s lang original plural = .error .serialization)
      ∧ ∀ call : Call, call.tracker = t → call.apply s = s := by
  have hstored : stored s t.ns = .error .serialization := by
    unfold stored
    rw [hvalue]
    exact decode_eq_error_iff.2 ⟨hshape, rfl⟩
  have hdecode : decode (t.load s) = .error .serialization := hstored
  have hpending : t.pending s lang = .error .serialization := by
    unfold pending
    rw [hdecode]
    rfl
  refine ⟨hpending, ?_, ?_, ?_, ?_⟩
  · unfold get
    rw [hpending]
    rfl
  · unfold clear
    rw [hdecode]
    rfl
  · intro hcan hblank
    unfold record accepts
    rw [hblank, hcan, hdecode]
    rfl
  · rintro call rfl
    exact apply_eq_self_of_stored hstored

/-! ## §4. Ordered maps. -/

/-- **A tracker keeps an ordered map for each language of its namespace.**

After any calls, what is pending in a language are the messages that were recorded there since it
was cleared last: each where it was recorded first, with the forms it was recorded with last.  A
call leaves every other namespace and language as it was.  Where the session has a value of
another shape, everything that reads it fails, and the session stays as it was. -/
theorem pending_of_calls :
    (∀ (t : Tracker) (calls : List Call) (lang : String),
        ∃ strings, t.pending (session calls) lang = .ok strings
          ∧ strings.keys = ((recordings t.ns lang calls).map Prod.fst).eraseDups
          ∧ ∀ original, strings.get? original
              = (OrderedMap.lastValue? original (recordings t.ns lang calls)).map (forms original))
      ∧ (∀ (s : SessionStore) (call : Call),
          (∀ ns key, ns ≠ call.tracker.ns → (call.apply s).load ns key = s.load ns key)
            ∧ ∀ (u : Tracker) (lang : String), u.ns ≠ call.tracker.ns ∨ lang ≠ call.lang →
                u.pending (call.apply s) lang = u.pending s lang)
      ∧ ∀ (t : Tracker) (s : SessionStore) (value : Json),
          s.load t.ns newStringsKey = some value → ¬ Pending.Shape value →
          ∀ (lang original : String) (plural : Option String),
            t.pending s lang = .error .serialization ∧ t.get s lang original = .error .serialization
              ∧ t.clear s lang = .error .serialization
              ∧ (t.canRecord = true → isBlank original = false →
                  t.record s lang original plural = .error .serialization)
              ∧ ∀ call : Call, call.tracker = t → call.apply s = s := by
  refine ⟨fun t calls lang => ?_, fun s call => ⟨fun ns key hns => ?_, fun u lang h => ?_⟩,
    fun t s value hvalue hshape => refused_of_not_shape hvalue hshape⟩
  · have hwaiting : t.awaited lang calls = .ofList (recordings t.ns lang calls) :=
      waiting_eq_ofList calls
    refine ⟨(t.awaited lang calls).forms, pending_session t calls lang, ?_, fun original => ?_⟩
    · rw [Waiting.keys_forms, hwaiting, OrderedMap.keys_ofList]
    · rw [Waiting.get?_forms, hwaiting, OrderedMap.get?_ofList]
  · exact load_apply_of_ne hns s key
  · exact pending_apply_of_ne h s

/-- Two trackers that share a session. -/
def shop : Tracker := ⟨"shop", true, false⟩

/-- The other one; its response has been sent. -/
def blog : Tracker := ⟨"blog", true, true⟩

/-- Calls of both. -/
def shopCalls : List Call :=
  [.record shop "cs" "Cat" none, .clear shop "cs", .record shop "cs" "Dog" none,
    .record blog "cs" "Cow" none, .record shop "cs" "Cat" none,
    .record shop "cs" "Dog" (some "Dogs")]

/-- Dog is pending before Cat, and with the plural that was given with it last.  Clearing the
language elsewhere changes nothing of it, and where the session has a list nothing is read. -/
theorem pending_of_calls_pets :
    (∃ strings, shop.pending (session shopCalls) "cs" = .ok strings
        ∧ strings.keys = ["Dog", "Cat"] ∧ strings.get? "Dog" = some ["Dog", "Dogs"])
      ∧ shop.pending ((Call.clear blog "cs").apply (session shopCalls)) "cs"
          = shop.pending (session shopCalls) "cs"
      ∧ shop.record (SessionStore.empty.store "shop" newStringsKey (.array [])) "cs" "Cat" none
          = .error .serialization := by
  obtain ⟨hpending, hother, hrefused⟩ := pending_of_calls
  refine ⟨?_, ?_, ?_⟩
  · obtain ⟨strings, hstrings, hkeys, hforms⟩ := hpending shop shopCalls "cs"
    exact ⟨strings, hstrings, hkeys.trans (by decide +kernel),
      (hforms "Dog").trans (by decide +kernel)⟩
  · exact (hother (session shopCalls) (.clear blog "cs")).2 shop "cs" (Or.inl (by decide))
  · have hshape : ¬ Pending.Shape (.array []) := by
      rintro ⟨languages, heq, -⟩
      cases heq
    exact (hrefused shop _ (.array []) rfl hshape "cs" "Cat" none).2.2.2.1 rfl (by decide +kernel)

end Tracker

end MessageCatalog
