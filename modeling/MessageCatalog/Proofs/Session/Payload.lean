/-
  MessageCatalog.Proofs.Session.Payload
  ────────────────────────────────
  **WHAT A TRACKER FINDS AGAIN.**

  The pending messages of a session are kept as JSON and come back from it as they
  were (`ofJson_toJson`), so a tracker reads what it has stored if the session keeps it,
  and what was there before if not (`stored_store`).
  A message is pending under its own name: it is the first of its forms (`Pending.Led`).
  Trackers keep it so (`tidy_record`, `tidy_clear`), whatever they are asked to record.
-/
import MessageCatalog.Proofs.OrderedMap
import MessageCatalog.Proofs.Steps
import MessageCatalog.Session.Tracker

namespace MessageCatalog

open MessageCatalog.Text

namespace Pending

/-! ## §1. From JSON and back. -/

section Objects

variable {α : Type} {read : Json → Option α} {write : α → Json}

theorem readFields_map (h : ∀ a, read (write a) = some a) (pairs : List (String × α)) :
    readFields read (pairs.map fun pair => (pair.1, write pair.2)) = some pairs := by
  induction pairs with
  | nil => rfl
  | cons pair pairs ih =>
      rw [List.map_cons, readFields, h, ih]
      rfl

/-- A map is read back when its values are. -/
theorem mapOfJson_object (h : ∀ a, read (write a) = some a) (m : OrderedMap String α) :
    mapOfJson read (.object (m.pairs.map fun pair => (pair.1, write pair.2))) = some m := by
  show (readFields read _).map OrderedMap.ofList = some m
  rw [readFields_map h, Option.map_some, OrderedMap.ofList_pairs]

end Objects

theorem formsOfJson_ofStrings (forms : List String) :
    formsOfJson (Json.ofStrings forms) = some forms := by
  show (forms.map Json.string).mapM textOfJson = some forms
  induction forms with
  | nil => rfl
  | cons form forms ih =>
      rw [List.map_cons, List.mapM_cons, ih]
      rfl

/-- **Pending messages come back from JSON as they were.** -/
theorem ofJson_toJson (p : Pending) : ofJson p.toJson = some p :=
  mapOfJson_object (fun strings => mapOfJson_object formsOfJson_ofStrings strings) p

/-! ## §2. Messages under their own names. -/

/-- Every pending message is the first of its forms. -/
def Led (p : Pending) : Prop :=
  ∀ lang strings, p.get? lang = some strings →
    ∀ original forms, strings.get? original = some forms → forms.head? = some original

theorem led_empty : Led .empty := by
  intro lang strings h
  cases h

theorem Led.record {p : Pending} (h : p.Led) (lang original : String) (plural : Option String) :
    (p.record lang original (Tracker.forms original plural)).Led := by
  intro lang' strings hstrings other forms hforms
  unfold Pending.record at hstrings
  rw [OrderedMap.get?_insert] at hstrings
  split at hstrings
  next hlang =>
    cases hstrings
    rw [OrderedMap.get?_insert] at hforms
    split at hforms
    next hother =>
      cases hforms
      rw [← hother]
      rfl
    next =>
      -- the other messages of the language were there before, so it was not new
      cases hbefore : p.get? lang with
      | none => rw [hbefore] at hforms; cases hforms
      | some before =>
          rw [hbefore] at hforms
          exact h lang before hbefore other forms hforms
  next => exact h lang' strings hstrings other forms hforms

theorem Led.clear {p : Pending} (h : p.Led) (lang : String) : (p.clear lang).Led := by
  intro lang' strings hstrings
  unfold Pending.clear at hstrings
  rw [OrderedMap.get?_erase] at hstrings
  split at hstrings
  next => cases hstrings
  next => exact h lang' strings hstrings

end Pending

/-! ## §3. The session value of a tracker. -/

namespace Tracker

variable {t : Tracker} {s s' : SessionStore} {p : Pending} {lang original : String}

/-- What is stored is decoded as it was. -/
theorem decode_toJson (p : Pending) : decode (some p.toJson) = .ok p := by
  unfold decode
  simp only [Pending.ofJson_toJson]

/-- The pending messages that are stored in a namespace. -/
def stored (s : SessionStore) (ns : String) : Except CatalogError Pending :=
  decode (s.load ns newStringsKey)

theorem decode_load (t : Tracker) (s : SessionStore) : decode (t.load s) = stored s t.ns :=
  rfl

/-- **A tracker reads what it has stored**, where the session keeps it. -/
theorem stored_store (t : Tracker) (s : SessionStore) (p : Pending) (ns : String) :
    stored (t.store s p) ns = if s.keeps ∧ t.ns = ns then .ok p else stored s ns := by
  unfold stored store
  simp only [SessionStore.load_store, Prod.mk.injEq, and_true]
  split
  next => exact decode_toJson p
  next => rfl

/-- **All that recording does to a session**: nothing, or it stores what it has read with one
message more. -/
theorem record_cases {plural : Option String} (h : t.record s lang original plural = .ok s') :
    s' = s ∨ ∃ p, stored s t.ns = .ok p
      ∧ s' = t.store s (p.record lang original (forms original plural)) := by
  unfold record at h
  split at h
  next =>
    obtain ⟨p, hp, hs'⟩ := bind_eq_ok_iff.1 h
    exact Or.inr ⟨p, hp, (Except.ok.inj hs').symm⟩
  next => exact Or.inl (Except.ok.inj h).symm

/-- **All that clearing does to a session**: nothing, or it stores what it has read without the
language. -/
theorem clear_cases (h : t.clear s lang = .ok s') :
    s' = s ∨ ∃ p, stored s t.ns = .ok p ∧ s' = t.store s (p.clear lang) := by
  obtain ⟨p, hp, hs'⟩ := bind_eq_ok_iff.1 h
  split at hs'
  next => exact Or.inr ⟨p, hp, (Except.ok.inj hs').symm⟩
  next => exact Or.inl (Except.ok.inj hs').symm

/-- What the session has for the tracker are messages under their own names, or no pending
messages at all. -/
def Tidy (t : Tracker) (s : SessionStore) : Prop :=
  ∀ p, decode (t.load s) = .ok p → p.Led

theorem tidy_empty (t : Tracker) : t.Tidy .empty := by
  intro p hp
  cases hp
  exact Pending.led_empty

/-- Storing messages under their own names leaves the session tidy, whether it keeps them or
not. -/
theorem Tidy.store (h : t.Tidy s) (hp : p.Led) : t.Tidy (t.store s p) := by
  intro p' hp'
  rw [decode_load, stored_store] at hp'
  split at hp'
  next =>
    cases hp'
    exact hp
  next => exact h p' hp'

theorem tidy_record {plural : Option String} (h : t.Tidy s)
    (hrecord : t.record s lang original plural = .ok s') : t.Tidy s' := by
  rcases record_cases hrecord with rfl | ⟨p, hp, rfl⟩
  · exact h
  · exact h.store ((h p hp).record lang original plural)

theorem tidy_clear (h : t.Tidy s) (hclear : t.clear s lang = .ok s') : t.Tidy s' := by
  rcases clear_cases hclear with rfl | ⟨p, hp, rfl⟩
  · exact h
  · exact h.store ((h p hp).clear lang)

/-- **The forms that are given out for a message open with it.** -/
theorem head?_of_get {forms : List String} (h : t.Tidy s)
    (hget : t.get s lang original = .ok (some forms)) : forms.head? = some original := by
  unfold get pending at hget
  obtain ⟨strings, hstrings, hforms⟩ := bind_eq_ok_iff.1 hget
  obtain ⟨p, hp, hlanguage⟩ := bind_eq_ok_iff.1 hstrings
  cases hlanguage
  rw [Except.ok.injEq] at hforms
  unfold Pending.forLanguage at hforms
  rw [OrderedMap.get?_filter, Option.filter_eq_some_iff] at hforms
  cases hbefore : p.get? lang with
  | none => rw [hbefore] at hforms; cases hforms.1
  | some strings =>
      rw [hbefore] at hforms
      exact h p hp lang strings hbefore original forms hforms.1

end Tracker

end MessageCatalog
