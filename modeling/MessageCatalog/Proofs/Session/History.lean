/-
  MessageCatalog.Proofs.Session.History
  ────────────────────────────────
  **WHAT TRACKERS LEAVE IN A SESSION.**

  Trackers of any namespaces record and clear messages in one session.  What they leave
  there is told from their calls alone: in each namespace and for each language, the
  originals that were recorded since the last time they were cleared, each in the place
  where it was recorded first and with the plural it was recorded with last
  (`Call.waiting`).

  A call keeps this account for every namespace (`accounts_apply`), so a tracker finds
  pending what waits in its namespace (`pending_session`).

  A session that keeps nothing is, for all trackers, as one that no call was made in
  (`SessionStore.Retains`).
-/
import Mathlib.Data.List.Induction
import MessageCatalog.Proofs.Session.Payload

namespace MessageCatalog

open MessageCatalog.Text

/-! ## §1. Calls. -/

namespace Tracker

/-- A call of a tracker that writes to the session. -/
inductive Call where
  | record (t : Tracker) (lang original : String) (plural : Option String)
  | clear (t : Tracker) (lang : String)

namespace Call

/-- The session after a call; a call that fails leaves it as it was. -/
def apply (s : SessionStore) : Call → SessionStore
  | .record t lang original plural => (t.record s lang original plural).toOption.getD s
  | .clear t lang => (t.clear s lang).toOption.getD s

/-- The session after calls, empty before them. -/
def session (calls : List Call) : SessionStore :=
  calls.foldl apply .empty

/-- The tracker that is called. -/
def tracker : Call → Tracker
  | .record t _ _ _ | .clear t _ => t

/-- The language that a call is about. -/
def lang : Call → String
  | .record _ lang _ _ | .clear _ lang => lang

theorem apply_record (s : SessionStore) (t : Tracker) (lang original : String)
    (plural : Option String) :
    (record t lang original plural).apply s = (t.record s lang original plural).toOption.getD s :=
  rfl

theorem apply_clear (s : SessionStore) (t : Tracker) (lang : String) :
    (clear t lang).apply s = (t.clear s lang).toOption.getD s :=
  rfl

theorem session_concat (calls : List Call) (call : Call) :
    session (calls ++ [call]) = call.apply (session calls) :=
  List.foldl_append

end Call

end Tracker

/-! ## §2. What waits. -/

/-- Originals that wait for a translation, each with the plural it was recorded with. -/
abbrev Waiting := OrderedMap String (Option String)

namespace Waiting

/-- The originals with their forms. -/
def forms (m : Waiting) : PendingStrings :=
  ⟨m.pairs.map fun (original, plural) => (original, Tracker.forms original plural), by
    rw [List.map_map]
    exact m.nodup⟩

theorem forms_insert (m : Waiting) (original : String) (plural : Option String) :
    forms (m.insert original plural) = m.forms.insert original (Tracker.forms original plural) := by
  apply OrderedMap.eq_of_pairs_eq
  show (Pairs.insert original plural m.pairs).map _ = Pairs.insert original _ (m.pairs.map _)
  induction m.pairs with
  | nil => rfl
  | cons pair pairs ih =>
      by_cases hkey : pair.1 = original
      · simp [Pairs.insert, hkey]
      · simp only [Pairs.insert, List.map_cons, if_neg hkey, ih]

theorem keys_forms (m : Waiting) : m.forms.keys = m.keys :=
  List.map_map

theorem get?_forms (m : Waiting) (original : String) :
    m.forms.get? original = (m.get? original).map (Tracker.forms original) := by
  show Pairs.get? original (m.pairs.map _) = (Pairs.get? original m.pairs).map _
  induction m.pairs with
  | nil => rfl
  | cons pair pairs ih =>
      by_cases hkey : pair.1 = original
      · simp [Pairs.get?, hkey]
      · simp only [Pairs.get?, List.map_cons, if_neg hkey, ih]

end Waiting

namespace Tracker.Call

/-- What a call makes of the originals that wait in a namespace for a language: an original
that is recorded goes to the end or keeps its place.  Blank originals are not recorded, and
none is when recording is not possible. -/
def update (ns lang : String) (m : Waiting) : Call → Waiting
  | .record t lang' original plural =>
      if t.canRecord ∧ t.ns = ns ∧ lang' = lang ∧ isBlank original = false then
        m.insert original plural
      else m
  | .clear t lang' => if t.ns = ns ∧ lang' = lang then .empty else m

theorem update_record (ns lang : String) (m : Waiting) (t : Tracker) (lang' original : String)
    (plural : Option String) :
    (record t lang' original plural).update ns lang m
      = if t.canRecord ∧ t.ns = ns ∧ lang' = lang ∧ isBlank original = false then
          m.insert original plural
        else m :=
  rfl

theorem update_clear (ns lang : String) (m : Waiting) (t : Tracker) (lang' : String) :
    (clear t lang').update ns lang m = if t.ns = ns ∧ lang' = lang then .empty else m :=
  rfl

/-- What waits in a namespace for a language after calls. -/
def waiting (ns lang : String) (calls : List Call) : Waiting :=
  calls.foldl (update ns lang) .empty

variable {calls : List Call} {ns lang : String}

theorem waiting_concat (calls : List Call) (call : Call) :
    waiting ns lang (calls ++ [call]) = call.update ns lang (waiting ns lang calls) :=
  List.foldl_append

/-- Nothing blank waits. -/
theorem isBlank_of_mem_waiting {original : String} (h : original ∈ (waiting ns lang calls).keys) :
    isBlank original = false := by
  induction calls using List.reverseRecOn with
  | nil => cases h
  | append_singleton calls call ih =>
      rw [waiting_concat] at h
      unfold update at h
      split at h
      next t lang' recorded plural =>
        split at h
        next hrecorded =>
          rw [OrderedMap.keys_insert] at h
          split at h
          next => exact ih h
          next =>
            rcases List.mem_append.1 h with hbefore | hnew
            · exact ih hbefore
            · rw [List.mem_singleton.1 hnew]
              exact hrecorded.2.2.2
        next => exact ih h
      next t lang' =>
        split at h
        next => cases h
        next => exact ih h

end Tracker.Call

/-! ## §3. What is stored. -/

namespace Pending

theorem forLanguage_record_of_ne (p : Pending) {lang lang' : String} (h : lang ≠ lang')
    (original : String) (forms : List String) :
    (p.record lang original forms).forLanguage lang' = p.forLanguage lang' := by
  unfold forLanguage record
  rw [OrderedMap.get?_insert, if_neg h]

theorem forLanguage_clear_of_ne (p : Pending) {lang lang' : String} (h : lang ≠ lang') :
    (p.clear lang).forLanguage lang' = p.forLanguage lang' := by
  unfold forLanguage clear
  rw [OrderedMap.get?_erase, if_neg (Ne.symm h)]

end Pending

namespace Tracker

open Call

variable {t : Tracker} {s : SessionStore} {p : Pending} {calls : List Call} {ns lang : String}

/-- Recording does nothing where it is not possible, and nothing for a blank original. -/
theorem apply_record_eq_self {original : String} (h : t.canRecord = false ∨ isBlank original = true)
    (s : SessionStore) (lang : String) (plural : Option String) :
    (Call.record t lang original plural).apply s = s := by
  have haccepts : t.accepts original = false := by
    unfold accepts
    rcases h with hcan | hblank
    · rw [hcan, Bool.and_false]
    · rw [hblank]
      rfl
  rw [apply_record]
  unfold record
  rw [haccepts]
  rfl

/-- Recording hands the session what it had with one message more. -/
theorem record_of_stored {original : String} (hcan : t.canRecord = true)
    (hblank : isBlank original = false) (hp : stored s t.ns = .ok p) (lang : String)
    (plural : Option String) :
    t.record s lang original plural
      = .ok (t.store s (p.record lang original (forms original plural))) := by
  unfold record accepts
  rw [hblank, hcan, decode_load, hp]
  rfl

/-- Recording adds to what is stored in the namespace, if the session keeps it. -/
theorem stored_apply_record {original : String} (hcan : t.canRecord = true)
    (hblank : isBlank original = false) (hp : stored s t.ns = .ok p) (lang : String)
    (plural : Option String) (ns : String) :
    stored ((Call.record t lang original plural).apply s) ns
      = if s.keeps ∧ t.ns = ns then .ok (p.record lang original (forms original plural))
        else stored s ns := by
  rw [apply_record, record_of_stored hcan hblank hp]
  exact stored_store t s _ ns

/-- Clearing takes the language out of what is stored in the namespace, if the session keeps
it. -/
theorem stored_apply_clear (hp : stored s t.ns = .ok p) (lang ns : String) :
    stored ((Call.clear t lang).apply s) ns
      = if s.keeps ∧ t.ns = ns then .ok (p.clear lang) else stored s ns := by
  have hclear : t.clear s lang
      = .ok (if p.contains lang then t.store s (p.clear lang) else s) := by
    unfold clear
    rw [decode_load, hp]
    rfl
  rw [apply_clear, hclear]
  split
  next => exact stored_store t s _ ns
  next hcontains =>
    -- nothing is pending in the language, and the session stays as it is
    have hsame : p.clear lang = p := by
      refine OrderedMap.erase_of_not_mem (OrderedMap.get?_eq_none_iff.1 ?_)
      exact Option.not_isSome_iff_eq_none.1 hcontains
    rw [hsame]
    show stored s ns = _
    split
    next hns =>
      rw [← hns.2]
      exact hp
    next => rfl

/-- **Everything that a call can do to a session**: nothing, or it stores for its namespace what
it has read there, changed in its own language. -/
theorem apply_cases (s : SessionStore) (call : Call) :
    call.apply s = s
      ∨ ∃ p p', stored s call.tracker.ns = .ok p
        ∧ call.apply s = call.tracker.store s p'
        ∧ ∀ lang, call.lang ≠ lang → p'.forLanguage lang = p.forLanguage lang := by
  cases call with
  | record t lang original plural =>
      rw [apply_record]
      cases hrecord : t.record s lang original plural with
      | error e => exact Or.inl rfl
      | ok s' =>
          rcases record_cases hrecord with rfl | ⟨p, hp, rfl⟩
          · exact Or.inl rfl
          · exact Or.inr ⟨p, _, hp, rfl, fun lang' hlang =>
              p.forLanguage_record_of_ne hlang original _⟩
  | clear t lang =>
      rw [apply_clear]
      cases hclear : t.clear s lang with
      | error e => exact Or.inl rfl
      | ok s' =>
          rcases clear_cases hclear with rfl | ⟨p, hp, rfl⟩
          · exact Or.inl rfl
          · exact Or.inr ⟨p, _, hp, rfl, fun lang' hlang => p.forLanguage_clear_of_ne hlang⟩

/-- No call changes whether the session keeps what is stored. -/
theorem keeps_apply (call : Call) (s : SessionStore) : (call.apply s).keeps = s.keeps := by
  rcases apply_cases s call with heq | ⟨p, p', -, heq, -⟩
  · rw [heq]
  · rw [heq]
    exact SessionStore.keeps_store ..

/-! ## §4. What is stored is what waits. -/

/-- What a session has is what the calls have left waiting, in every namespace, and it keeps
what is stored. -/
structure Accounts (calls : List Call) (s : SessionStore) : Prop where
  keeps : s.keeps = true
  every : ∀ ns, ∃ p, stored s ns = .ok p
    ∧ ∀ lang, (p.get? lang).getD .empty = (waiting ns lang calls).forms

/-- A call that stores nothing leaves waiting what was. -/
theorem accounts_concat_of_unchanged {call : Call} (h : Accounts calls s)
    (hcall : call.apply s = s) (hupdate : ∀ ns lang m, call.update ns lang m = m) :
    Accounts (calls ++ [call]) (call.apply s) := by
  rw [hcall]
  refine ⟨h.keeps, fun ns => ?_⟩
  obtain ⟨p, hp, hwaiting⟩ := h.every ns
  refine ⟨p, hp, fun lang => ?_⟩
  rw [waiting_concat, hupdate]
  exact hwaiting lang

/-- A call that accounts for its own namespace and leaves the others alone. -/
theorem accounts_concat_of_stored {call : Call} (h : Accounts calls s)
    (hstored : ∀ ns, stored (call.apply s) ns
      = if s.keeps ∧ t.ns = ns then .ok p else stored s ns)
    (hown : ∀ lang, (p.get? lang).getD .empty
      = (call.update t.ns lang (waiting t.ns lang calls)).forms)
    (hother : ∀ ns, t.ns ≠ ns → ∀ lang m, call.update ns lang m = m) :
    Accounts (calls ++ [call]) (call.apply s) := by
  refine ⟨(keeps_apply call s).trans h.keeps, fun ns => ?_⟩
  simp only [waiting_concat]
  rw [hstored]
  by_cases hns : t.ns = ns
  · subst hns
    exact ⟨p, if_pos ⟨h.keeps, rfl⟩, hown⟩
  · obtain ⟨p', hp', hwaiting⟩ := h.every ns
    refine ⟨p', ?_, fun lang => ?_⟩
    · rw [if_neg fun hown => hns hown.2]
      exact hp'
    · rw [hother ns hns]
      exact hwaiting lang

theorem accounts_record (h : Accounts calls s) (t : Tracker) (lang original : String)
    (plural : Option String) :
    Accounts (calls ++ [.record t lang original plural])
      ((Call.record t lang original plural).apply s) := by
  by_cases hidle : t.canRecord = false ∨ isBlank original = true
  · refine accounts_concat_of_unchanged h (apply_record_eq_self hidle s lang plural)
      fun ns lang m => if_neg ?_
    rintro ⟨hcan, -, -, hblank⟩
    rcases hidle with hnone | hwhite
    · exact absurd (hcan.symm.trans hnone) (by decide)
    · exact absurd (hblank.symm.trans hwhite) (by decide)
  · rw [not_or, Bool.not_eq_false, Bool.not_eq_true] at hidle
    obtain ⟨hcan, hblank⟩ := hidle
    obtain ⟨p, hp, hwaiting⟩ := h.every t.ns
    refine accounts_concat_of_stored h (stored_apply_record hcan hblank hp lang plural) ?_
      fun ns hns lang m => if_neg fun hrecorded => hns hrecorded.2.1
    intro lang'
    rw [update_record]
    unfold Pending.record
    rw [OrderedMap.get?_insert]
    by_cases hlang : lang = lang'
    · subst hlang
      rw [if_pos rfl, if_pos ⟨hcan, rfl, rfl, hblank⟩, Waiting.forms_insert, ← hwaiting]
      rfl
    · rw [if_neg hlang, if_neg fun hrecorded => hlang hrecorded.2.2.1]
      exact hwaiting lang'

theorem accounts_clear (h : Accounts calls s) (t : Tracker) (lang : String) :
    Accounts (calls ++ [.clear t lang]) ((Call.clear t lang).apply s) := by
  obtain ⟨p, hp, hwaiting⟩ := h.every t.ns
  refine accounts_concat_of_stored h (stored_apply_clear hp lang) ?_
    fun ns hns lang m => if_neg fun hcleared => hns hcleared.1
  intro lang'
  rw [update_clear]
  unfold Pending.clear
  rw [OrderedMap.get?_erase]
  by_cases hlang : lang' = lang
  · subst hlang
    rw [if_pos rfl, if_pos ⟨rfl, rfl⟩]
    rfl
  · rw [if_neg hlang, if_neg fun hcleared => hlang hcleared.2.symm]
    exact hwaiting lang'

/-- **A call keeps the account of what waits.** -/
theorem accounts_apply (h : Accounts calls s) (call : Call) :
    Accounts (calls ++ [call]) (call.apply s) := by
  cases call with
  | record t lang original plural => exact accounts_record h t lang original plural
  | clear t lang => exact accounts_clear h t lang

theorem accounts_session (calls : List Call) : Accounts calls (session calls) := by
  induction calls using List.reverseRecOn with
  | nil => exact ⟨rfl, fun ns => ⟨.empty, rfl, fun lang => rfl⟩⟩
  | append_singleton calls call ih =>
      rw [session_concat]
      exact accounts_apply ih call

/-- What trackers have stored can be read. -/
theorem stored_session (ns : String) (calls : List Call) :
    ∃ p, stored (session calls) ns = .ok p := by
  obtain ⟨p, hp, -⟩ := (accounts_session calls).every ns
  exact ⟨p, hp⟩

/-- **In a session of trackers no recording fails.** -/
theorem record_session (t : Tracker) (calls : List Call) (lang original : String)
    (plural : Option String) :
    t.record (session calls) lang original plural
      = .ok (session (calls ++ [.record t lang original plural])) := by
  rw [session_concat, apply_record]
  obtain ⟨p, hp⟩ := stored_session t.ns calls
  unfold record
  rw [decode_load, hp]
  split <;> rfl

/-- **In a session of trackers no clearing fails.** -/
theorem clear_session (t : Tracker) (calls : List Call) (lang : String) :
    t.clear (session calls) lang = .ok (session (calls ++ [.clear t lang])) := by
  rw [session_concat, apply_clear]
  obtain ⟨p, hp⟩ := stored_session t.ns calls
  unfold clear
  rw [decode_load, hp]
  rfl

/-- What waits for a tracker is what waits in its namespace. -/
def awaited (t : Tracker) (lang : String) (calls : List Call) : Waiting :=
  waiting t.ns lang calls

/-- **A tracker finds pending what waits for it.** -/
theorem pending_session (t : Tracker) (calls : List Call) (lang : String) :
    t.pending (session calls) lang = .ok (t.awaited lang calls).forms := by
  -- nothing that waits is blank, so nothing is filtered out
  have hkept : (t.awaited lang calls).forms.filter (fun original _ => !isBlank original)
      = (t.awaited lang calls).forms := by
    refine OrderedMap.filter_eq_self fun pair hpair => ?_
    have hkey : pair.1 ∈ (t.awaited lang calls).keys := by
      rw [← Waiting.keys_forms]
      exact List.mem_map_of_mem hpair
    show (!isBlank pair.1) = true
    rw [isBlank_of_mem_waiting hkey]
    rfl
  obtain ⟨p, hp, hwaiting⟩ := (accounts_session calls).every t.ns
  rw [← hkept]
  unfold pending awaited
  rw [decode_load, hp, ← hwaiting]
  rfl

/-- **What waits after a call that clears**: nothing of the language in the namespace, and all
that waited elsewhere. -/
theorem awaited_concat_clear (u t : Tracker) (lang' lang : String) (calls : List Call) :
    u.awaited lang' (calls ++ [.clear t lang])
      = if t.ns = u.ns ∧ lang = lang' then .empty else u.awaited lang' calls := by
  unfold awaited
  rw [waiting_concat, update_clear]

end Tracker

/-! ## §5. Sessions of trackers. -/

namespace SessionStore

/-- The calls that a session retains: all that were made since it had nothing, or, if it keeps
nothing, none. -/
inductive Retains : SessionStore → List Tracker.Call → Prop
  | all (calls : List Tracker.Call) : Retains (Tracker.Call.session calls) calls
  | unbacked : Retains .unbacked []

/-- A session that only trackers have written to. -/
def Tracked (s : SessionStore) : Prop :=
  ∃ calls, s.Retains calls

variable {s s' : SessionStore} {t : Tracker} {calls : List Tracker.Call} {lang original : String}

/-- Recording in a session of trackers succeeds, and leaves one. -/
theorem Retains.record (h : s.Retains calls) (t : Tracker) (lang original : String)
    (plural : Option String) :
    ∃ s' calls', t.record s lang original plural = .ok s' ∧ s'.Retains calls' := by
  cases h with
  | all => exact ⟨_, _, t.record_session calls lang original plural, .all _⟩
  | unbacked =>
      refine ⟨.unbacked, [], ?_, .unbacked⟩
      unfold Tracker.record
      split <;> rfl

/-- Clearing in a session of trackers succeeds, and leaves one in which nothing of the language
waits in the namespace, and all that waited elsewhere. -/
theorem Retains.clear (h : s.Retains calls) (t : Tracker) (lang : String) :
    ∃ s' calls', t.clear s lang = .ok s' ∧ s'.Retains calls'
      ∧ ∀ (u : Tracker) (lang' : String), u.awaited lang' calls'
          = if t.ns = u.ns ∧ lang = lang' then .empty else u.awaited lang' calls := by
  cases h with
  | all =>
      exact ⟨_, _, t.clear_session calls lang, .all _, fun u lang' =>
        u.awaited_concat_clear t lang' lang calls⟩
  | unbacked => exact ⟨.unbacked, [], rfl, .unbacked, fun u lang' => (ite_self _).symm⟩

/-- **A tracker finds pending what waits for it**, of the calls that the session retains. -/
theorem Retains.pending (h : s.Retains calls) (t : Tracker) (lang : String) :
    t.pending s lang = .ok (t.awaited lang calls).forms := by
  cases h with
  | all => exact t.pending_session calls lang
  | unbacked => rfl

/-- A message is pending with the plural it waits with. -/
theorem Retains.get (h : s.Retains calls) (t : Tracker) (lang original : String) :
    t.get s lang original
      = .ok (((t.awaited lang calls).get? original).map (Tracker.forms original)) := by
  unfold Tracker.get
  rw [h.pending, ← Waiting.get?_forms]
  rfl

theorem tracked_empty : Tracked .empty :=
  ⟨[], .all []⟩

theorem Tracked.record {plural : Option String} (h : s.Tracked)
    (hrecord : t.record s lang original plural = .ok s') : s'.Tracked := by
  obtain ⟨calls, hcalls⟩ := h
  obtain ⟨after, calls', hafter, hretains⟩ := hcalls.record t lang original plural
  rw [hafter, Except.ok.injEq] at hrecord
  exact ⟨calls', hrecord ▸ hretains⟩

theorem Tracked.clear (h : s.Tracked) (hclear : t.clear s lang = .ok s') : s'.Tracked := by
  obtain ⟨calls, hcalls⟩ := h
  obtain ⟨after, calls', hafter, hretains, -⟩ := hcalls.clear t lang
  rw [hafter, Except.ok.injEq] at hclear
  exact ⟨calls', hclear ▸ hretains⟩

/-- A call of a tracker leaves the session one of trackers. -/
theorem Tracked.apply (h : s.Tracked) (call : Tracker.Call) : (call.apply s).Tracked := by
  cases call with
  | record t lang original plural =>
      rw [Tracker.Call.apply_record]
      cases hrecord : t.record s lang original plural with
      | error e => exact h
      | ok s' => exact h.record hrecord
  | clear t lang =>
      rw [Tracker.Call.apply_clear]
      cases hclear : t.clear s lang with
      | error e => exact h
      | ok s' => exact h.clear hclear

end SessionStore

end MessageCatalog
