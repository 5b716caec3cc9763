/-
  MessageCatalog.Proofs.Session.Interleaving
  ────────────────────────────────
  **RECORDINGS THAT TAKE TURNS.**

  Recording a message is one load from the session and, later, one store into it, and
  nothing keeps others from storing in between:

      first    load ───────────────── store
      second          load ── store              (lost when the first one stores)

  So what is stored after a recording is what was stored when it loaded, with its own
  message (`stored_run_of_last`).  What was pending before all of them is in everything
  that they load, and so it is never lost, however many there are and however they take
  turns (`awaits_run`).  Of two recordings, the one that stores last is never lost, and
  the other one only if they overlap (`awaits_of_interleaved`).
-/
import Mathlib.Logic.Function.Basic
import MessageCatalog.Proofs.Session.History

namespace MessageCatalog

open MessageCatalog.Text

/-! ## §1. What is pending with one more message. -/

/-- What is found in a language after a message was recorded; blank messages are never found. -/
theorem Pending.get?_forLanguage_record (p : Pending) (lang original : String)
    (forms : List String) (lang' original' : String) :
    ((p.record lang original forms).forLanguage lang').get? original'
      = if lang = lang' ∧ original = original' ∧ isBlank original = false then some forms
        else (p.forLanguage lang').get? original' := by
  unfold Pending.forLanguage Pending.record
  rw [OrderedMap.get?_filter, OrderedMap.get?_filter, OrderedMap.get?_insert]
  by_cases hlang : lang = lang'
  · subst hlang
    rw [if_pos rfl, Option.getD_some, OrderedMap.get?_insert]
    by_cases horiginal : original = original'
    · subst horiginal
      cases hblank : isBlank original with
      | false => simp [Option.filter]
      | true => cases ((p.get? lang).getD .empty).get? original <;> simp [Option.filter]
    · simp [horiginal]
  · simp [hlang]

namespace Tracker

/-- A message is pending: the tracker has forms for it. -/
def Awaits (t : Tracker) (s : SessionStore) (lang original : String) : Prop :=
  ∃ forms, t.get s lang original = .ok (some forms)

section Stored

variable {t : Tracker} {s : SessionStore} {p : Pending} {lang original : String}

theorem get_of_stored (hp : stored s t.ns = .ok p) (lang original : String) :
    t.get s lang original = .ok ((p.forLanguage lang).get? original) := by
  unfold get pending
  rw [decode_load, hp]
  rfl

theorem awaits_iff_of_stored (hp : stored s t.ns = .ok p) :
    t.Awaits s lang original ↔ ((p.forLanguage lang).get? original).isSome = true := by
  unfold Awaits
  rw [get_of_stored hp, Option.isSome_iff_exists]
  simp only [Except.ok.injEq]

/-- Where a message is pending, the session value can be read. -/
theorem stored_of_awaits (h : t.Awaits s lang original) : ∃ p, stored s t.ns = .ok p := by
  obtain ⟨forms, hget⟩ := h
  unfold get pending at hget
  rw [decode_load] at hget
  cases hp : stored s t.ns with
  | error e =>
      rw [hp] at hget
      cases hget
  | ok p => exact ⟨p, rfl⟩

end Stored

/-! ## §2. A recording in two steps. -/

/-- A recording: the tracker and what it is called with. -/
structure Recording where
  tracker : Tracker
  lang : String
  original : String
  plural : Option String

/-- How far a recording has come. -/
inductive Progress where
  /-- It has not looked into the session yet. -/
  | waiting
  /-- It has loaded these messages and is about to store them with its own. -/
  | holding (p : Pending)
  /-- It has returned. -/
  | returned (result : Except CatalogError Unit)

namespace Recording

/-- Pending messages with the one that is recorded. -/
def added (r : Recording) (p : Pending) : Pending :=
  p.record r.lang r.original (forms r.original r.plural)

/-- The next step of a recording: the load from the session, then the store into it. -/
def step (r : Recording) (s : SessionStore) : Progress → SessionStore × Progress
  | .waiting =>
      if r.tracker.accepts r.original then
        match decode (r.tracker.load s) with
        | .ok p => (s, .holding p)
        | .error e => (s, .returned (.error e))
      else (s, .returned (.ok ()))
  | .holding p => (r.tracker.store s (r.added p), .returned (.ok ()))
  | .returned result => (s, .returned result)

variable {r : Recording} {s : SessionStore}

/-- **Two steps that nothing comes between are the recording.** -/
theorem step_step (r : Recording) (s : SessionStore) :
    r.step (r.step s .waiting).1 (r.step s .waiting).2
      = match r.tracker.record s r.lang r.original r.plural with
        | .ok s' => (s', .returned (.ok ()))
        | .error e => (s, .returned (.error e)) := by
  unfold Tracker.record
  cases haccepts : r.tracker.accepts r.original with
  | false => simp [step, haccepts]
  | true =>
      cases hp : decode (r.tracker.load s) with
      | error e =>
          simp only [step, haccepts, hp, if_true]
          rfl
      | ok p =>
          simp only [step, haccepts, hp, if_true]
          rfl

/-- A first step stores nothing. -/
theorem fst_step_waiting (r : Recording) (s : SessionStore) : (r.step s .waiting).1 = s := by
  unfold step
  cases r.tracker.accepts r.original with
  | false => rfl
  | true => cases decode (r.tracker.load s) <;> rfl

/-- What a recording holds after a step is what it has just loaded. -/
theorem load_of_snd_step {progress : Progress} {p : Pending}
    (h : (r.step s progress).2 = .holding p) : decode (r.tracker.load s) = .ok p := by
  cases progress with
  | waiting =>
      simp only [step] at h
      split at h
      next =>
        split at h
        next loaded hloaded =>
          cases h
          exact hloaded
        next => cases h
      next => cases h
  | holding held => cases h
  | returned result => cases h

/-- Where recording is possible, a first step loads what is stored in the namespace. -/
theorem step_waiting (hcan : r.tracker.canRecord = true) (hblank : isBlank r.original = false) :
    r.step s .waiting = (s, match stored s r.tracker.ns with
      | .ok p => .holding p
      | .error e => .returned (.error e)) := by
  have haccepts : r.tracker.accepts r.original = true := by
    unfold accepts
    rw [hblank, hcan]
    rfl
  unfold step
  rw [if_pos haccepts, decode_load]
  cases stored s r.tracker.ns <;> rfl

theorem keeps_step (r : Recording) (s : SessionStore) (progress : Progress) :
    (r.step s progress).1.keeps = s.keeps := by
  cases progress with
  | waiting => rw [fst_step_waiting]
  | holding p => exact SessionStore.keeps_store ..
  | returned result => rfl

end Recording

/-! ## §3. Taking turns. -/

/-- A session and the recordings that are under way in it. -/
structure Shared (ι : Type) where
  session : SessionStore
  progress : ι → Progress

/-- A session in which no recording has begun. -/
def Shared.start {ι : Type} (s : SessionStore) : Shared ι :=
  ⟨s, fun _ => .waiting⟩

variable {ι : Type} [DecidableEq ι] {calls : ι → Recording} {σ : Shared ι} {i j k : ι}

/-- One recording takes its next step. -/
def turn (calls : ι → Recording) (σ : Shared ι) (i : ι) : Shared ι where
  session := ((calls i).step σ.session (σ.progress i)).1
  progress := Function.update σ.progress i ((calls i).step σ.session (σ.progress i)).2

/-- Recordings take their steps in the order of a schedule. -/
def run (calls : ι → Recording) (σ : Shared ι) (schedule : List ι) : Shared ι :=
  schedule.foldl (turn calls) σ

theorem run_append (calls : ι → Recording) (σ : Shared ι) (schedule schedule' : List ι) :
    run calls σ (schedule ++ schedule') = run calls (run calls σ schedule) schedule' :=
  List.foldl_append

theorem progress_turn_self (calls : ι → Recording) (σ : Shared ι) (i : ι) :
    (turn calls σ i).progress i = ((calls i).step σ.session (σ.progress i)).2 :=
  Function.update_self ..

theorem progress_turn_of_ne (h : j ≠ i) : (turn calls σ i).progress j = σ.progress j :=
  Function.update_of_ne h ..

theorem session_turn_of_waiting (h : σ.progress i = .waiting) :
    (turn calls σ i).session = σ.session := by
  unfold turn
  rw [h]
  exact (calls i).fst_step_waiting σ.session

theorem session_turn_of_holding {p : Pending} (h : σ.progress i = .holding p) :
    (turn calls σ i).session = (calls i).tracker.store σ.session ((calls i).added p) := by
  unfold turn
  rw [h]
  rfl

theorem session_turn_of_returned {result : Except CatalogError Unit}
    (h : σ.progress i = .returned result) : (turn calls σ i).session = σ.session := by
  unfold turn
  rw [h]
  rfl

/-- A recording without a turn stays where it is. -/
theorem progress_run_of_not_mem {schedule : List ι} (h : j ∉ schedule) :
    (run calls σ schedule).progress j = σ.progress j := by
  induction schedule generalizing σ with
  | nil => rfl
  | cons i schedule ih =>
      rw [List.mem_cons, not_or] at h
      show (run calls (turn calls σ i) schedule).progress j = _
      rw [ih h.2, progress_turn_of_ne h.1]

theorem keeps_run (calls : ι → Recording) (σ : Shared ι) (schedule : List ι) :
    (run calls σ schedule).session.keeps = σ.session.keeps := by
  induction schedule generalizing σ with
  | nil => rfl
  | cons i schedule ih => exact (ih (turn calls σ i)).trans (Recording.keeps_step ..)

/-- **The last store decides.**  What is stored after a recording is what was stored when it
loaded, with its message: whatever was stored in between is gone. -/
theorem stored_run_of_last {before between : List ι}
    (hkeeps : σ.session.keeps = true) (hcan : (calls j).tracker.canRecord = true)
    (hblank : isBlank (calls j).original = false) (hwaiting : σ.progress j = .waiting)
    (hbefore : j ∉ before) (hbetween : j ∉ between)
    (hreturned : (run calls σ (before ++ j :: (between ++ [j]))).progress j
      = .returned (.ok ())) :
    ∃ p, stored (run calls σ before).session (calls j).tracker.ns = .ok p
      ∧ stored (run calls σ (before ++ j :: (between ++ [j]))).session (calls j).tracker.ns
        = .ok ((calls j).added p) := by
  have hsplit : run calls σ (before ++ j :: (between ++ [j]))
      = turn calls (run calls (turn calls (run calls σ before) j) between) j := by
    rw [run_append]
    show run calls (turn calls (run calls σ before) j) (between ++ [j]) = _
    rw [run_append]
    rfl
  -- the recording keeps what it loaded while the others take their turns
  have hheld : (run calls (turn calls (run calls σ before) j) between).progress j
      = ((calls j).step (run calls σ before).session .waiting).2 := by
    rw [progress_run_of_not_mem hbetween, progress_turn_self, progress_run_of_not_mem hbefore,
      hwaiting]
  rw [Recording.step_waiting hcan hblank] at hheld
  rw [hsplit, progress_turn_self, hheld] at hreturned
  rw [hsplit]
  cases hp : stored (run calls σ before).session (calls j).tracker.ns with
  | error e =>
      rw [hp] at hreturned
      cases hreturned
  | ok p =>
      rw [hp] at hheld
      refine ⟨p, rfl, ?_⟩
      have hkept :
          (run calls (turn calls (run calls σ before) j) between).session.keeps = true := by
        rw [← hkeeps, ← keeps_run calls σ (before ++ j :: between), run_append]
        rfl
      rw [session_turn_of_holding hheld, stored_store, if_pos ⟨hkept, rfl⟩]

/-! ## §4. What was pending before. -/

section Kept

variable {t : Tracker} {s : SessionStore} {lang original : String}

/-- A recording adds to what it has loaded, and takes nothing out. -/
theorem isSome_get?_added (r : Recording) {p : Pending}
    (h : ((p.forLanguage lang).get? original).isSome = true) :
    (((r.added p).forLanguage lang).get? original).isSome = true := by
  unfold Recording.added
  rw [Pending.get?_forLanguage_record]
  split
  next => rfl
  next => exact h

/-- A message is pending, and is among all that the recordings of its namespace hold. -/
structure Holds (calls : ι → Recording) (t : Tracker) (lang original : String) (σ : Shared ι) :
    Prop where
  awaits : t.Awaits σ.session lang original
  held : ∀ k p, (calls k).tracker.ns = t.ns → σ.progress k = .holding p →
    ((p.forLanguage lang).get? original).isSome = true

omit [DecidableEq ι] in
theorem holds_start (calls : ι → Recording) (h : t.Awaits s lang original) :
    Holds calls t lang original (.start s) := by
  refine ⟨h, ?_⟩
  intro k p hns hholding
  cases hholding

/-- What is pending stays pending when a recording takes its next step. -/
theorem Holds.awaits_turn (h : Holds calls t lang original σ) (i : ι) :
    t.Awaits (turn calls σ i).session lang original := by
  obtain ⟨p, hp⟩ := stored_of_awaits h.awaits
  cases hprogress : σ.progress i with
  | waiting =>
      rw [session_turn_of_waiting hprogress]
      exact h.awaits
  | returned result =>
      rw [session_turn_of_returned hprogress]
      exact h.awaits
  | holding held =>
      rw [session_turn_of_holding hprogress]
      have hstored := stored_store (calls i).tracker σ.session ((calls i).added held) t.ns
      split at hstored
      next hown =>
        rw [awaits_iff_of_stored hstored]
        exact isSome_get?_added (calls i) (h.held i held hown.2 hprogress)
      next =>
        -- the store is for another namespace, or nothing is kept
        rw [hp] at hstored
        rw [awaits_iff_of_stored hstored, ← awaits_iff_of_stored hp]
        exact h.awaits

/-- **A step of a recording keeps what is pending**, where it is stored and where it is held. -/
theorem Holds.turn (h : Holds calls t lang original σ) (i : ι) :
    Holds calls t lang original (turn calls σ i) := by
  refine ⟨h.awaits_turn i, ?_⟩
  intro k p hns hholding
  by_cases hk : k = i
  · subst hk
    -- what it holds now is what it found stored
    rw [progress_turn_self] at hholding
    have hloaded := Recording.load_of_snd_step hholding
    rw [decode_load, hns] at hloaded
    exact (awaits_iff_of_stored hloaded).1 h.awaits
  · rw [progress_turn_of_ne hk] at hholding
    exact h.held k p hns hholding

/-- **What was pending before is never lost**, however many recordings there are, and however
they take turns. -/
theorem awaits_run (calls : ι → Recording) (h : t.Awaits s lang original) (schedule : List ι) :
    t.Awaits (run calls (.start s) schedule).session lang original := by
  have hholds : ∀ (schedule : List ι) (σ : Shared ι), Holds calls t lang original σ →
      Holds calls t lang original (run calls σ schedule) := by
    intro schedule
    induction schedule with
    | nil => exact fun σ h => h
    | cons i schedule ih => exact fun σ h => ih _ (h.turn i)
  exact (hholds schedule _ (holds_start calls h)).awaits

end Kept

/-! ## §5. Two recordings. -/

section Two

variable {t : Tracker} {s s' : SessionStore} {p : Pending} {lang original : String}

/-- What is found once a recording has stored what it loaded with its message. -/
theorem get_of_stored_added {r : Recording} (hblank : isBlank r.original = false)
    (hp : stored s t.ns = .ok p) (hadded : stored s' t.ns = .ok (r.added p))
    (lang original : String) :
    t.get s' lang original
      = if r.lang = lang ∧ r.original = original then .ok (some (forms r.original r.plural))
        else t.get s lang original := by
  rw [get_of_stored hadded, get_of_stored hp]
  unfold Recording.added
  rw [Pending.get?_forLanguage_record]
  simp only [hblank, and_true]
  split
  next => rfl
  next => rfl

/-- The recording that has stored last is pending. -/
theorem get_added_self {r : Recording} (hblank : isBlank r.original = false)
    (hadded : stored s' t.ns = .ok (r.added p)) :
    t.get s' r.lang r.original = .ok (some (forms r.original r.plural)) := by
  rw [get_of_stored hadded]
  unfold Recording.added
  rw [Pending.get?_forLanguage_record, if_pos ⟨rfl, rfl, hblank⟩]

/-- A message that is recorded without an interruption is pending. -/
theorem awaits_of_done (hkeeps : s.keeps = true) (hcan : (calls i).tracker.canRecord = true)
    (hns : (calls i).tracker.ns = t.ns) (hblank : isBlank (calls i).original = false)
    (hreturned : (run calls (.start s) [i, i]).progress i = .returned (.ok ())) :
    t.Awaits (run calls (.start s) [i, i]).session (calls i).lang (calls i).original := by
  change (run calls (.start s) ([] ++ i :: ([] ++ [i]))).progress i = _ at hreturned
  obtain ⟨p, -, hadded⟩ := stored_run_of_last hkeeps hcan hblank rfl List.not_mem_nil
    List.not_mem_nil hreturned
  rw [hns] at hadded
  exact ⟨_, get_added_self hblank hadded⟩

omit [DecidableEq ι] in
/-- Before the last of two recordings takes its first step, the other one has taken none of its
two steps, one of them, or both. -/
theorem steps_before_of_perm {schedule : List ι} (h : (schedule ++ [j]).Perm [i, i, j, j]) :
    ∃ before between, schedule = before ++ j :: between
      ∧ (before = [] ∧ between = [i, i] ∨ before = [i] ∧ between = [i]
        ∨ before = [i, i] ∧ between = []) := by
  have hschedule : schedule.Perm [i, i, j] := (List.perm_append_right_iff [j]).1 h
  have hmem : j ∈ schedule := hschedule.mem_iff.2 (by simp)
  obtain ⟨before, between, rfl⟩ := List.append_of_mem hmem
  refine ⟨before, between, rfl, ?_⟩
  -- without the step of the last one, both steps of the other one are left
  have hothers : (before ++ between).Perm [i, i] := by
    have hfront : (j :: (before ++ between)).Perm (j :: [i, i]) :=
      (List.perm_middle.symm.trans hschedule).trans (List.perm_append_singleton j [i, i])
    exact hfront.cons_inv
  have htwo : before ++ between = List.replicate 2 i := List.perm_replicate.1 hothers
  change before ++ between = [i, i] at htwo
  match before, htwo with
  | [], htwo => exact Or.inl ⟨rfl, htwo⟩
  | [a], htwo =>
      cases htwo
      exact Or.inr (Or.inl ⟨rfl, rfl⟩)
  | [a, b], htwo =>
      cases htwo
      exact Or.inr (Or.inr ⟨rfl, rfl⟩)
  | a :: b :: c :: rest, htwo => simp at htwo

/-- **Of two recordings that take turns only the one that is overtaken can be lost.**  Two
recordings of one session and namespace, of different messages, take their steps in any order,
`j` the last one, and the session keeps what it is given.  Once both have returned, all that was
pending before is pending, and so is the message of `j`; that of `i` is pending if it was before,
or if `i` had stored it when `j` loaded, and not otherwise. -/
theorem awaits_of_interleaved {schedule : List ι} (hkeeps : s.keeps = true)
    (hcalls : ∀ k ∈ [i, j], (calls k).tracker.canRecord = true ∧ (calls k).tracker.ns = t.ns
      ∧ isBlank (calls k).original = false)
    (hdiffer : ((calls i).lang, (calls i).original) ≠ ((calls j).lang, (calls j).original))
    (hschedule : (schedule ++ [j]).Perm [i, i, j, j])
    (hreturned : ∀ k ∈ [i, j],
      (run calls (.start s) (schedule ++ [j])).progress k = .returned (.ok ())) :
    (∀ lang original, t.Awaits s lang original →
        t.Awaits (run calls (.start s) (schedule ++ [j])).session lang original)
      ∧ t.get (run calls (.start s) (schedule ++ [j])).session (calls j).lang (calls j).original
        = .ok (some (forms (calls j).original (calls j).plural))
      ∧ (t.Awaits (run calls (.start s) (schedule ++ [j])).session (calls i).lang
            (calls i).original
          ↔ t.Awaits s (calls i).lang (calls i).original ∨ schedule = [i, i, j]) := by
  obtain ⟨hcani, hnsi, hblanki⟩ := hcalls i (by simp)
  obtain ⟨hcanj, hnsj, hblankj⟩ := hcalls j (by simp)
  have hother : ¬ ((calls j).lang = (calls i).lang ∧ (calls j).original = (calls i).original) := by
    intro hsame
    exact hdiffer (Prod.ext hsame.1.symm hsame.2.symm)
  have hij : i ≠ j := by
    intro heq
    rw [heq] at hother
    exact hother ⟨rfl, rfl⟩
  obtain ⟨before, between, rfl, hsteps⟩ := steps_before_of_perm hschedule
  have hbefore : j ∉ before := by
    rcases hsteps with ⟨rfl, -⟩ | ⟨rfl, -⟩ | ⟨rfl, -⟩ <;> simp [hij.symm]
  have hbetween : j ∉ between := by
    rcases hsteps with ⟨-, rfl⟩ | ⟨-, rfl⟩ | ⟨-, rfl⟩ <;> simp [hij.symm]
  rw [List.append_assoc, List.cons_append] at hreturned ⊢
  -- what is stored in the end is what `j` loaded, with its message
  obtain ⟨p, hloaded, hadded⟩ := stored_run_of_last hkeeps hcanj hblankj rfl hbefore
    hbetween (hreturned j (by simp))
  rw [hnsj] at hloaded hadded
  refine ⟨fun lang original h => awaits_run calls h _, get_added_self hblankj hadded, ?_⟩
  have hfound : t.Awaits (run calls (.start s) (before ++ j :: (between ++ [j]))).session
        (calls i).lang (calls i).original
      ↔ t.Awaits (run calls (.start s) before).session (calls i).lang (calls i).original := by
    unfold Awaits
    rw [get_of_stored_added hblankj hloaded hadded, if_neg hother]
  rw [hfound]
  rcases hsteps with ⟨rfl, -⟩ | ⟨rfl, -⟩ | ⟨rfl, rfl⟩
  · show t.Awaits s _ _ ↔ _
    simp [hij.symm]
  · -- `i` has loaded, which stores nothing
    have hloads : (run calls (.start s) [i]).session = s := session_turn_of_waiting rfl
    rw [hloads]
    simp [hij.symm]
  · -- `i` has returned before `j` loads
    have hdone : (run calls (.start s) [i, i]).progress i = .returned (.ok ()) := by
      have hafter := hreturned i (by simp)
      rw [run_append, progress_run_of_not_mem (by simp [hij])] at hafter
      exact hafter
    have hawaits := awaits_of_done hkeeps hcani hnsi hblanki hdone
    exact ⟨fun _ => Or.inr rfl, fun _ => hawaits⟩

/-- A tracker records that "Dog" and "Cat" were not found in Czech. -/
def petCalls (cat : Bool) : Recording :=
  ⟨⟨"ns", true, false⟩, "cs", if cat then "Cat" else "Dog", none⟩

/-- A recording that has returned is lost: it loaded before the other one stored, and stored
before the other one did. -/
theorem lost_of_overlap :
    (∀ cat, (run petCalls (.start .empty) [false, true, false, true]).progress cat
        = .returned (.ok ()))
      ∧ (petCalls false).original = "Dog"
      ∧ (⟨"ns", true, false⟩ : Tracker).get
          (run petCalls (.start .empty) [false, true, false, true]).session "cs" "Dog"
        = .ok none := by
  refine ⟨?_, rfl, ?_⟩
  · intro cat
    cases cat <;> rfl
  · rfl

/-- Of two recordings that do not overlap none is lost. -/
theorem awaits_of_interleaved_pets :
    (∀ cat, (run petCalls (.start .empty) [false, false, true, true]).progress cat
        = .returned (.ok ()))
      ∧ (⟨"ns", true, false⟩ : Tracker).Awaits
          (run petCalls (.start .empty) [false, false, true, true]).session "cs" "Dog"
      ∧ (⟨"ns", true, false⟩ : Tracker).Awaits
          (run petCalls (.start .empty) [false, false, true, true]).session "cs" "Cat" := by
  have hreturned : ∀ cat, (run petCalls (.start .empty) [false, false, true, true]).progress cat
      = .returned (.ok ()) := by
    intro cat
    cases cat <;> rfl
  have hcalls : ∀ k ∈ [false, true], (petCalls k).tracker.canRecord = true
      ∧ (petCalls k).tracker.ns = "ns" ∧ isBlank (petCalls k).original = false := by
    decide +kernel
  have hdiffer : ((petCalls false).lang, (petCalls false).original)
      ≠ ((petCalls true).lang, (petCalls true).original) := by
    decide
  have hschedule : ([false, false, true] ++ [true]).Perm [false, false, true, true] :=
    List.Perm.refl _
  obtain ⟨-, hcat, hdog⟩ := awaits_of_interleaved (t := ⟨"ns", true, false⟩) rfl hcalls hdiffer
    hschedule fun k _ => hreturned k
  exact ⟨hreturned, hdog.2 (Or.inr rfl), _, hcat⟩

end Two

end Tracker

end MessageCatalog
