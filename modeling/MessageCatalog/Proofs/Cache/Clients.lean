/-
  MessageCatalog.Proofs.Cache.Clients
  ────────────────────────────────
  **MANY CLIENTS, ONE CACHE.**

  Clients read, write and clean one cache while files change and time passes.  Writing and
  cleaning are one step each.  Reading takes two, and others may come in between:

      a client     drop ───────────────── get
      others             write   clean

  So what a read returns need not be what its first step has looked at.  It is what is
  there at the second step, and that is always what was written last (`lastWritten?`),
  because a dictionary comes into the cache only when it is written, and leaves it only
  for one of the reasons in `Ends` (`kept?_after_iff`).
-/
import Mathlib.Data.List.Induction
import Mathlib.Logic.Function.Basic
import MessageCatalog.Cache.Store
import MessageCatalog.Proofs.OrderedMap

namespace MessageCatalog

/-! ## §1. What single steps leave in the cache. -/

namespace CachedDictionary

/-- The dictionary as it is kept when it is written. -/
def made (fs : FileSystem) (now : Nat) (d : Dictionary) (deps : CacheDependencies) :
    CachedDictionary where
  dictionary := d
  cachedAt := now
  expire := deps.expire
  files := deps.files.map fun path => (path, fs.stamp? path)
  tags := deps.tags

/-- A dictionary is no longer good if its lifetime is over, or one of its files is another
than it was. -/
theorem isValid_eq_false_iff {kept : CachedDictionary} {fs : FileSystem} {now : Nat} :
    kept.isValid fs now = false
      ↔ (∃ seconds, kept.expire = some seconds ∧ seconds ≤ now - kept.cachedAt)
        ∨ ∃ path stamp, (path, stamp) ∈ kept.files ∧ fs.stamp? path ≠ stamp := by
  unfold isValid isExpired isUnchanged
  rw [Bool.and_eq_false_iff, Bool.not_eq_false', List.all_eq_false]
  constructor
  · intro h
    rcases h with hexpired | ⟨⟨path, stamp⟩, hmem, hstamp⟩
    · cases hexpire : kept.expire with
      | none =>
          rw [hexpire] at hexpired
          cases hexpired
      | some seconds =>
          rw [hexpire] at hexpired
          exact Or.inl ⟨seconds, rfl, of_decide_eq_true hexpired⟩
    · exact Or.inr ⟨path, stamp, hmem, by simpa using hstamp⟩
  · intro h
    rcases h with ⟨seconds, hexpire, hover⟩ | ⟨path, stamp, hmem, hstamp⟩
    · rw [hexpire]
      exact Or.inl (decide_eq_true hover)
    · exact Or.inr ⟨(path, stamp), hmem, by simpa using hstamp⟩

end CachedDictionary

namespace CacheStore

section Entries

variable (c : CacheStore) (fs : FileSystem) (now : Nat) (ns key : String) (k : String × String)

theorem get?_write (d : Dictionary) (deps : CacheDependencies) :
    (c.write fs now ns key d deps).entries.get? k
      = if (ns, key) = k then some (.made fs now d deps) else c.entries.get? k :=
  OrderedMap.get?_insert c.entries (ns, key) k _

theorem get?_clean (tags : List String) :
    (c.clean ns tags).entries.get? k
      = (c.entries.get? k).filter fun kept => k.1 != ns || !kept.tags.any tags.contains :=
  OrderedMap.get?_filter c.entries _ k

theorem get?_dropStale :
    (c.dropStale fs now ns key).2.entries.get? k
      = if (ns, key) = k then (c.entries.get? k).filter fun kept => kept.isValid fs now
        else c.entries.get? k := by
  by_cases hk : (ns, key) = k
  · subst hk
    unfold dropStale isStale
    rw [if_pos rfl]
    cases hkept : c.entries.get? (ns, key) with
    | none => simp [hkept]
    | some kept =>
        cases hvalid : kept.isValid fs now <;>
          simp [hkept, hvalid, OrderedMap.get?_erase, Option.filter]
  · unfold dropStale
    rw [if_neg hk]
    split
    next hstale => rw [OrderedMap.get?_erase, if_neg (Ne.symm hk)]
    next hstale => rfl

theorem fst_dropStale :
    (c.dropStale fs now ns key).1 = c.isStale fs now ns key := by
  unfold dropStale
  cases c.isStale fs now ns key <;> rfl

end Entries

/-! ## §2. Clients. -/

/-- How far the read of a client has come. -/
inductive Reading where
  /-- The client has not read yet. -/
  | idle
  /-- It has found nothing stale under the key, and will get what is there. -/
  | seeking (ns key : String)
  | returned (found : Option Dictionary)
  deriving DecidableEq

/-- The read after its second step, if it has come so far. -/
def Reading.got (c : CacheStore) : Reading → Reading
  | .seeking ns key => .returned (c.current ns key)
  | r => r

/-- What can happen where clients share a cache. -/
inductive Step (κ : Type) where
  /-- A client begins to read: what is under the key is dropped if it is stale. -/
  | drop (client : κ) (ns key : String)
  /-- A client gets what is there. -/
  | get (client : κ)
  | write (ns key : String) (d : Dictionary) (deps : CacheDependencies)
  | clean (ns : String) (tags : List String)
  /-- Files are changed, and it is another time. -/
  | change (files : FileSystem) (now : Nat)

/-- The client whose read takes the step. -/
def Step.reader? {κ : Type} : Step κ → Option κ
  | .drop client _ _ | .get client => some client
  | .write _ _ _ _ | .clean _ _ | .change _ _ => none

/-- A cache, its surroundings, and the reads of its clients. -/
structure Site (κ : Type) where
  cache : CacheStore
  files : FileSystem
  now : Nat
  reading : κ → Reading

namespace Site

section Site

variable {κ : Type}

/-- A cache that nobody has used yet. -/
def start (files : FileSystem) (now : Nat) : Site κ :=
  ⟨.empty, files, now, fun _ => .idle⟩

/-- What is kept under a key. -/
def kept? (s : Site κ) (ns key : String) : Option CachedDictionary :=
  s.cache.entries.get? (ns, key)

/-- Whether what is kept under a key is stale. -/
def isStale (s : Site κ) (ns key : String) : Bool :=
  s.cache.isStale s.files s.now ns key

end Site

variable {κ : Type} [DecidableEq κ]

/-- The cache and its clients after a step. -/
def after (s : Site κ) : Step κ → Site κ
  | .drop client ns key =>
      let dropped := s.cache.dropStale s.files s.now ns key
      { s with
        cache := dropped.2
        reading := Function.update s.reading client
          (if dropped.1 then .returned none else .seeking ns key) }
  | .get client =>
      { s with reading := Function.update s.reading client ((s.reading client).got s.cache) }
  | .write ns key d deps => { s with cache := s.cache.write s.files s.now ns key d deps }
  | .clean ns tags => { s with cache := s.cache.clean ns tags }
  | .change files now => { s with files := files, now := now }

/-- The cache and its clients after a history. -/
def through (s : Site κ) (history : List (Step κ)) : Site κ :=
  history.foldl after s

/-- The cache and its clients after a history that begins with an unused cache. -/
def since (files : FileSystem) (now : Nat) (history : List (Step κ)) : Site κ :=
  (start files now).through history

variable {s : Site κ} {client : κ} {step : Step κ} {ns key : String} {kept : CachedDictionary}

theorem through_append (s : Site κ) (history history' : List (Step κ)) :
    s.through (history ++ history') = (s.through history).through history' :=
  List.foldl_append

theorem reading_after_drop (s : Site κ) (client : κ) (ns key : String) :
    (s.after (.drop client ns key)).reading client
      = if s.isStale ns key then .returned none else .seeking ns key := by
  show Function.update s.reading client _ client = _
  rw [Function.update_self, fst_dropStale]
  rfl

theorem reading_after_get (s : Site κ) (client : κ) :
    (s.after (.get client)).reading client = (s.reading client).got s.cache :=
  Function.update_self ..

/-- **Two steps that nothing comes between are the read.** -/
theorem drop_get (s : Site κ) (client : κ) (ns key : String) :
    ((s.after (.drop client ns key)).after (.get client)).reading client
        = .returned (s.cache.read s.files s.now ns key).1
      ∧ ((s.after (.drop client ns key)).after (.get client)).cache
        = (s.cache.read s.files s.now ns key).2 := by
  have hcache : (s.after (.drop client ns key)).cache
      = (s.cache.dropStale s.files s.now ns key).2 := rfl
  rw [reading_after_get, reading_after_drop, hcache]
  show _ ∧ (s.cache.dropStale s.files s.now ns key).2 = _
  unfold read dropStale isStale
  cases s.cache.isStale s.files s.now ns key with
  | false => exact ⟨rfl, rfl⟩
  | true => exact ⟨rfl, rfl⟩

/-- The read of a client goes on with its own steps only. -/
theorem reading_after_of_ne (h : step.reader? ≠ some client) :
    (s.after step).reading client = s.reading client := by
  have hother : ∀ other, step.reader? = some other → client ≠ other := by
    intro other hreader heq
    rw [hreader, heq] at h
    exact h rfl
  cases step with
  | drop other ns key => exact Function.update_of_ne (hother other rfl) ..
  | get other => exact Function.update_of_ne (hother other rfl) ..
  | write ns key d deps => rfl
  | clean ns tags => rfl
  | change files now => rfl

theorem reading_through_of_ne {history : List (Step κ)}
    (h : ∀ step ∈ history, step.reader? ≠ some client) :
    (s.through history).reading client = s.reading client := by
  induction history generalizing s with
  | nil => rfl
  | cons step history ih =>
      rw [List.forall_mem_cons] at h
      show ((s.after step).through history).reading client = _
      rw [ih h.2, reading_after_of_ne h.1]

/-! ## §3. How dictionaries come and go. -/

/-- What ends the life of a kept dictionary: another one is written in its place, its
namespace is cleaned of one of its tags, or a read begins that finds its lifetime over, or
one of its files another than it was. -/
inductive Ends (s : Site κ) (ns key : String) (kept : CachedDictionary) : Step κ → Prop where
  | written (d : Dictionary) (deps : CacheDependencies) :
      Ends s ns key kept (.write ns key d deps)
  | cleaned {tag : String} {tags : List String} (own : tag ∈ kept.tags) (named : tag ∈ tags) :
      Ends s ns key kept (.clean ns tags)
  | expired {seconds : Nat} (client : κ) (expire : kept.expire = some seconds)
      (elapsed : seconds ≤ s.now - kept.cachedAt) : Ends s ns key kept (.drop client ns key)
  | changed {path : String} {stamp : Option Stamp} (client : κ)
      (recorded : (path, stamp) ∈ kept.files) (other : s.files.stamp? path ≠ stamp) :
      Ends s ns key kept (.drop client ns key)

omit [DecidableEq κ] in
theorem ends_drop_iff {client : κ} {ns' key' : String} :
    Ends s ns key kept (.drop client ns' key')
      ↔ (ns', key') = (ns, key) ∧ kept.isValid s.files s.now = false := by
  rw [CachedDictionary.isValid_eq_false_iff]
  constructor
  · intro h
    cases h with
    | expired _ expire elapsed => exact ⟨rfl, Or.inl ⟨_, expire, elapsed⟩⟩
    | changed _ recorded other => exact ⟨rfl, Or.inr ⟨_, _, recorded, other⟩⟩
  · intro h
    obtain ⟨hkey, hinvalid⟩ := h
    cases hkey
    rcases hinvalid with ⟨seconds, expire, elapsed⟩ | ⟨path, stamp, recorded, other⟩
    · exact .expired client expire elapsed
    · exact .changed client recorded other

omit [DecidableEq κ] in
theorem ends_clean_iff {ns' : String} {tags : List String} :
    Ends s ns key kept (.clean ns' tags) ↔ ns' = ns ∧ kept.tags.any tags.contains = true := by
  rw [List.any_eq_true]
  constructor
  · intro h
    cases h with
    | cleaned own named => exact ⟨rfl, _, own, List.contains_iff_mem.2 named⟩
  · intro h
    obtain ⟨rfl, tag, own, named⟩ := h
    exact .cleaned own (List.contains_iff_mem.1 named)

omit [DecidableEq κ] in
theorem ends_write_iff {ns' key' : String} {d : Dictionary} {deps : CacheDependencies} :
    Ends s ns key kept (.write ns' key' d deps) ↔ (ns', key') = (ns, key) := by
  constructor
  · intro h
    cases h with
    | written => rfl
  · intro h
    cases h
    exact .written d deps

/-- **A dictionary is kept after a step if the step writes it, or if it was kept before and the
step does not end its life.** -/
theorem kept?_after_iff :
    (s.after step).kept? ns key = some kept
      ↔ (∃ d deps, step = .write ns key d deps ∧ kept = .made s.files s.now d deps)
        ∨ s.kept? ns key = some kept ∧ ¬ Ends s ns key kept step := by
  unfold kept?
  cases step with
  | drop client ns' key' =>
      show (s.cache.dropStale s.files s.now ns' key').2.entries.get? (ns, key) = some kept ↔ _
      rw [get?_dropStale, ends_drop_iff]
      by_cases hkey : (ns', key') = (ns, key)
      · rw [if_pos hkey, Option.filter_eq_some_iff]
        simp [hkey]
      · rw [if_neg hkey]
        simp [hkey]
  | get client =>
      have hends : ¬ Ends s ns key kept (.get client) := by
        intro h
        cases h
      show s.cache.entries.get? (ns, key) = some kept ↔ _
      simp [hends]
  | write ns' key' d deps =>
      show (s.cache.write s.files s.now ns' key' d deps).entries.get? (ns, key) = some kept ↔ _
      rw [get?_write, ends_write_iff]
      by_cases hkey : (ns', key') = (ns, key)
      · cases hkey
        simp [eq_comm]
      · rw [if_neg hkey]
        rw [Prod.mk.injEq] at hkey
        simp [hkey]
  | clean ns' tags =>
      show (s.cache.clean ns' tags).entries.get? (ns, key) = some kept ↔ _
      have hstays : ((ns != ns') || !kept.tags.any tags.contains) = true
          ↔ ¬ (ns' = ns ∧ kept.tags.any tags.contains = true) := by
        rw [Bool.or_eq_true, bne_iff_ne, Bool.not_eq_true', ← Bool.not_eq_true, ne_comm]
        exact Decidable.not_and_iff_not_or_not.symm
      rw [get?_clean, ends_clean_iff, Option.filter_eq_some_iff, hstays]
      simp
  | change files now =>
      have hends : ¬ Ends s ns key kept (.change files now) := by
        intro h
        cases h
      show s.cache.entries.get? (ns, key) = some kept ↔ _
      simp [hends]

end Site

/-! ## §4. What was written last. -/

section Written

variable {κ : Type}

/-- The dictionary that a step writes under a key. -/
def Step.written? (ns key : String) : Step κ → Option Dictionary
  | .write ns' key' d _ => if (ns', key') = (ns, key) then some d else none
  | _ => none

/-- The dictionary that was written last under a key. -/
def lastWritten? (ns key : String) (history : List (Step κ)) : Option Dictionary :=
  history.reverse.findSome? (Step.written? ns key)

theorem lastWritten?_concat (ns key : String) (history : List (Step κ)) (step : Step κ) :
    lastWritten? ns key (history ++ [step])
      = (step.written? ns key).or (lastWritten? ns key history) := by
  unfold lastWritten?
  rw [List.reverse_append, List.findSome?_append]
  simp

end Written

namespace Site

variable {κ : Type} [DecidableEq κ] {ns key : String} {kept : CachedDictionary} {files : FileSystem}
  {now : Nat}

/-- **What is kept is what was written last.** -/
theorem lastWritten?_of_kept {history : List (Step κ)}
    (h : (since files now history).kept? ns key = some kept) :
    lastWritten? ns key history = some kept.dictionary := by
  induction history using List.reverseRecOn generalizing kept with
  | nil => cases h
  | append_singleton history step ih =>
      unfold since at h
      rw [through_append] at h
      rw [lastWritten?_concat]
      rcases kept?_after_iff.1 h with ⟨d, deps, rfl, rfl⟩ | ⟨hbefore, hends⟩
      · simp [Step.written?, CachedDictionary.made]
      · -- the step has not written under the key, or it would have ended this life
        have hnone : step.written? ns key = none := by
          cases step with
          | write ns' key' d deps =>
              rw [ends_write_iff] at hends
              exact if_neg hends
          | drop client ns' key' => rfl
          | get client => rfl
          | clean ns' tags => rfl
          | change files' now' => rfl
        rw [hnone, Option.none_or]
        exact ih hbefore

/-- **A dictionary that is kept no longer has met its end.** -/
theorem ends_of_gone {s : Site κ} {history : List (Step κ)} (hkept : s.kept? ns key = some kept)
    (hgone : (s.through history).kept? ns key ≠ some kept) :
    ∃ between step rest, history = between ++ step :: rest
      ∧ (s.through between).kept? ns key = some kept
      ∧ Ends (s.through between) ns key kept step := by
  induction history generalizing s with
  | nil => exact absurd hkept hgone
  | cons step history ih =>
      by_cases hends : Ends s ns key kept step
      · exact ⟨[], step, history, rfl, hkept, hends⟩
      · have hafter : (s.after step).kept? ns key = some kept :=
          kept?_after_iff.2 (Or.inr ⟨hkept, hends⟩)
        obtain ⟨between, step', rest, rfl, hstill, hends'⟩ := ih hafter hgone
        exact ⟨step :: between, step', rest, rfl, hstill, hends'⟩

/-! ## §5. What reads return. -/

/-- **A read returns what is there at its second step**, if its first step found nothing stale. -/
theorem reading_of_steps (s : Site κ) {client : κ} {between : List (Step κ)}
    (hbetween : ∀ step ∈ between, step.reader? ≠ some client) (ns key : String) :
    (s.through (.drop client ns key :: (between ++ [.get client]))).reading client
      = .returned (if s.isStale ns key then none
          else ((s.through (.drop client ns key :: between)).kept? ns key).map
            CachedDictionary.dictionary) := by
  have hsplit : s.through (.drop client ns key :: (between ++ [.get client]))
      = (s.through (.drop client ns key :: between)).after (.get client) := by
    rw [← List.cons_append, through_append]
    rfl
  have hreading : (s.through (.drop client ns key :: between)).reading client
      = if s.isStale ns key then .returned none else .seeking ns key := by
    show ((s.after (.drop client ns key)).through between).reading client = _
    rw [reading_through_of_ne hbetween, reading_after_drop]
  rw [hsplit, reading_after_get, hreading]
  split
  next => rfl
  next => rfl

/-- **Reads and lives in a shared cache.**  Whatever clients do, in whichever order their steps
come, and whatever happens to the files and the clock: a read returns a dictionary exactly if its
first step found nothing stale, something is kept at its second step, and the dictionary is the
one that was written last; and a dictionary leaves the cache only by a step that ends its life. -/
theorem reads_and_ends (files : FileSystem) (now : Nat) :
    (∀ (before between : List (Step κ)) (client : κ) (ns key : String) (d : Dictionary),
      (∀ step ∈ between, step.reader? ≠ some client) →
      ((since files now (before ++ .drop client ns key :: (between ++ [.get client]))).reading
            client = .returned (some d)
        ↔ (since files now before).isStale ns key = false
          ∧ ((since files now (before ++ .drop client ns key :: between)).kept? ns key).isSome
          ∧ lastWritten? ns key (before ++ .drop client ns key :: between) = some d))
      ∧ ∀ (before after : List (Step κ)) (ns key : String) (kept : CachedDictionary),
        (since files now before).kept? ns key = some kept →
        (since files now (before ++ after)).kept? ns key ≠ some kept →
        ∃ between step rest, after = between ++ step :: rest
          ∧ (since files now (before ++ between)).kept? ns key = some kept
          ∧ Ends (since files now (before ++ between)) ns key kept step := by
  have hsince : ∀ history history' : List (Step κ),
      since files now (history ++ history') = (since files now history).through history' :=
    through_append _
  constructor
  · intro before between client ns key d hbetween
    have hlast : ∀ kept,
        (since files now (before ++ .drop client ns key :: between)).kept? ns key = some kept →
        lastWritten? ns key (before ++ .drop client ns key :: between) = some kept.dictionary :=
      fun kept hkept => lastWritten?_of_kept hkept
    rw [hsince] at hlast ⊢
    rw [hsince, reading_of_steps _ hbetween]
    cases (since files now before).isStale ns key with
    | true => simp
    | false =>
        cases hkept : ((since files now before).through (.drop client ns key :: between)).kept?
            ns key with
        | none => simp
        | some kept => simp [hlast kept hkept]
  · intro before after ns key kept hkept hgone
    rw [hsince] at hgone
    obtain ⟨between, step, rest, hafter, hstill, hends⟩ := ends_of_gone hkept hgone
    refine ⟨between, step, rest, hafter, ?_, ?_⟩
    · rw [hsince]
      exact hstill
    · rw [hsince]
      exact hends

/-- The dictionary with one message. -/
def yesDictionary : Dictionary :=
  Dictionary.empty.insert ⟨["Yes"], ["Ano"], "default"⟩

/-- A dictionary that lives for ten seconds is written. -/
def shortLived : Step Bool :=
  .write "ns" "cs" .empty ⟨some 10, ["cs.mo"], ["cs"]⟩

/-- A client reads what another has just written; and ten seconds later the short life of a
dictionary has ended. -/
theorem reads_and_ends_shortLived :
    (since .empty 0 [shortLived, .drop false "ns" "cs", .write "ns" "cs" yesDictionary ⟨none, [], []⟩,
        .get false]).reading false = .returned (some yesDictionary)
      ∧ ∃ between step rest,
        ([.change .empty 10, .drop true "ns" "cs"] : List (Step Bool)) = between ++ step :: rest
          ∧ Ends (since .empty 0 (shortLived :: between)) "ns" "cs"
              (.made .empty 0 .empty ⟨some 10, ["cs.mo"], ["cs"]⟩) step := by
  obtain ⟨hreads, hlives⟩ := reads_and_ends (κ := Bool) .empty 0
  constructor
  · refine (hreads [shortLived] [.write "ns" "cs" yesDictionary ⟨none, [], []⟩] false "ns" "cs" yesDictionary ?_).2
      ⟨rfl, rfl, rfl⟩
    simp [Step.reader?]
  · obtain ⟨between, step, rest, hafter, -, hends⟩ := hlives [shortLived]
      [.change .empty 10, .drop true "ns" "cs"] "ns" "cs" _ rfl (by decide +kernel)
    exact ⟨between, step, rest, hafter, hends⟩

end Site

end CacheStore

end MessageCatalog
