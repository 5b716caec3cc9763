/-
  MessageCatalog.Proofs.OrderedMap
  ────────────────────────────────
  **WHAT IS IN A MAP.**

  A value is found under a key exactly when the pair of both is in the map.  All
  that is said here about other operations follows from it: what a list of pairs
  leaves under a key is its last pair with that key, and a map is the map of its
  own pairs.
-/
import Mathlib.Data.List.Basic
import Mathlib.Data.List.Induction
import MessageCatalog.OrderedMap

namespace MessageCatalog

variable {κ υ : Type} [DecidableEq κ]

/-! ## §1. Lists of pairs. -/

namespace Pairs

theorem get?_eq_some_iff {key : κ} {value : υ} {pairs : List (κ × υ)}
    (h : (pairs.map Prod.fst).Nodup) : get? key pairs = some value ↔ (key, value) ∈ pairs := by
  induction pairs with
  | nil => simp [get?]
  | cons pair rest ih =>
      rw [List.map_cons, List.nodup_cons] at h
      obtain ⟨hnew, hrest⟩ := h
      by_cases hp : pair.1 = key
      · -- the rest has no pair with this key, so membership means the first pair
        have hnot : (key, value) ∉ rest := by
          intro hmem
          rw [hp] at hnew
          exact hnew (List.mem_map.2 ⟨_, hmem, rfl⟩)
        rw [get?, if_pos hp, List.mem_cons, or_iff_left hnot, Option.some.injEq]
        constructor
        · rintro rfl
          rw [← hp]
        · intro heq
          rw [← heq]
      · rw [get?, if_neg hp, ih hrest, List.mem_cons]
        constructor
        · exact Or.inr
        · rintro (rfl | hmem)
          · exact absurd rfl hp
          · exact hmem

theorem insert_of_not_mem {key : κ} (value : υ) {pairs : List (κ × υ)}
    (h : key ∉ pairs.map Prod.fst) : insert key value pairs = pairs ++ [(key, value)] := by
  induction pairs with
  | nil => rfl
  | cons pair rest ih =>
      rw [List.map_cons, List.mem_cons, not_or] at h
      rw [insert, if_neg (Ne.symm h.1), ih h.2]
      rfl

/-- A key that is kept may be inserted before or after the others are left out. -/
theorem filter_insert (keep : κ → Bool) {key : κ} (h : keep key = true) (value : υ)
    (pairs : List (κ × υ)) :
    (insert key value pairs).filter (fun pair => keep pair.1)
      = insert key value (pairs.filter fun pair => keep pair.1) := by
  induction pairs with
  | nil =>
      show [(key, value)].filter _ = [(key, value)]
      simp [h]
  | cons pair rest ih =>
      by_cases hp : pair.1 = key
      · -- the old value is kept with its key, so that both sides replace it
        simp [insert, hp, h]
      · cases hkept : keep pair.1 with
        | true => simp [insert, hp, hkept, ih]
        | false => simp [insert, hp, hkept, ih]

end Pairs

/-! ## §2. Maps. -/

namespace OrderedMap

theorem get?_eq_some_iff {m : OrderedMap κ υ} {key : κ} {value : υ} :
    m.get? key = some value ↔ (key, value) ∈ m.pairs :=
  Pairs.get?_eq_some_iff m.nodup

omit [DecidableEq κ] in
theorem eq_of_pairs_eq {m m' : OrderedMap κ υ} (h : m.pairs = m'.pairs) : m = m' := by
  cases m
  cases m'
  cases h
  rfl

/-- A map has no two pairs with one key. -/
theorem eq_of_mem_pairs {m : OrderedMap κ υ} {pair pair' : κ × υ} (h : pair ∈ m.pairs)
    (h' : pair' ∈ m.pairs) (hkey : pair.1 = pair'.1) : pair = pair' := by
  have hget : m.get? pair.1 = some pair.2 := get?_eq_some_iff.2 h
  have hget' : m.get? pair'.1 = some pair'.2 := get?_eq_some_iff.2 h'
  rw [hkey, hget', Option.some.injEq] at hget
  exact Prod.ext hkey hget.symm

omit [DecidableEq κ] in
theorem mem_keys_iff {m : OrderedMap κ υ} {key : κ} :
    key ∈ m.keys ↔ ∃ value, (key, value) ∈ m.pairs := by
  unfold keys
  rw [List.mem_map]
  constructor
  · rintro ⟨pair, hmem, rfl⟩
    exact ⟨pair.2, hmem⟩
  · rintro ⟨value, hmem⟩
    exact ⟨_, hmem, rfl⟩

theorem mem_values_iff {m : OrderedMap κ υ} {value : υ} :
    value ∈ m.values ↔ ∃ key, m.get? key = some value := by
  unfold values
  rw [List.mem_map]
  constructor
  · rintro ⟨pair, hmem, rfl⟩
    exact ⟨pair.1, get?_eq_some_iff.2 hmem⟩
  · rintro ⟨key, hget⟩
    exact ⟨_, get?_eq_some_iff.1 hget, rfl⟩

omit [DecidableEq κ] in
theorem pairs_nodup (m : OrderedMap κ υ) : m.pairs.Nodup :=
  List.Pairwise.of_map Prod.fst (fun _ _ hne heq => hne (congrArg Prod.fst heq)) m.nodup

/-- Keys and values together make up the pairs. -/
theorem pairs_eq_map_keys {m : OrderedMap κ υ} {value : κ → υ}
    (h : ∀ key ∈ m.keys, m.get? key = some (value key)) :
    m.pairs = m.keys.map fun key => (key, value key) := by
  unfold keys
  rw [List.map_map]
  refine ((List.map_congr_left fun pair hpair => ?_).trans (List.map_id _)).symm
  have hvalue := h pair.1 (List.mem_map_of_mem hpair)
  rw [get?_eq_some_iff.2 hpair, Option.some.injEq] at hvalue
  exact Prod.ext rfl hvalue.symm

/-- A pair of the map after an insertion is the new one or was there before. -/
theorem pairs_insert_of_not_mem {m : OrderedMap κ υ} {key : κ} (value : υ) (h : key ∉ m.keys) :
    (m.insert key value).pairs = m.pairs ++ [(key, value)] :=
  Pairs.insert_of_not_mem value h

theorem get?_filter (m : OrderedMap κ υ) (keep : κ → υ → Bool) (key : κ) :
    (m.filter keep).get? key = (m.get? key).filter (keep key) := by
  apply Option.ext
  intro value
  rw [get?_eq_some_iff, Option.filter_eq_some_iff, get?_eq_some_iff]
  exact List.mem_filter

theorem get?_erase (m : OrderedMap κ υ) (key other : κ) :
    (m.erase key).get? other = if other = key then none else m.get? other := by
  unfold erase
  rw [get?_filter]
  by_cases h : other = key <;> cases m.get? other <;> simp [h]

theorem filter_insert (keep : κ → Bool) {key : κ} (h : keep key = true) (m : OrderedMap κ υ)
    (value : υ) :
    (m.insert key value).filter (fun k _ => keep k)
      = (m.filter fun k _ => keep k).insert key value :=
  eq_of_pairs_eq (Pairs.filter_insert keep h value m.pairs)

omit [DecidableEq κ] in
theorem filter_eq_self {m : OrderedMap κ υ} {keep : κ → υ → Bool}
    (h : ∀ pair ∈ m.pairs, keep pair.1 pair.2 = true) : m.filter keep = m :=
  eq_of_pairs_eq (List.filter_eq_self.2 h)

/-- Taking out a key that is not there changes nothing. -/
theorem erase_of_not_mem {m : OrderedMap κ υ} {key : κ} (h : key ∉ m.keys) : m.erase key = m := by
  refine filter_eq_self fun pair hpair => bne_iff_ne.2 ?_
  rintro rfl
  exact h (List.mem_map_of_mem hpair)

/-! ## §3. Maps from lists of pairs. -/

/-- The last value that a list of pairs has for a key. -/
def lastValue? (key : κ) (pairs : List (κ × υ)) : Option υ :=
  (pairs.filter fun pair => pair.1 = key).getLast?.map Prod.snd

theorem lastValue?_cons (key : κ) (pair : κ × υ) (pairs : List (κ × υ)) :
    lastValue? key (pair :: pairs)
      = (lastValue? key pairs).or (if pair.1 = key then some pair.2 else none) := by
  unfold lastValue?
  by_cases h : pair.1 = key
  · have hfilter : (pair :: pairs).filter (fun pair => decide (pair.1 = key))
        = pair :: pairs.filter fun pair => decide (pair.1 = key) := by simp [h]
    rw [hfilter, if_pos h, List.getLast?_cons, Option.map_some]
    cases (pairs.filter fun pair => decide (pair.1 = key)).getLast? <;> rfl
  · have hfilter : (pair :: pairs).filter (fun pair => decide (pair.1 = key))
        = pairs.filter fun pair => decide (pair.1 = key) := by simp [h]
    rw [hfilter, if_neg h, Option.or_none]

/-- **Of the pairs with one key the last one counts**, and what was there before only
when there are none. -/
theorem get?_insertAll (m : OrderedMap κ υ) (pairs : List (κ × υ)) (key : κ) :
    (m.insertAll pairs).get? key = (lastValue? key pairs).or (m.get? key) := by
  induction pairs generalizing m with
  | nil => rfl
  | cons pair pairs ih =>
      show ((m.insert pair.1 pair.2).insertAll pairs).get? key = _
      rw [ih, get?_insert, lastValue?_cons, Option.or_assoc]
      congr 1
      by_cases h : pair.1 = key <;> simp [h]

/-- The pairs that are inserted are the only new ones. -/
theorem mem_pairs_insertAll {m : OrderedMap κ υ} {pairs : List (κ × υ)} {pair : κ × υ}
    (h : pair ∈ (m.insertAll pairs).pairs) : pair ∈ m.pairs ∨ pair ∈ pairs := by
  have hget := get?_eq_some_iff.2 h
  rw [get?_insertAll, Option.or_eq_some_iff] at hget
  rcases hget with hlast | ⟨-, hold⟩
  · unfold lastValue? at hlast
    rw [Option.map_eq_some_iff] at hlast
    obtain ⟨found, hfound, hvalue⟩ := hlast
    obtain ⟨hmem, hkey⟩ := List.mem_filter.1 (List.mem_of_getLast? hfound)
    have hpair : found = pair := Prod.ext (of_decide_eq_true hkey) hvalue
    exact Or.inr (hpair ▸ hmem)
  · exact Or.inl (get?_eq_some_iff.1 hold)

theorem get?_ofList (pairs : List (κ × υ)) (key : κ) :
    (ofList pairs).get? key = lastValue? key pairs := by
  unfold ofList
  rw [get?_insertAll, get?_empty, Option.or_none]

/-- Pairs with new and different keys are added at the end as they are. -/
theorem pairs_insertAll {m : OrderedMap κ υ} {pairs : List (κ × υ)}
    (hnodup : (pairs.map Prod.fst).Nodup) (hnew : ∀ pair ∈ pairs, pair.1 ∉ m.keys) :
    (m.insertAll pairs).pairs = m.pairs ++ pairs := by
  induction pairs generalizing m with
  | nil => exact (List.append_nil _).symm
  | cons pair pairs ih =>
      rw [List.map_cons, List.nodup_cons] at hnodup
      rw [List.forall_mem_cons] at hnew
      have hpairs := pairs_insert_of_not_mem pair.2 hnew.1
      have hrest : ∀ other ∈ pairs, other.1 ∉ (m.insert pair.1 pair.2).keys := by
        intro other hother hkey
        rw [keys_insert, if_neg hnew.1, List.mem_append, List.mem_singleton] at hkey
        rcases hkey with hkey | hkey
        · exact hnew.2 other hother hkey
        · exact hnodup.1 (hkey ▸ List.mem_map.2 ⟨other, hother, rfl⟩)
      show ((m.insert pair.1 pair.2).insertAll pairs).pairs = _
      rw [ih hnodup.2 hrest, hpairs, List.append_assoc]
      rfl

theorem ofList_append (pairs pairs' : List (κ × υ)) :
    ofList (pairs ++ pairs') = (ofList pairs).insertAll pairs' :=
  List.foldl_append

theorem ofList_concat (pairs : List (κ × υ)) (pair : κ × υ) :
    ofList (pairs ++ [pair]) = (ofList pairs).insert pair.1 pair.2 :=
  ofList_append pairs [pair]

/-- A list is left with the first of each when a new element at its end counts only once. -/
theorem eraseDups_concat (keys : List κ) (key : κ) :
    (keys ++ [key]).eraseDups
      = if key ∈ keys then keys.eraseDups else keys.eraseDups ++ [key] := by
  rw [List.eraseDups_append]
  by_cases h : key ∈ keys <;> simp [h, List.removeAll, List.eraseDups_cons]

theorem nodup_eraseDups (keys : List κ) : keys.eraseDups.Nodup := by
  induction keys using List.reverseRecOn with
  | nil => exact List.nodup_nil
  | append_singleton keys key ih =>
      rw [eraseDups_concat]
      split
      next => exact ih
      next h =>
        refine List.nodup_append.2 ⟨ih, List.pairwise_singleton _ key, ?_⟩
        rintro other hother last hlast rfl
        rw [List.mem_singleton.1 hlast, List.mem_eraseDups] at hother
        exact h hother

theorem eraseDups_eq_self {keys : List κ} (h : keys.Nodup) : keys.eraseDups = keys := by
  induction keys using List.reverseRecOn with
  | nil => rfl
  | append_singleton keys key ih =>
      obtain ⟨hkeys, -, hdisjoint⟩ := List.nodup_append.1 h
      have hnew : key ∉ keys := fun hmem => hdisjoint key hmem key (List.mem_singleton_self key) rfl
      rw [eraseDups_concat, if_neg hnew, ih hkeys]

/-- **Keys that are set one after the other stand where they came first.** -/
theorem keys_foldl {α : Type} {step : OrderedMap κ υ → α → OrderedMap κ υ} {name : α → κ}
    (hstep : ∀ m a, (step m a).keys = if name a ∈ m.keys then m.keys else m.keys ++ [name a])
    (m : OrderedMap κ υ) (list : List α) :
    (list.foldl step m).keys = (m.keys ++ list.map name).eraseDups := by
  -- an element at the end brings its key only if no element before has it
  induction list using List.reverseRecOn with
  | nil => rw [List.map_nil, List.append_nil, eraseDups_eq_self m.keys_nodup, List.foldl_nil]
  | append_singleton list a ih =>
      rw [List.foldl_append, List.foldl_cons, List.foldl_nil, hstep, ih, List.map_append,
        List.map_singleton, ← List.append_assoc, eraseDups_concat]
      simp only [List.mem_eraseDups]

theorem keys_insertAll (m : OrderedMap κ υ) (pairs : List (κ × υ)) :
    (m.insertAll pairs).keys = (m.keys ++ pairs.map Prod.fst).eraseDups :=
  keys_foldl (fun m pair => keys_insert m pair.1 pair.2) m pairs

/-- Different keys are added behind those that are there, without those that are there already. -/
theorem keys_insertAll_of_nodup {m : OrderedMap κ υ} {pairs : List (κ × υ)}
    (h : (pairs.map Prod.fst).Nodup) :
    (m.insertAll pairs).keys = m.keys ++ (pairs.map Prod.fst).filter (· ∉ m.keys) := by
  have hnew : ((pairs.map Prod.fst).removeAll m.keys).Nodup := h.sublist List.filter_sublist
  rw [keys_insertAll, List.eraseDups_append, eraseDups_eq_self m.keys_nodup,
    eraseDups_eq_self hnew]
  congr 1
  refine List.filter_congr fun key _ => ?_
  simp

theorem keys_ofList (pairs : List (κ × υ)) :
    (ofList pairs).keys = (pairs.map Prod.fst).eraseDups :=
  keys_insertAll empty pairs

/-- A map is the map of its own pairs. -/
theorem ofList_pairs (m : OrderedMap κ υ) : ofList m.pairs = m := by
  apply eq_of_pairs_eq
  unfold ofList
  rw [pairs_insertAll m.nodup (by simp)]
  rfl

end OrderedMap

end MessageCatalog
