/-
  MessageCatalog.OrderedMap
  ────────────────────────────────
  **MAPS THAT KEEP THE ORDER OF THEIR KEYS.**

  A map is the list of its pairs, each key once.  A key that is set again keeps
  its place and takes the new value; a new key goes to the end; taking a key
  out leaves the order of the others alone.

  Each operation is described by what it does to `get?` and to `keys`.
-/

namespace MessageCatalog

universe u v

/-- A map that keeps the order in which its keys were first set. -/
structure OrderedMap (κ : Type u) (υ : Type v) where
  pairs : List (κ × υ)
  nodup : (pairs.map Prod.fst).Nodup
  deriving DecidableEq

variable {κ : Type u} {υ : Type v} [DecidableEq κ]

/-! ## §1. Lists of pairs. -/

namespace Pairs

/-- The pairs with `value` under `key`, in its place or at the end. -/
def insert (key : κ) (value : υ) : List (κ × υ) → List (κ × υ)
  | [] => [(key, value)]
  | pair :: rest =>
      if pair.1 = key then (key, value) :: rest else pair :: insert key value rest

/-- The value under `key`. -/
def get? (key : κ) : List (κ × υ) → Option υ
  | [] => none
  | pair :: rest => if pair.1 = key then some pair.2 else get? key rest

theorem keys_insert_of_mem {key : κ} {value : υ} {pairs : List (κ × υ)}
    (h : key ∈ pairs.map Prod.fst) :
    (insert key value pairs).map Prod.fst = pairs.map Prod.fst := by
  induction pairs with
  | nil => simp at h
  | cons pair rest ih =>
      by_cases hp : pair.1 = key
      · simp [insert, hp]
      · have hr : key ∈ rest.map Prod.fst := by
          simpa [Ne.symm hp] using h
        simpa [insert, hp] using ih hr

theorem keys_insert_of_not_mem {key : κ} {value : υ} {pairs : List (κ × υ)}
    (h : key ∉ pairs.map Prod.fst) :
    (insert key value pairs).map Prod.fst = pairs.map Prod.fst ++ [key] := by
  induction pairs with
  | nil => simp [insert]
  | cons pair rest ih =>
      have hp : pair.1 ≠ key := fun e => h (by simp [e])
      have hr : key ∉ rest.map Prod.fst := fun e => h (by simp [e])
      simpa [insert, hp] using ih hr

theorem nodup_keys_insert (key : κ) (value : υ) {pairs : List (κ × υ)}
    (h : (pairs.map Prod.fst).Nodup) : ((insert key value pairs).map Prod.fst).Nodup := by
  by_cases hk : key ∈ pairs.map Prod.fst
  · rw [keys_insert_of_mem hk]; exact h
  · rw [keys_insert_of_not_mem hk, List.nodup_append]
    refine ⟨h, by simp, ?_⟩
    rintro a ha b hb rfl
    exact hk (by simpa [List.mem_singleton.1 hb] using ha)

theorem get?_insert (key other : κ) (value : υ) (pairs : List (κ × υ)) :
    get? other (insert key value pairs) = if key = other then some value else get? other pairs := by
  induction pairs with
  | nil => simp [insert, get?]
  | cons pair rest ih =>
      by_cases hp : pair.1 = key
      · by_cases ho : key = other <;> simp [insert, get?, hp, ho]
      · rw [insert, if_neg hp, get?, get?, ih]
        by_cases hq : pair.1 = other
        · have ho : key ≠ other := fun e => hp (hq.trans e.symm)
          simp [hq, ho]
        · simp [hq]

theorem get?_eq_none_iff {key : κ} {pairs : List (κ × υ)} :
    get? key pairs = none ↔ key ∉ pairs.map Prod.fst := by
  induction pairs with
  | nil => simp [get?]
  | cons pair rest ih =>
      by_cases hp : pair.1 = key
      · simp [get?, hp]
      · simp only [get?, hp, if_false, ih, List.map_cons, List.mem_cons, not_or]
        exact ⟨fun h => ⟨fun e => hp e.symm, h⟩, And.right⟩

end Pairs

/-! ## §2. Maps. -/

namespace OrderedMap

/-- The map without any pair. -/
def empty : OrderedMap κ υ :=
  ⟨[], List.nodup_nil⟩

instance : Inhabited (OrderedMap κ υ) :=
  ⟨empty⟩

/-- The map with `value` under `key`. -/
def insert (m : OrderedMap κ υ) (key : κ) (value : υ) : OrderedMap κ υ :=
  ⟨Pairs.insert key value m.pairs, Pairs.nodup_keys_insert key value m.nodup⟩

/-- The value under `key`. -/
def get? (m : OrderedMap κ υ) (key : κ) : Option υ :=
  Pairs.get? key m.pairs

/-- Whether there is a value under `key`. -/
def contains (m : OrderedMap κ υ) (key : κ) : Bool :=
  (m.get? key).isSome

/-- The keys, in order. -/
def keys (m : OrderedMap κ υ) : List κ :=
  m.pairs.map Prod.fst

/-- The values, in the order of their keys. -/
def values (m : OrderedMap κ υ) : List υ :=
  m.pairs.map Prod.snd

/-- The number of pairs. -/
def size (m : OrderedMap κ υ) : Nat :=
  m.pairs.length

/-- Whether there is no pair. -/
def isEmpty (m : OrderedMap κ υ) : Bool :=
  m.pairs.isEmpty

/-- The map with only those pairs that `keep` holds of. -/
def filter (m : OrderedMap κ υ) (keep : κ → υ → Bool) : OrderedMap κ υ :=
  ⟨m.pairs.filter fun pair => keep pair.1 pair.2,
    m.nodup.sublist (List.filter_sublist.map Prod.fst)⟩

/-- The map without `key`. -/
def erase (m : OrderedMap κ υ) (key : κ) : OrderedMap κ υ :=
  m.filter fun k _ => k != key

/-- The pairs of a list, inserted one after the other. -/
def insertAll (m : OrderedMap κ υ) (pairs : List (κ × υ)) : OrderedMap κ υ :=
  pairs.foldl (fun m pair => m.insert pair.1 pair.2) m

/-- The map of a list of pairs; of two pairs with one key the later one counts. -/
def ofList (pairs : List (κ × υ)) : OrderedMap κ υ :=
  empty.insertAll pairs

/-! ## §3. What the operations do. -/

@[simp] theorem get?_empty (key : κ) : (empty : OrderedMap κ υ).get? key = none := rfl

omit [DecidableEq κ] in
@[simp] theorem keys_empty : (empty : OrderedMap κ υ).keys = [] := rfl

theorem get?_insert (m : OrderedMap κ υ) (key other : κ) (value : υ) :
    (m.insert key value).get? other = if key = other then some value else m.get? other :=
  Pairs.get?_insert key other value m.pairs

theorem keys_insert (m : OrderedMap κ υ) (key : κ) (value : υ) :
    (m.insert key value).keys = if key ∈ m.keys then m.keys else m.keys ++ [key] := by
  by_cases h : key ∈ m.keys
  · rw [if_pos h]; exact Pairs.keys_insert_of_mem h
  · rw [if_neg h]; exact Pairs.keys_insert_of_not_mem h

theorem get?_eq_none_iff {m : OrderedMap κ υ} {key : κ} : m.get? key = none ↔ key ∉ m.keys :=
  Pairs.get?_eq_none_iff

omit [DecidableEq κ] in
theorem keys_nodup (m : OrderedMap κ υ) : m.keys.Nodup :=
  m.nodup

end OrderedMap

end MessageCatalog
