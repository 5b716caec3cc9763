/-
  MessageCatalog.Proofs.Catalog.Merging
  ────────────────────────────────
  **WHICH ENTRY A MERGED DICTIONARY HAS.**

  Catalogs are laid over each other, so what a dictionary has under a key is the last
  entry with this key in the last catalog that has one (`get?_foldl_merge`).  Headers
  of different sources do not meet (`metadataOf?_foldl_merge`).  In the other
  direction, the entries of a source that a dictionary gives out are those it has
  under their keys, each of them once (`under_entriesFor`).
-/
import MessageCatalog.Catalog.Dictionary
import MessageCatalog.Proofs.OrderedMap
import MessageCatalog.Proofs.StableSort

namespace MessageCatalog

/-! ## §1. The last entry under a key. -/

/-- The last of the entries with a key. -/
def lastUnder? (key : String) (entries : List Entry) : Option Entry :=
  (under Entry.key key entries).getLast?

theorem mem_of_lastUnder? {key : String} {entries : List Entry} {e : Entry}
    (h : lastUnder? key entries = some e) : e ∈ entries ∧ e.key = key :=
  mem_under_iff.1 (List.mem_of_getLast? h)

/-- A change of entries that leaves their keys alone changes the last one like the others. -/
theorem lastUnder?_map {f : Entry → Entry} {key : String} {entries : List Entry}
    (h : ∀ e ∈ entries, (f e).key = e.key) :
    lastUnder? key (entries.map f) = (lastUnder? key entries).map f := by
  have hfilter : entries.filter ((fun e => decide (e.key = key)) ∘ f)
      = entries.filter fun e => decide (e.key = key) := by
    refine List.filter_congr fun e he => ?_
    rw [Function.comp_apply, h e he]
  unfold lastUnder? under
  rw [List.filter_map, hfilter, List.getLast?_map]

/-- The key of an entry and the entry, as a pair of a map. -/
def Entry.keyed (e : Entry) : String × Entry :=
  (e.key, e)

theorem lastValue?_map_keyed (key : String) (entries : List Entry) :
    OrderedMap.lastValue? key (entries.map Entry.keyed) = lastUnder? key entries := by
  unfold OrderedMap.lastValue? lastUnder? under
  rw [List.filter_map, List.getLast?_map, Option.map_map]
  exact Option.map_id'

namespace Dictionary

/-! ## §2. Inserting and merging. -/

theorem get?_insert (d : Dictionary) (e : Entry) (key : String) :
    (d.insert e).get? key = if e.key = key then some e else d.get? key :=
  OrderedMap.get?_insert d.entries e.key key e

theorem entries_foldl_insert (d : Dictionary) (entries : List Entry) :
    (entries.foldl insert d).entries = d.entries.insertAll (entries.map Entry.keyed) := by
  induction entries generalizing d with
  | nil => rfl
  | cons e entries ih =>
      rw [List.foldl_cons, ih]
      rfl

theorem metadata_foldl_insert (d : Dictionary) (entries : List Entry) :
    (entries.foldl insert d).metadata = d.metadata := by
  induction entries generalizing d with
  | nil => rfl
  | cons e entries ih =>
      rw [List.foldl_cons, ih]
      rfl

theorem get?_foldl_insert (d : Dictionary) (entries : List Entry) (key : String) :
    (entries.foldl insert d).get? key = (lastUnder? key entries).or (d.get? key) := by
  unfold get?
  rw [entries_foldl_insert, OrderedMap.get?_insertAll, lastValue?_map_keyed]

theorem get?_merge (d : Dictionary) (c : Catalog) (key : String) :
    (d.merge c).get? key = (lastUnder? key c.entries).or (d.get? key) := by
  unfold merge
  rw [get?_foldl_insert]
  cases c.metadata <;> rfl

/-- **The last catalog that has an entry under a key decides.** -/
theorem get?_foldl_merge (d : Dictionary) (catalogs : List Catalog) (key : String) :
    (catalogs.foldl merge d).get? key
      = (catalogs.reverse.findSome? fun c => lastUnder? key c.entries).or (d.get? key) := by
  induction catalogs generalizing d with
  | nil => rfl
  | cons c catalogs ih =>
      rw [List.foldl_cons, ih, get?_merge, List.reverse_cons, List.findSome?_append,
        List.findSome?_singleton, Option.or_assoc]

/-! ## §3. Headers. -/

theorem metadataOf?_merge (d : Dictionary) (c : Catalog) (source : String) :
    (d.merge c).metadataOf? source
      = if c.source = source then
          match c.metadata with
          | some m => some (((d.metadataOf? source).getD .empty).merge m)
          | none => d.metadataOf? source
        else d.metadataOf? source := by
  unfold merge metadataOf?
  rw [metadata_foldl_insert]
  cases c.metadata with
  | none => simp
  | some m =>
      show (d.metadata.insert c.source _).get? source = _
      rw [OrderedMap.get?_insert]
      by_cases h : c.source = source
      · subst h
        simp
      · simp [h]

variable {d : Dictionary}

theorem key_of_get? {key : String} {e : Entry} (h : d.get? key = some e) : e.key = key :=
  d.keyed _ (OrderedMap.get?_eq_some_iff.1 h)

theorem mem_toList_iff {e : Entry} : e ∈ d.toList ↔ d.get? e.key = some e := by
  unfold toList
  rw [OrderedMap.mem_values_iff]
  constructor
  · rintro ⟨key, h⟩
    have hkey : e.key = key := key_of_get? h
    subst hkey
    exact h
  · intro h
    exact ⟨e.key, h⟩

theorem keys_toList (d : Dictionary) : d.toList.map Entry.key = d.entries.keys := by
  unfold toList OrderedMap.values OrderedMap.keys
  rw [List.map_map]
  exact List.map_congr_left fun pair h => d.keyed pair h

/-- A dictionary has each entry once. -/
theorem under_toList (key : String) : under Entry.key key d.toList = (d.get? key).toList := by
  cases h : d.get? key with
  | none =>
      apply under_eq_nil
      rw [keys_toList]
      exact OrderedMap.get?_eq_none_iff.1 h
  | some e =>
      have hkey : e.key = key := key_of_get? h
      subst hkey
      apply under_eq_singleton
      · rw [keys_toList]
        exact d.entries.keys_nodup
      · exact mem_toList_iff.2 h

/-- The entries of a source are those that the dictionary has of it, each once. -/
theorem under_entriesFor (key source : String) :
    under Entry.key key (d.entriesFor source)
      = ((d.get? key).filter fun e => e.source == source).toList := by
  unfold entriesFor
  rw [under_filter, under_toList]
  cases d.get? key with
  | none => rfl
  | some e =>
      cases h : e.source == source <;> simp [Option.filter, h]

/-- No two entries of a source have one key. -/
theorem nodup_keys_entriesFor (d : Dictionary) (source : String) :
    ((d.entriesFor source).map Entry.key).Nodup := by
  have hsub : ((d.entriesFor source).map Entry.key).Sublist (d.toList.map Entry.key) :=
    List.filter_sublist.map Entry.key
  rw [keys_toList] at hsub
  exact hsub.nodup d.entries.keys_nodup

/-- In whichever order the entries of a source are, they say the same about a key. -/
theorem lastUnder?_of_perm_entriesFor {entries : List Entry} {source : String}
    (h : entries.Perm (d.entriesFor source)) (key : String) :
    lastUnder? key entries = (d.get? key).filter fun e => e.source == source := by
  unfold lastUnder?
  rw [under_eq_of_perm (d.nodup_keys_entriesFor source) h, under_entriesFor]
  cases (d.get? key).filter fun e => e.source == source <;> rfl

end Dictionary

end MessageCatalog
