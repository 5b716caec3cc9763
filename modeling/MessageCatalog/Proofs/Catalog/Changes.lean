/-
  MessageCatalog.Proofs.Catalog.Changes
  ────────────────────────────────
  **A DICTIONARY REMEMBERS THE LAST OF EACH.**

  A dictionary is made by merging catalogs into it, inserting entries and clearing it, in
  any order.  What is in it can be told from these changes alone, and only those count that
  came after it was cleared last:

      merge a    clear    merge b    insert Yes    merge a
                        └──────────────────────────────────┘

  Every key stands where it was inserted first and has the entry that was inserted with it
  last, also if that is an entry of another source.  Headers are kept apart for each source,
  and in them the value of a key is the last one that was merged.

  One change keeps this account (`remembers_apply`), so every history does
  (`remembers_after`).
-/
import Mathlib.Data.List.DropRight
import Mathlib.Data.List.Induction
import MessageCatalog.Proofs.Mo.Searching

namespace MessageCatalog

/-! ## §1. Headers laid over each other. -/

namespace Metadata

/-- Headers laid over each other in order, if there are any. -/
def laidOver : List Metadata → Option Metadata
  | [] => none
  | headers => some (headers.foldl merge .empty)

theorem laidOver_concat (headers : List Metadata) (m : Metadata) :
    laidOver (headers ++ [m]) = some (((laidOver headers).getD .empty).merge m) := by
  cases headers with
  | nil => rfl
  | cons first headers =>
      show some ((first :: headers ++ [m]).foldl merge .empty) = _
      rw [List.foldl_append]
      rfl

theorem laidOver_eq_none_iff {headers : List Metadata} : laidOver headers = none ↔ headers = [] := by
  cases headers <;> simp [laidOver]

theorem values_foldl_merge (m : Metadata) (headers : List Metadata) :
    (headers.foldl merge m).values = m.values.insertAll (headers.flatMap fun h => h.values.pairs) := by
  induction headers generalizing m with
  | nil => rfl
  | cons first headers ih =>
      rw [List.foldl_cons, ih, List.flatMap_cons]
      exact List.foldl_append.symm

/-- **Of the values that headers have for a key the last one counts.** -/
theorem get?_laidOver (headers : List Metadata) (key : String) :
    (laidOver headers).bind (fun m => m.get? key)
      = OrderedMap.lastValue? key (headers.flatMap fun h => h.values.pairs) := by
  cases headers with
  | nil => rfl
  | cons first headers =>
      show ((first :: headers).foldl merge .empty).values.get? key = _
      rw [values_foldl_merge]
      exact OrderedMap.get?_ofList _ key

end Metadata

namespace Dictionary

/-! ## §2. Changes. -/

/-- What can be done to a dictionary. -/
inductive Change where
  | merge (c : Catalog)
  | insert (e : Entry)
  | clear

namespace Change

/-- Whether a change clears the dictionary. -/
def clears : Change → Bool
  | .clear => true
  | .merge _ | .insert _ => false

/-- The entries that a change inserts, in order. -/
def entries : Change → List Entry
  | .merge c => c.entries
  | .insert e => [e]
  | .clear => []

/-- The header that a change merges for a source. -/
def header? (source : String) : Change → Option Metadata
  | .merge c => if c.source = source then c.metadata else none
  | .insert _ | .clear => none

end Change

/-- The dictionary after a change. -/
def apply (d : Dictionary) : Change → Dictionary
  | .merge c => d.merge c
  | .insert e => d.insert e
  | .clear => .empty

/-- The dictionary after changes, empty before them. -/
def after (changes : List Change) : Dictionary :=
  changes.foldl apply .empty

theorem after_concat (changes : List Change) (change : Change) :
    after (changes ++ [change]) = (after changes).apply change :=
  List.foldl_append

/-! ## §3. The changes that count. -/

/-- The changes since the dictionary was cleared last. -/
def sinceClear (changes : List Change) : List Change :=
  changes.rtakeWhile fun change => !change.clears

/-- The entries that were inserted since then, in order. -/
def inserted (changes : List Change) : List Entry :=
  (sinceClear changes).flatMap Change.entries

/-- The headers that were merged for a source since then, in order. -/
def headersMerged (source : String) (changes : List Change) : List Metadata :=
  (sinceClear changes).filterMap (Change.header? source)

theorem sinceClear_concat (changes : List Change) (change : Change) :
    sinceClear (changes ++ [change])
      = if change.clears then [] else sinceClear changes ++ [change] := by
  unfold sinceClear
  rw [List.rtakeWhile_concat]
  cases change.clears <;> rfl

theorem inserted_concat (changes : List Change) (change : Change) :
    inserted (changes ++ [change])
      = if change.clears then [] else inserted changes ++ change.entries := by
  unfold inserted
  rw [sinceClear_concat]
  cases change.clears <;> simp

theorem headersMerged_concat (source : String) (changes : List Change) (change : Change) :
    headersMerged source (changes ++ [change])
      = if change.clears then []
        else headersMerged source changes ++ (change.header? source).toList := by
  unfold headersMerged
  rw [sinceClear_concat]
  cases change.clears with
  | true => rfl
  | false => cases h : change.header? source <;> simp [h]

/-! ## §4. What a history leaves. -/

/-- A dictionary has what changes have left: their entries as a map, and for each source the
headers that they merged, laid over each other. -/
structure Remembers (changes : List Change) (d : Dictionary) : Prop where
  entries : d.entries = .ofList ((inserted changes).map Entry.keyed)
  headers : ∀ source, d.metadataOf? source = Metadata.laidOver (headersMerged source changes)

theorem entries_merge (d : Dictionary) (c : Catalog) :
    (d.merge c).entries = d.entries.insertAll (c.entries.map Entry.keyed) := by
  unfold merge
  rw [entries_foldl_insert]
  cases c.metadata <;> rfl

section Steps

variable {changes : List Change} {d : Dictionary}

theorem Remembers.merge (h : Remembers changes d) (c : Catalog) :
    Remembers (changes ++ [.merge c]) (d.merge c) where
  entries := by
    rw [entries_merge, h.entries, inserted_concat, ← OrderedMap.ofList_append, ← List.map_append]
    rfl
  headers source := by
    rw [metadataOf?_merge, h.headers, headersMerged_concat]
    show _ = Metadata.laidOver
      (headersMerged source changes ++ (if c.source = source then c.metadata else none).toList)
    by_cases hsource : c.source = source
    · rw [if_pos hsource, if_pos hsource]
      cases c.metadata with
      | none => exact (congrArg Metadata.laidOver (List.append_nil _)).symm
      | some m => exact (Metadata.laidOver_concat _ m).symm
    · rw [if_neg hsource, if_neg hsource, Option.toList_none, List.append_nil]

theorem Remembers.insert (h : Remembers changes d) (e : Entry) :
    Remembers (changes ++ [.insert e]) (d.insert e) where
  entries := by
    show d.entries.insert e.key e = _
    rw [h.entries, inserted_concat]
    show _ = OrderedMap.ofList ((inserted changes ++ [e]).map Entry.keyed)
    rw [List.map_append, List.map_singleton, OrderedMap.ofList_concat]
    rfl
  headers source := by
    rw [headersMerged_concat]
    show d.metadataOf? source = Metadata.laidOver (headersMerged source changes ++ [])
    rw [List.append_nil]
    exact h.headers source

theorem remembers_clear (changes : List Change) : Remembers (changes ++ [.clear]) .empty where
  entries := by
    rw [inserted_concat]
    rfl
  headers source := by
    rw [headersMerged_concat]
    rfl

/-- **A change keeps the account of what is in the dictionary.** -/
theorem remembers_apply (h : Remembers changes d) (change : Change) :
    Remembers (changes ++ [change]) (d.apply change) := by
  cases change with
  | merge c => exact h.merge c
  | insert e => exact h.insert e
  | clear => exact remembers_clear changes

end Steps

theorem remembers_after (changes : List Change) : Remembers changes (after changes) := by
  -- the last change decides, so the changes are taken from the end
  induction changes using List.reverseRecOn with
  | nil => exact ⟨rfl, fun _ => rfl⟩
  | append_singleton changes change ih =>
      rw [after_concat]
      exact remembers_apply ih change

/-! ## §5. Entries and their sources. -/

/-- Every entry is stored under its own key. -/
theorem pairs_eq_map_keyed (d : Dictionary) : d.entries.pairs = d.toList.map Entry.keyed := by
  unfold toList OrderedMap.values
  rw [List.map_map]
  refine (List.map_congr_left fun pair hpair => ?_).trans (List.map_id _) |>.symm
  exact Prod.ext (d.keyed pair hpair) rfl

/-- The entries of a source, sorted, are the same entries with keys that increase strictly. -/
theorem sortedEntriesFor_spec (d : Dictionary) (source : String) :
    (d.sortedEntriesFor source).Perm (d.entriesFor source)
      ∧ (d.sortedEntriesFor source).Pairwise fun e e' => e.keyBytes < e'.keyBytes :=
  ⟨List.mergeSort_perm _ _, Mo.keyBytes_lt_mergeSort (d.nodup_keys_entriesFor source)⟩

/-- The entries of all sources together are the entries. -/
theorem perm_flatMap_entriesFor (d : Dictionary) :
    ((d.toList.map Entry.source).eraseDups.flatMap d.entriesFor).Perm d.toList := by
  have hunder : d.entriesFor = fun source => under Entry.source source d.toList := by
    funext source
    exact List.filter_congr fun e _ => beq_eq_decide e.source source
  rw [hunder]
  refine perm_flatMap_under (OrderedMap.nodup_eraseDups _) fun e he => ?_
  exact List.mem_eraseDups.2 (List.mem_map_of_mem he)

/-- **A dictionary is an ordered map in which the last write wins.**  After any changes, a key has
the entry that was inserted with it last since the dictionary was cleared; every entry is stored
under its own key, and the keys stand where they were inserted first since then.  The header of a
source has for each of its keys the value that was merged last, and there is one exactly if one was
merged.  The entries of a source are sorted strictly by the bytes of their keys, none lost or
added, and the entries of all sources together are the entries. -/
theorem last_write_wins (changes : List Change) :
    (∀ key, (after changes).get? key = lastUnder? key (inserted changes))
      ∧ (after changes).entries.pairs = (after changes).toList.map Entry.keyed
      ∧ (after changes).toList.map Entry.key = ((inserted changes).map Entry.key).eraseDups
      ∧ (∀ source, (after changes).metadataOf? source = none ↔ headersMerged source changes = [])
      ∧ (∀ source header, ((after changes).metadataOf? source).bind (fun m => m.get? header)
          = OrderedMap.lastValue? header
              ((headersMerged source changes).flatMap fun m => m.values.pairs))
      ∧ (∀ source, ((after changes).sortedEntriesFor source).Perm ((after changes).entriesFor source)
          ∧ ((after changes).sortedEntriesFor source).Pairwise fun e e' => e.keyBytes < e'.keyBytes)
      ∧ (((after changes).toList.map Entry.source).eraseDups.flatMap (after changes).entriesFor).Perm
          (after changes).toList := by
  have h := remembers_after changes
  refine ⟨fun key => ?_, pairs_eq_map_keyed _, ?_, fun source => ?_, fun source header => ?_,
    sortedEntriesFor_spec _, perm_flatMap_entriesFor _⟩
  · unfold get?
    rw [h.entries, OrderedMap.get?_ofList, lastValue?_map_keyed]
  · rw [keys_toList, h.entries, OrderedMap.keys_ofList, List.map_map]
    rfl
  · rw [h.headers]
    exact Metadata.laidOver_eq_none_iff
  · rw [h.headers]
    exact Metadata.get?_laidOver _ header

/-- A key that another source takes over keeps its place; what was before the clearing is gone. -/
example :
    (after [.insert ⟨["Old"], ["Stary"], "a"⟩, .clear, .insert ⟨["Yes"], ["Ano"], "a"⟩,
      .insert ⟨["No"], ["Ne"], "a"⟩, .merge ⟨"b", [⟨["Yes"], ["Jo"], "b"⟩], none⟩]).toList
      = [⟨["Yes"], ["Jo"], "b"⟩, ⟨["No"], ["Ne"], "a"⟩] := by
  decide +kernel

end Dictionary

end MessageCatalog
