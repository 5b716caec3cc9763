/-
  MessageCatalog.Proofs.Translator.Tables
  ────────────────────────────────
  **WHAT THE TABLES OF STRINGS SHOW.**

  A table for one source has first what is pending, and behind it, in the order of the
  dictionary, what the source has besides.  Each key stands in it once, with the translations
  of this source, and without any if the source has none (`pairs_overlay`):

      pending      Dog, Cat           Dog    —
      dictionary   Hello  b           Cat    Kocka
                   Cat    a           Bye    Cau
                   Bye    a

  Side by side, each source has a table of what it has itself, and what is pending is shown
  under a name of its own, before all of them.  Every entry is then in one table, that of its
  source (`perm_translatedRows`).  A source of the same name as what is pending has no table
  of its own: what it has is mixed with what is pending (`mixed_of_groupedStrings`).
-/
import Mathlib.Data.List.Nodup
import MessageCatalog.Proofs.Session.Recorded
import MessageCatalog.Proofs.Translator.Handover

namespace MessageCatalog

open MessageCatalog.Text Tracker.Call

/-! ## §1. Rows. -/

namespace Dictionary

/-- The translations that a source has of a message. -/
def translationIn? (d : Dictionary) (source key : String) : Option (List String) :=
  ((d.get? key).filter fun e => e.source == source).map Entry.translation

/-- The keys that a source has, in the order of the dictionary, without blank ones. -/
def ownKeys (d : Dictionary) (source : String) : List String :=
  d.entries.keys.filter fun key => !isBlank key && (d.translationIn? source key).isSome

/-- The rows of a source behind keys that wait: these keys, and then all others that the source
has, each with the translations of the source. -/
def rows (d : Dictionary) (waiting : List String) (source : String) :
    List (String × Option (List String)) :=
  (waiting ++ (d.ownKeys source).filter (· ∉ waiting)).map fun key =>
    (key, d.translationIn? source key)

/-- The sources of shown entries that are not among the given ones and not what is pending, in
the order of the dictionary. -/
def otherSources (d : Dictionary) (registered : List String) : List String :=
  (((Translator.shownEntries d).map Entry.source).filter fun source =>
    source ∉ newStringsKey :: registered).eraseDups

theorem translationIn?_eq_some_iff {d : Dictionary} {source key : String} {forms : List String} :
    d.translationIn? source key = some forms
      ↔ ∃ e, d.get? key = some e ∧ e.source = source ∧ e.translation = forms := by
  unfold translationIn?
  rw [Option.map_eq_some_iff]
  simp only [Option.filter_eq_some_iff, beq_iff_eq, and_assoc]

theorem mem_ownKeys_iff {d : Dictionary} {source key : String} :
    key ∈ d.ownKeys source ↔ isBlank key = false ∧ (d.translationIn? source key).isSome := by
  unfold ownKeys
  rw [List.mem_filter, Bool.and_eq_true, Bool.not_eq_true']
  refine and_iff_right_of_imp fun ⟨_, hsome⟩ => ?_
  obtain ⟨forms, hforms⟩ := Option.isSome_iff_exists.1 hsome
  obtain ⟨e, he, -, -⟩ := translationIn?_eq_some_iff.1 hforms
  exact OrderedMap.mem_keys_iff.2 ⟨e, OrderedMap.get?_eq_some_iff.1 he⟩

end Dictionary

namespace Translator

/-- The entries that are shown of a source. -/
def shownIn (d : Dictionary) (source : String) : List Entry :=
  (shownEntries d).filter fun e => e.source == source

/-- The row of an entry. -/
def rowOf (e : Entry) : String × Option (List String) :=
  (e.key, some e.translation)

section Rows

variable {d : Dictionary} {source : String}

theorem mem_shownEntries_iff {e : Entry} :
    e ∈ shownEntries d ↔ d.get? e.key = some e ∧ isBlank e.key = false := by
  unfold shownEntries
  rw [List.mem_filter, Dictionary.mem_toList_iff, Bool.not_eq_true']

theorem nodup_keys_shownEntries (d : Dictionary) : ((shownEntries d).map Entry.key).Nodup := by
  have hkeys : ((shownEntries d).map Entry.key).Sublist (d.toList.map Entry.key) :=
    List.filter_sublist.map Entry.key
  rw [Dictionary.keys_toList] at hkeys
  exact d.entries.keys_nodup.sublist hkeys

/-- Which entries are shown of a source is told from their keys. -/
theorem keys_shownIn (d : Dictionary) (source : String) :
    (shownIn d source).map Entry.key = d.ownKeys source := by
  unfold shownIn shownEntries Dictionary.ownKeys
  rw [← Dictionary.keys_toList, List.filter_map, List.filter_filter]
  congr 1
  refine List.filter_congr fun e he => ?_
  unfold Dictionary.translationIn?
  rw [Function.comp_apply, Dictionary.mem_toList_iff.1 he, Bool.and_comm]
  cases hsource : e.source == source <;> simp [Option.filter, hsource]

theorem lastValue?_rows {key : String} (hblank : isBlank key = false) :
    OrderedMap.lastValue? key ((shownIn d source).map rowOf)
      = (d.translationIn? source key).map some := by
  have hunder : under Entry.key key (shownIn d source)
      = ((d.get? key).filter fun e => e.source == source).toList := by
    unfold shownIn shownEntries
    rw [under_filter, under_filter, Dictionary.under_toList]
    cases hget : d.get? key with
    | none => rfl
    | some e =>
        have hkey := Dictionary.key_of_get? hget
        cases hsource : e.source == source <;> simp [Option.filter, hkey, hblank, hsource]
  unfold OrderedMap.lastValue? Dictionary.translationIn?
  rw [List.filter_map, List.getLast?_map, Option.map_map, Option.map_map]
  show (under Entry.key key (shownIn d source)).getLast?.map _ = _
  rw [hunder]
  cases (d.get? key).filter fun e => e.source == source <;> rfl

/-- **What a source has, laid over what waits**: every key keeps its place, and has the
translations of the source. -/
theorem pairs_overlay {base : StringTable} {waiting : List String}
    (hblank : ∀ key ∈ waiting, isBlank key = false)
    (hbase : base.pairs = waiting.map fun key => (key, none)) (source : String) :
    ((shownIn d source).foldl addEntry base).pairs = d.rows waiting source := by
  have hfold : (shownIn d source).foldl addEntry base
      = base.insertAll ((shownIn d source).map rowOf) := by
    unfold OrderedMap.insertAll
    rw [List.foldl_map]
    rfl
  have hwaiting : base.keys = waiting := by
    unfold OrderedMap.keys
    rw [hbase, List.map_map]
    exact List.map_id _
  have hown : ((shownIn d source).map rowOf).map Prod.fst = d.ownKeys source := by
    rw [List.map_map]
    exact keys_shownIn d source
  have hdistinct : (d.ownKeys source).Nodup := d.entries.keys_nodup.sublist List.filter_sublist
  have hkeys : (base.insertAll ((shownIn d source).map rowOf)).keys
      = waiting ++ (d.ownKeys source).filter (· ∉ waiting) := by
    rw [OrderedMap.keys_insertAll_of_nodup (by rw [hown]; exact hdistinct), hown, hwaiting]
  have hvalue : ∀ key ∈ (base.insertAll ((shownIn d source).map rowOf)).keys,
      (base.insertAll ((shownIn d source).map rowOf)).get? key
        = some (d.translationIn? source key) := by
    intro key hkey
    rw [hkeys, List.mem_append, List.mem_filter, Dictionary.mem_ownKeys_iff] at hkey
    have hkeyBlank : isBlank key = false := hkey.elim (hblank key) fun h => h.1.1
    rw [OrderedMap.get?_insertAll, lastValue?_rows hkeyBlank]
    cases htranslation : d.translationIn? source key with
    | some forms => rfl
    | none =>
        -- a key without a translation is one that waits
        have hmem : key ∈ waiting := hkey.resolve_right fun h => by simp [htranslation] at h
        show base.get? key = some none
        rw [OrderedMap.get?_eq_some_iff, hbase]
        exact List.mem_map.2 ⟨key, hmem, rfl⟩
  rw [hfold, OrderedMap.pairs_eq_map_keys hvalue, hkeys]
  rfl

theorem pairs_pendingTable (pending : PendingStrings) :
    (pendingTable pending).pairs = pending.keys.map fun key => (key, none) := by
  have hkeys : (pending.keys.map fun key => (key, (none : Option (List String)))).map Prod.fst
      = pending.keys := by
    rw [List.map_map]
    exact List.map_id _
  unfold pendingTable OrderedMap.ofList
  rw [OrderedMap.pairs_insertAll (by rw [hkeys]; exact pending.keys_nodup) (by simp)]
  rfl

theorem mem_rows_some_iff {waiting : List String} (hblank : ∀ key ∈ waiting, isBlank key = false)
    {key : String} {forms : List String} :
    (key, some forms) ∈ d.rows waiting source
      ↔ isBlank key = false ∧ d.translationIn? source key = some forms := by
  unfold Dictionary.rows
  rw [List.mem_map]
  constructor
  · rintro ⟨key', hkey, heq⟩
    obtain ⟨rfl, hforms⟩ := Prod.ext_iff.1 heq
    rw [List.mem_append, List.mem_filter, Dictionary.mem_ownKeys_iff] at hkey
    exact ⟨hkey.elim (hblank key') fun h => h.1.1, hforms⟩
  · rintro ⟨hkey, hforms⟩
    refine ⟨key, ?_, by rw [hforms]⟩
    rw [List.mem_append, List.mem_filter, Dictionary.mem_ownKeys_iff, hforms]
    by_cases hmem : key ∈ waiting
    · exact Or.inl hmem
    · exact Or.inr ⟨⟨hkey, rfl⟩, by simpa using hmem⟩

theorem mem_rows_none_iff {waiting : List String} {key : String} :
    (key, none) ∈ d.rows waiting source ↔ key ∈ waiting ∧ d.translationIn? source key = none := by
  unfold Dictionary.rows
  rw [List.mem_map]
  constructor
  · rintro ⟨key', hkey, heq⟩
    obtain ⟨rfl, hnone⟩ := Prod.ext_iff.1 heq
    change d.translationIn? source key' = none at hnone
    rw [List.mem_append, List.mem_filter, Dictionary.mem_ownKeys_iff, hnone] at hkey
    exact ⟨hkey.resolve_right fun h => Bool.false_ne_true h.1.2, hnone⟩
  · rintro ⟨hkey, hnone⟩
    exact ⟨key, List.mem_append_left _ hkey, by rw [hnone]⟩

end Rows

/-! ## §2. Tables side by side. -/

/-- The table under a name, empty if there is none. -/
def partOf (tables : GroupedTables) (name : String) : StringTable :=
  (tables.get? name).getD .empty

/-- The tables of given sources, behind what is pending. -/
def sideBySide (d : Dictionary) (registered : List String) (pending : PendingStrings) :
    GroupedTables :=
  (shownEntries d).foldl addToGroup
    (registered.foldl addGroup (OrderedMap.empty.insert newStringsKey (pendingTable pending)))

/-- The translations in tables: the name of the table, the key and its translations. -/
def translatedRows (tables : GroupedTables) : List (String × String × List String) :=
  tables.pairs.flatMap fun part =>
    part.2.pairs.filterMap fun row => row.2.map fun forms => (part.1, row.1, forms)

section SideBySide

variable {d : Dictionary} {registered : List String} {pending : PendingStrings}

theorem keys_addGroup (tables : GroupedTables) (name : String) :
    (addGroup tables name).keys
      = if name ∈ tables.keys then tables.keys else tables.keys ++ [name] := by
  have hcontains : tables.contains name = true ↔ name ∈ tables.keys := by
    unfold OrderedMap.contains
    rw [Option.isSome_iff_ne_none, ne_eq, OrderedMap.get?_eq_none_iff, not_not]
  unfold addGroup
  by_cases hmem : name ∈ tables.keys
  · rw [if_pos (hcontains.2 hmem), if_pos hmem]
  · rw [if_neg (mt hcontains.1 hmem), OrderedMap.keys_insert]

theorem keys_addToGroup (tables : GroupedTables) (e : Entry) :
    (addToGroup tables e).keys
      = if e.source ∈ tables.keys then tables.keys else tables.keys ++ [e.source] :=
  OrderedMap.keys_insert _ _ _

/-- Sources have their tables behind what is pending, in their order. -/
theorem keys_foldl_addGroup (table : StringTable) (hnodup : registered.Nodup) :
    (registered.foldl addGroup (OrderedMap.empty.insert newStringsKey table)).keys
      = newStringsKey :: registered.filter (· ≠ newStringsKey) := by
  have hrest : registered.removeAll [newStringsKey] = registered.filter (· ≠ newStringsKey) := by
    refine List.filter_congr fun name _ => ?_
    simp
  rw [OrderedMap.keys_foldl keys_addGroup, List.map_id']
  show ([newStringsKey] ++ registered).eraseDups = _
  rw [List.eraseDups_append, hrest,
    OrderedMap.eraseDups_eq_self (hnodup.sublist List.filter_sublist)]
  rfl

/-- **The names of the tables**: what is pending, the sources in their order, and then all others
that have something to show. -/
theorem keys_sideBySide (hnodup : registered.Nodup) :
    (sideBySide d registered pending).keys
      = newStringsKey :: (registered.filter (· ≠ newStringsKey) ++ d.otherSources registered) := by
  have hsources := keys_foldl_addGroup (pendingTable pending) hnodup
  have hdistinct : (newStringsKey :: registered.filter (· ≠ newStringsKey)).Nodup := by
    rw [← hsources]
    exact OrderedMap.keys_nodup _
  have hothers : (((shownEntries d).map Entry.source).removeAll
      (newStringsKey :: registered.filter (· ≠ newStringsKey))).eraseDups
        = d.otherSources registered := by
    unfold Dictionary.otherSources
    congr 1
    refine List.filter_congr fun source _ => ?_
    by_cases hsource : source = newStringsKey <;> simp [hsource]
  unfold sideBySide
  rw [OrderedMap.keys_foldl keys_addToGroup, hsources, List.eraseDups_append,
    OrderedMap.eraseDups_eq_self hdistinct, hothers, List.cons_append]

/-- A source that has something to show has a table. -/
theorem source_mem_keys_sideBySide (hnodup : registered.Nodup) {e : Entry}
    (he : e ∈ shownEntries d) : e.source ∈ (sideBySide d registered pending).keys := by
  rw [keys_sideBySide hnodup, List.mem_cons, List.mem_append, List.mem_filter,
    Dictionary.otherSources, List.mem_eraseDups, List.mem_filter]
  by_cases hfirst : e.source = newStringsKey
  · exact Or.inl hfirst
  · by_cases hregistered : e.source ∈ registered
    · exact Or.inr (Or.inl ⟨hregistered, by simpa using hfirst⟩)
    · exact Or.inr (Or.inr ⟨List.mem_map_of_mem he, by simp [hfirst, hregistered]⟩)

theorem get?_eq_some_partOf {tables : GroupedTables} {name : String} (h : name ∈ tables.keys) :
    tables.get? name = some (partOf tables name) := by
  obtain ⟨part, hpart⟩ := OrderedMap.mem_keys_iff.1 h
  unfold partOf
  rw [OrderedMap.get?_eq_some_iff.2 hpart]
  rfl

theorem partOf_addGroup (tables : GroupedTables) (name other : String) :
    partOf (addGroup tables name) other = partOf tables other := by
  unfold addGroup partOf
  split
  next => rfl
  next hcontains =>
    rw [OrderedMap.get?_insert]
    split
    next hname =>
      subst hname
      rw [Option.not_isSome_iff_eq_none.1 hcontains]
      rfl
    next => rfl

theorem partOf_addToGroup (tables : GroupedTables) (e : Entry) (name : String) :
    partOf (addToGroup tables e) name
      = if e.source = name then addEntry (partOf tables name) e else partOf tables name := by
  unfold addToGroup partOf
  rw [OrderedMap.get?_insert]
  split
  next hsource =>
    subst hsource
    rfl
  next => rfl

theorem partOf_foldl_addGroup (tables : GroupedTables) (names : List String) (other : String) :
    partOf (names.foldl addGroup tables) other = partOf tables other := by
  induction names generalizing tables with
  | nil => rfl
  | cons name names ih => rw [List.foldl_cons, ih, partOf_addGroup]

/-- A table takes up the entries of its source, and no others. -/
theorem partOf_foldl_addToGroup (tables : GroupedTables) (entries : List Entry) (name : String) :
    partOf (entries.foldl addToGroup tables) name
      = (entries.filter fun e => e.source == name).foldl addEntry (partOf tables name) := by
  induction entries generalizing tables with
  | nil => rfl
  | cons e entries ih =>
      rw [List.foldl_cons, ih, partOf_addToGroup]
      by_cases hsource : e.source = name <;> simp [hsource]

/-- **What the tables have in them**: each what its source has, and the first one also what is
pending. -/
theorem pairs_partOf_sideBySide (hblank : ∀ key ∈ pending.keys, isBlank key = false)
    (registered : List String) (name : String) :
    (partOf (sideBySide d registered pending) name).pairs
      = d.rows (if name = newStringsKey then pending.keys else []) name := by
  unfold sideBySide
  rw [partOf_foldl_addToGroup, partOf_foldl_addGroup]
  have hstart : partOf (OrderedMap.empty.insert newStringsKey (pendingTable pending)) name
      = if name = newStringsKey then pendingTable pending else .empty := by
    unfold partOf
    rw [OrderedMap.get?_insert]
    by_cases hname : name = newStringsKey
    · rw [if_pos hname.symm, if_pos hname]
      rfl
    · rw [if_neg (Ne.symm hname), if_neg hname]
      rfl
  show ((shownIn d name).foldl addEntry _).pairs = _
  rw [hstart]
  split
  next => exact pairs_overlay hblank (pairs_pendingTable pending) name
  next => exact pairs_overlay (by simp) rfl name

theorem mem_translatedRows_iff {tables : GroupedTables} {name key : String}
    {forms : List String} :
    (name, key, forms) ∈ translatedRows tables
      ↔ name ∈ tables.keys ∧ (key, some forms) ∈ (partOf tables name).pairs := by
  unfold translatedRows
  simp only [List.mem_flatMap, List.mem_filterMap, Option.map_eq_some_iff, Prod.exists,
    Prod.mk.injEq]
  constructor
  · rintro ⟨name', part, hpart, key', forms', hrow, forms'', rfl, rfl, rfl, rfl⟩
    refine ⟨OrderedMap.mem_keys_iff.2 ⟨part, hpart⟩, ?_⟩
    unfold partOf
    rw [OrderedMap.get?_eq_some_iff.2 hpart]
    exact hrow
  · rintro ⟨hname, hrow⟩
    have hpart := OrderedMap.get?_eq_some_iff.1 (get?_eq_some_partOf hname)
    exact ⟨name, _, hpart, key, some forms, hrow, forms, rfl, rfl, rfl, rfl⟩

theorem nodup_translatedRows (tables : GroupedTables) : (translatedRows tables).Nodup := by
  unfold translatedRows
  rw [List.nodup_flatMap]
  refine ⟨fun part _ => part.2.pairs_nodup.filterMap ?_, ?_⟩
  · rintro ⟨key, forms⟩ ⟨key', forms'⟩ row hrow hrow'
    obtain ⟨_, rfl, rfl⟩ := Option.map_eq_some_iff.1 hrow
    obtain ⟨_, rfl, heq⟩ := Option.map_eq_some_iff.1 hrow'
    cases heq
    rfl
  · -- the rows of different tables differ in the name
    refine (List.pairwise_map.1 tables.nodup).imp fun {part part'} hne => ?_
    intro row hrow hrow'
    obtain ⟨row₁, -, hrow₁⟩ := List.mem_filterMap.1 hrow
    obtain ⟨row₂, -, hrow₂⟩ := List.mem_filterMap.1 hrow'
    obtain ⟨_, -, rfl⟩ := Option.map_eq_some_iff.1 hrow₁
    obtain ⟨_, -, heq⟩ := Option.map_eq_some_iff.1 hrow₂
    exact hne (congrArg Prod.fst heq).symm

/-- **Every entry is in one table**, that of its source, once and with its translations. -/
theorem perm_translatedRows (hnodup : registered.Nodup)
    (hblank : ∀ key ∈ pending.keys, isBlank key = false) :
    (translatedRows (sideBySide d registered pending)).Perm
      ((shownEntries d).map fun e => (e.source, e.key, e.translation)) := by
  have hshown : ((shownEntries d).map fun e => (e.source, e.key, e.translation)).Nodup := by
    refine List.Nodup.of_map (fun row => row.2.1) ?_
    rw [List.map_map]
    exact nodup_keys_shownEntries d
  rw [List.perm_ext_iff_of_nodup (nodup_translatedRows _) hshown]
  rintro ⟨name, key, forms⟩
  have hwaiting : ∀ key ∈ (if name = newStringsKey then pending.keys else []),
      isBlank key = false := by
    split
    next => exact hblank
    next => simp
  rw [mem_translatedRows_iff, pairs_partOf_sideBySide hblank, mem_rows_some_iff hwaiting,
    Dictionary.translationIn?_eq_some_iff, List.mem_map]
  simp only [Prod.mk.injEq]
  constructor
  · rintro ⟨-, hkey, e, hget, hsource, htranslation⟩
    have hentry := Dictionary.key_of_get? hget
    subst hentry
    exact ⟨e, mem_shownEntries_iff.2 ⟨hget, hkey⟩, hsource, rfl, htranslation⟩
  · rintro ⟨e, he, rfl, rfl, rfl⟩
    obtain ⟨hget, hkey⟩ := mem_shownEntries_iff.1 he
    exact ⟨source_mem_keys_sideBySide hnodup he, hkey, e, hget, rfl, rfl⟩

end SideBySide

/-! ## §3. What is pending. -/

end Translator

namespace Tracker

variable {t : Tracker} {session : SessionStore} {lang : String} {pending : PendingStrings}

/-- The originals that were recorded for a tracker in a language since it was cleared last, each
where it was recorded first. -/
def recordedIn (t : Tracker) (lang : String) (calls : List Tracker.Call) : List String :=
  ((recordings t.ns lang calls).map Prod.fst).eraseDups

/-- **What is pending is in recording order**, in every session of trackers. -/
theorem pending_in_order {calls : List Tracker.Call} (h : session.Retains calls) (t : Tracker)
    (lang : String) :
    ∃ pending, t.pending session lang = .ok pending
      ∧ pending.keys = t.recordedIn lang calls := by
  refine ⟨_, h.pending t lang, ?_⟩
  unfold recordedIn awaited
  rw [Waiting.keys_forms, waiting_eq_ofList, OrderedMap.keys_ofList]

/-- Nothing blank is pending. -/
theorem isBlank_of_mem_pending (h : t.pending session lang = .ok pending) :
    ∀ key ∈ pending.keys, isBlank key = false := by
  unfold Tracker.pending at h
  obtain ⟨p, -, hpending⟩ := bind_eq_ok_iff.1 h
  cases hpending
  intro key hkey
  obtain ⟨forms, hmem⟩ := OrderedMap.mem_keys_iff.1 hkey
  simpa using (List.mem_filter.1 hmem).2

end Tracker

namespace Translator

variable {t : Translator} {w : Workspace} {lang source : String} {pending : PendingStrings}
variable {fault : CatalogError}

theorem activePending_of_loaded (hloaded : t.loaded = true) (hlang : t.language = .ok lang) :
    t.activePending w = t.answer w (t.tracker.pending w.session lang) := by
  unfold activePending
  rw [ensureLoaded_of_loaded hloaded, answer, Outcome.andThen_ok]
  simp only [hlang]

theorem stringsOf_of_pending (hloaded : t.loaded = true) (hlang : t.language = .ok lang)
    (h : t.tracker.pending w.session lang = .ok pending) (source : String) :
    t.stringsOf w source
      = ⟨.ok ((shownIn t.dictionary source).foldl addEntry (pendingTable pending)), t, w⟩ := by
  unfold stringsOf
  rw [activePending_of_loaded hloaded hlang, h]
  rfl

theorem stringsOf_of_error (hloaded : t.loaded = true) (hlang : t.language = .ok lang)
    (h : t.tracker.pending w.session lang = .error fault) (source : String) :
    t.stringsOf w source = ⟨.error fault, t, w⟩ := by
  unfold stringsOf
  rw [activePending_of_loaded hloaded hlang, h]
  rfl

theorem groupedStrings_of_pending (hloaded : t.loaded = true) (hlang : t.language = .ok lang)
    (h : t.tracker.pending w.session lang = .ok pending) :
    t.groupedStrings w = ⟨.ok (sideBySide t.dictionary t.sources.keys pending), t, w⟩ := by
  unfold groupedStrings
  rw [activePending_of_loaded hloaded hlang, h]
  rfl

theorem groupedStrings_of_error (hloaded : t.loaded = true) (hlang : t.language = .ok lang)
    (h : t.tracker.pending w.session lang = .error fault) :
    t.groupedStrings w = ⟨.error fault, t, w⟩ := by
  unfold groupedStrings
  rw [activePending_of_loaded hloaded hlang, h]
  rfl

/-- A translator that is loaded has a language. -/
theorem language_of_loaded {ns : String} {expire : Nat} {hasSession responseSent : Bool}
    {start : Workspace} {events : List Event} {s : State}
    (hs : State.through ⟨new ns expire hasSession responseSent, start⟩ events = s)
    (hloaded : s.translator.loaded = true) : ∃ lang, s.translator.language = .ok lang := by
  have haccounted := accounted_through (accounted_new ns expire hasSession responseSent start) events
  subst hs
  obtain ⟨-, lang, before, load, rest, d, hevents, honce, -⟩ := haccounted.loaded hloaded
  have hlang := (honce.since rest (List.prefix_refl rest)).2
  rw [← hevents] at hlang
  refine ⟨lang, language_eq_ok_iff.2 ⟨hlang, ?_⟩⟩
  rintro rfl
  exact absurd (haccounted.not_blank "" hlang) (by decide)

/-! ## §4. The table of one source. -/

/-- A table shows a source of a dictionary behind keys that wait. -/
structure ShowsSource (d : Dictionary) (waiting : List String) (source : String)
    (table : StringTable) : Prop where
  order : table.keys = waiting ++ (d.ownKeys source).filter (· ∉ waiting)
  once : table.keys.Nodup
  translated : ∀ key forms, table.get? key = some (some forms)
    ↔ isBlank key = false ∧ ∃ e, d.get? key = some e ∧ e.source = source ∧ e.translation = forms
  untranslated : ∀ key, table.get? key = some none
    ↔ key ∈ waiting ∧ ∀ e, d.get? key = some e → e.source ≠ source

theorem showsSource_of_pairs {d : Dictionary} {waiting : List String} {table : StringTable}
    (hblank : ∀ key ∈ waiting, isBlank key = false) (h : table.pairs = d.rows waiting source) :
    ShowsSource d waiting source table where
  order := by
    unfold OrderedMap.keys
    rw [h, Dictionary.rows, List.map_map]
    exact List.map_id _
  once := table.keys_nodup
  translated key forms := by
    rw [OrderedMap.get?_eq_some_iff, h, mem_rows_some_iff hblank,
      Dictionary.translationIn?_eq_some_iff]
  untranslated key := by
    rw [OrderedMap.get?_eq_some_iff, h, mem_rows_none_iff, Option.eq_none_iff_forall_ne_some]
    refine and_congr_right fun _ => ?_
    constructor
    · intro hnone e he hsource
      exact hnone e.translation (Dictionary.translationIn?_eq_some_iff.2 ⟨e, he, hsource, rfl⟩)
    · intro hother forms hforms
      obtain ⟨e, he, hsource, -⟩ := Dictionary.translationIn?_eq_some_iff.1 hforms
      exact hother e he hsource

/-- **The table of one source loses nothing.**  In every state that translators lead to in which
a dictionary is loaded, the table of a source has first all that is pending in the language, in
the order in which it was recorded, and then, in the order of the dictionary, all other keys of
the source that are not blank.  A key stands in it once, and has translations exactly if the
dictionary has an entry of this source under it, whatever other sources have.  If what is pending
cannot be read, there is no table, and the fault is reported. -/
theorem table_of_stringsOf {ns : String} {expire : Nat} {hasSession responseSent : Bool}
    {start : Workspace} {events : List Event} {s : State}
    (hs : State.through ⟨new ns expire hasSession responseSent, start⟩ events = s)
    (hloaded : s.translator.loaded = true) (source : String) :
    ∃ lang, s.translator.language = .ok lang
      ∧ (∀ calls, s.workspace.session.Retains calls →
          ∃ pending, s.translator.tracker.pending s.workspace.session lang = .ok pending
            ∧ pending.keys = s.translator.tracker.recordedIn lang calls)
      ∧ (∀ pending, s.translator.tracker.pending s.workspace.session lang = .ok pending →
          ∃ table, s.translator.stringsOf s.workspace source
              = ⟨.ok table, s.translator, s.workspace⟩
            ∧ ShowsSource s.translator.dictionary pending.keys source table)
      ∧ ∀ fault, s.translator.tracker.pending s.workspace.session lang = .error fault →
          s.translator.stringsOf s.workspace source
            = ⟨.error fault, s.translator, s.workspace⟩ := by
  obtain ⟨lang, hlang⟩ := language_of_loaded hs hloaded
  refine ⟨lang, hlang, ?_, ?_, ?_⟩
  · intro calls hcalls
    exact Tracker.pending_in_order hcalls s.translator.tracker lang
  · intro pending hpending
    have hblank := Tracker.isBlank_of_mem_pending hpending
    exact ⟨_, stringsOf_of_pending hloaded hlang hpending source,
      showsSource_of_pairs hblank (pairs_overlay hblank (pairs_pendingTable pending) source)⟩
  · exact fun fault hfault => stringsOf_of_error hloaded hlang hfault source

/-- Cat is pending and translated in one source only. -/
theorem table_of_stringsOf_sought :
    ∃ s own other,
      State.through ⟨withDefaults true false, startOf overlapping⟩ seeking = s
        ∧ s.translator.stringsOf s.workspace "a" = ⟨.ok own, s.translator, s.workspace⟩
        ∧ own.keys = ["Dog", "Cat", "Bye"]
        ∧ own.get? "Cat" = some (some ["Kocka"]) ∧ own.get? "Dog" = some none
        ∧ s.translator.stringsOf s.workspace "b" = ⟨.ok other, s.translator, s.workspace⟩
        ∧ other.keys = ["Dog", "Cat", "Hello"] ∧ other.get? "Cat" = some none := by
  obtain ⟨lang, hlang, hpending, hown, -⟩ := table_of_stringsOf through_seeking rfl "a"
  obtain ⟨lang', hlang', -, hother, -⟩ := table_of_stringsOf through_seeking rfl "b"
  cases hlang
  cases hlang'
  obtain ⟨pending, hpending, hkeys⟩ := hpending soughtCalls (.all _)
  have hwaiting : pending.keys = ["Dog", "Cat"] := hkeys.trans (by decide +kernel)
  obtain ⟨own, hown, howns⟩ := hown pending hpending
  obtain ⟨other, hother, hothers⟩ := hother pending hpending
  rw [hwaiting] at howns hothers
  refine ⟨_, own, other, through_seeking, hown, howns.order.trans (by decide +kernel), ?_, ?_,
    hother, hothers.order.trans (by decide +kernel), ?_⟩
  · exact (howns.translated "Cat" ["Kocka"]).2
      ⟨by decide, ⟨["Cat"], ["Kocka"], "a"⟩, by decide +kernel, rfl, rfl⟩
  · refine (howns.untranslated "Dog").2 ⟨by decide, ?_⟩
    decide +kernel
  · refine (hothers.untranslated "Cat").2 ⟨by decide, ?_⟩
    decide +kernel

/-! ## §5. The tables of all sources. -/

/-- Tables show the sources of a dictionary side by side, behind keys that wait. -/
structure ShowsSources (d : Dictionary) (registered waiting : List String)
    (tables : GroupedTables) : Prop where
  names : tables.keys
    = newStringsKey :: (registered.filter (· ≠ newStringsKey) ++ d.otherSources registered)
  every : tables.keys = newStringsKey :: (registered ++ d.otherSources registered)
    ↔ newStringsKey ∉ registered
  parts : ∀ name ∈ tables.keys, (tables.get? name).map OrderedMap.pairs
    = some (d.rows (if name = newStringsKey then waiting else []) name)
  fresh : (tables.get? newStringsKey).map OrderedMap.pairs
      = some (waiting.map fun key => (key, none))
    ↔ ∀ e ∈ shownEntries d, e.source ≠ newStringsKey
  once : (translatedRows tables).Perm
    ((shownEntries d).map fun e => (e.source, e.key, e.translation))

/-- Keys that wait are all that there is exactly where the source has nothing to show. -/
theorem rows_eq_untranslated_iff {d : Dictionary} {waiting : List String}
    (hblank : ∀ key ∈ waiting, isBlank key = false) :
    d.rows waiting source = (waiting.map fun key => (key, none))
      ↔ ∀ e ∈ shownEntries d, e.source ≠ source := by
  constructor
  · intro hrows e he hsource
    obtain ⟨hget, hkey⟩ := mem_shownEntries_iff.1 he
    have hrow : (e.key, some e.translation) ∈ d.rows waiting source :=
      (mem_rows_some_iff hblank).2
        ⟨hkey, Dictionary.translationIn?_eq_some_iff.2 ⟨e, hget, hsource, rfl⟩⟩
    rw [hrows] at hrow
    obtain ⟨key, -, heq⟩ := List.mem_map.1 hrow
    cases heq
  · intro hother
    have hnone : ∀ key, isBlank key = false → d.translationIn? source key = none := by
      intro key hkey
      refine Option.eq_none_iff_forall_ne_some.2 fun forms hforms => ?_
      obtain ⟨e, he, hsource, -⟩ := Dictionary.translationIn?_eq_some_iff.1 hforms
      have hentry := Dictionary.key_of_get? he
      subst hentry
      exact hother e (mem_shownEntries_iff.2 ⟨he, hkey⟩) hsource
    have hown : d.ownKeys source = [] := by
      refine List.eq_nil_iff_forall_not_mem.2 fun key hkey => ?_
      obtain ⟨hkeyBlank, hsome⟩ := Dictionary.mem_ownKeys_iff.1 hkey
      rw [hnone key hkeyBlank] at hsome
      cases hsome
    unfold Dictionary.rows
    rw [hown, List.filter_nil, List.append_nil]
    exact List.map_congr_left fun key hkey => by rw [hnone key (hblank key hkey)]

theorem showsSources_sideBySide {d : Dictionary} {registered : List String}
    (hnodup : registered.Nodup) (hblank : ∀ key ∈ pending.keys, isBlank key = false) :
    ShowsSources d registered pending.keys (sideBySide d registered pending) := by
  have hnames : (sideBySide d registered pending).keys
      = newStringsKey :: (registered.filter (· ≠ newStringsKey) ++ d.otherSources registered) :=
    keys_sideBySide hnodup
  have hparts : ∀ name ∈ (sideBySide d registered pending).keys,
      ((sideBySide d registered pending).get? name).map OrderedMap.pairs
        = some (d.rows (if name = newStringsKey then pending.keys else []) name) := by
    intro name hname
    rw [get?_eq_some_partOf hname, Option.map_some, pairs_partOf_sideBySide hblank]
  refine ⟨hnames, ?_, hparts, ?_, perm_translatedRows hnodup hblank⟩
  · rw [hnames, List.cons_inj_right, List.append_left_inj, List.filter_eq_self]
    constructor
    · intro hall hmem
      exact absurd rfl (of_decide_eq_true (hall _ hmem))
    · rintro hnot name hname
      exact decide_eq_true fun heq => hnot (heq ▸ hname)
  · rw [hparts newStringsKey (by rw [hnames]; exact List.mem_cons_self), if_pos rfl,
      Option.some.injEq]
    exact rows_eq_untranslated_iff hblank

/-- **The tables of all sources are the dictionary, taken apart.**  In every state that translators
lead to in which a dictionary is loaded, the first table has what is pending in the language, in
the order in which it was recorded and without translations; a table for each source follows, in
the order in which they were registered, also for those that have nothing, and then one for each
source that is not registered and has entries.  Every entry whose key is not blank is in the table
of its source, once and with its translations, and in no other.

Only a source that has the name of the first table is without one of its own, and if it has
entries, these are in the first table too. -/
theorem tables_of_groupedStrings {ns : String} {expire : Nat} {hasSession responseSent : Bool}
    {start : Workspace} {events : List Event} {s : State}
    (hs : State.through ⟨new ns expire hasSession responseSent, start⟩ events = s)
    (hloaded : s.translator.loaded = true) :
    ∃ lang, s.translator.language = .ok lang
      ∧ (∀ calls, s.workspace.session.Retains calls →
          ∃ pending, s.translator.tracker.pending s.workspace.session lang = .ok pending
            ∧ pending.keys = s.translator.tracker.recordedIn lang calls)
      ∧ (∀ pending, s.translator.tracker.pending s.workspace.session lang = .ok pending →
          ∃ tables, s.translator.groupedStrings s.workspace
              = ⟨.ok tables, s.translator, s.workspace⟩
            ∧ ShowsSources s.translator.dictionary s.translator.sources.keys pending.keys tables)
      ∧ ∀ fault, s.translator.tracker.pending s.workspace.session lang = .error fault →
          s.translator.groupedStrings s.workspace
            = ⟨.error fault, s.translator, s.workspace⟩ := by
  obtain ⟨lang, hlang⟩ := language_of_loaded hs hloaded
  refine ⟨lang, hlang, ?_, ?_, ?_⟩
  · intro calls hcalls
    exact Tracker.pending_in_order hcalls s.translator.tracker lang
  · intro pending hpending
    exact ⟨_, groupedStrings_of_pending hloaded hlang hpending,
      showsSources_sideBySide s.translator.sources.keys_nodup
        (Tracker.isBlank_of_mem_pending hpending)⟩
  · exact fun fault hfault => groupedStrings_of_error hloaded hlang hfault

/-- Cat is in the first table and in that of its source. -/
theorem tables_of_groupedStrings_sought :
    ∃ s tables,
      State.through ⟨withDefaults true false, startOf overlapping⟩ seeking = s
        ∧ s.translator.groupedStrings s.workspace = ⟨.ok tables, s.translator, s.workspace⟩
        ∧ tables.keys = [newStringsKey, "a", "b"]
        ∧ (tables.get? newStringsKey).map OrderedMap.pairs = some [("Dog", none), ("Cat", none)]
        ∧ (tables.get? "a").map OrderedMap.pairs
          = some [("Bye", some ["Cau"]), ("Cat", some ["Kocka"])]
        ∧ (tables.get? "b").map OrderedMap.pairs = some [("Hello", some ["Nazdar"])] := by
  obtain ⟨lang, hlang, hpending, htables, -⟩ := tables_of_groupedStrings through_seeking rfl
  cases hlang
  obtain ⟨pending, hpending, hkeys⟩ := hpending soughtCalls (.all _)
  have hwaiting : pending.keys = ["Dog", "Cat"] := hkeys.trans (by decide +kernel)
  obtain ⟨tables, hgrouped, hshows⟩ := htables pending hpending
  rw [hwaiting] at hshows
  have hnames : tables.keys = [newStringsKey, "a", "b"] := hshows.names.trans (by decide +kernel)
  have hparts := hshows.parts
  rw [hnames] at hparts
  exact ⟨_, tables, through_seeking, hgrouped, hnames,
    (hparts newStringsKey (by decide)).trans (by decide +kernel),
    (hparts "a" (by decide)).trans (by decide +kernel),
    (hparts "b" (by decide)).trans (by decide +kernel)⟩

/-- A source has the name of what is pending; a message is not found, and another one is translated
in this source. -/
def mixing : List Event :=
  [.own (.addSource "d" newStringsKey), .own (.setLang "cs"), .own (.lookup "Dog" .one),
    .own (.setTranslation "Hello" ["Ahoj"] newStringsKey)]

/-- A translator with this source. -/
def mixedEditor : Translator :=
  { withDefaults true false with
    sources := ⟨[(newStringsKey, "d")], by decide⟩, lang := some "cs" }

/-- The call of its tracker. -/
def mixedCalls : List Tracker.Call :=
  [.record mixedEditor.tracker "cs" "Dog" none]

/-- The translator after it. -/
def mixedReviser : Translator :=
  mixedEditor.withDictionary
    ((dictionaryIn overlapping "cs" mixedEditor.sources).insert ⟨["Hello"], ["Ahoj"], newStringsKey⟩)

theorem through_mixing :
    State.through ⟨withDefaults true false, startOf overlapping⟩ mixing
      = ⟨mixedReviser, overlappingWith mixedCalls⟩ := by
  have hsetUp : State.through ⟨withDefaults true false, startOf overlapping⟩ (mixing.take 2)
      = ⟨mixedEditor, overlappingWith []⟩ := rfl
  have hload := @ensureLoaded_of_readable mixedEditor (overlappingWith []) "cs" rfl rfl rfl
    (readable_of_isOk (by decide +kernel))
  have hdog : State.apply ⟨mixedEditor, overlappingWith []⟩ (.lookup "Dog" .one)
      = ⟨mixedEditor.withDictionary (dictionaryIn overlapping "cs" mixedEditor.sources),
          overlappingWith mixedCalls⟩ := by
    show (lookup _ _ _ _).state = _
    rw [lookup_of_missing hload (by decide +kernel) rfl (Tracker.record_session _ [] _ _ _)]
    rfl
  have hget : mixedEditor.tracker.get (session mixedCalls) "cs" "Hello" = .ok none := by
    rw [(SessionStore.Retains.all mixedCalls).get]
    decide +kernel
  have hset : State.apply ⟨mixedEditor.withDictionary
        (dictionaryIn overlapping "cs" mixedEditor.sources), overlappingWith mixedCalls⟩
      (.setTranslation "Hello" ["Ahoj"] newStringsKey)
      = ⟨mixedReviser, overlappingWith mixedCalls⟩ := by
    show (setTranslation _ _ _ _ _).state = _
    rw [setTranslation_of_pending (ensureLoaded_of_loaded rfl) rfl hget]
    rfl
  show State.apply (State.apply (State.through ⟨withDefaults true false, startOf overlapping⟩
    (mixing.take 2)) (.lookup "Dog" .one)) (.setTranslation "Hello" ["Ahoj"] newStringsKey) = _
  rw [hsetUp, hdog, hset]

/-- **What a source has is mixed with what is pending** if it has the same name: there is one table
for both. -/
theorem mixed_of_groupedStrings :
    ∃ s pending tables,
      State.through ⟨withDefaults true false, startOf overlapping⟩ mixing = s
        ∧ s.translator.loaded = true
        ∧ s.translator.sources.keys = [newStringsKey]
        ∧ s.translator.tracker.pending s.workspace.session "cs" = .ok pending
        ∧ pending.keys = ["Dog"]
        ∧ s.translator.groupedStrings s.workspace = ⟨.ok tables, s.translator, s.workspace⟩
        ∧ tables.keys = [newStringsKey]
        ∧ (tables.get? newStringsKey).map OrderedMap.pairs
          = some [("Dog", none), ("Hello", some ["Ahoj"])] := by
  have hpending : mixedReviser.tracker.pending (overlappingWith mixedCalls).session "cs"
      = .ok (mixedReviser.tracker.awaited "cs" mixedCalls).forms :=
    Tracker.pending_session _ mixedCalls "cs"
  exact ⟨_, _, _, through_mixing, rfl, rfl, hpending, by decide +kernel,
    groupedStrings_of_pending rfl rfl hpending, by decide +kernel, by decide +kernel⟩

end Translator

end MessageCatalog
