/-
  MessageCatalog.Proofs.Mo.RoundTrip
  ────────────────────────────────
  **WHAT IS WRITTEN IS READ BACK.**

  Writing entries gives the image of one record for the header and one for each
  entry, sorted by key (`write_eq_ok_iff`), and an image is read back as its records.
  What is left is to get the entries back from the records: strings without zero
  characters come apart again where zero bytes join them.
-/
import MessageCatalog.Proofs.Mo.Layout
import MessageCatalog.Proofs.StableSort
import MessageCatalog.Proofs.Text.Utf8

namespace MessageCatalog.Mo

open MessageCatalog.Text

/-! ## §1. Strings joined by zero bytes. -/

/-- Joined strings are the bytes of the joined text. -/
theorem joinNul_eq_bytesOf (texts : List String) :
    joinNul texts = bytesOf (String.intercalate "\x00" texts) := by
  unfold joinNul
  induction texts with
  | nil => rfl
  | cons text texts ih =>
      cases texts with
      | nil => rw [List.map_cons, List.map_nil, List.intercalate_singleton,
          String.intercalate_singleton]
      | cons next texts =>
          rw [List.map_cons, List.map_cons, List.intercalate_cons_cons, ← List.map_cons, ih,
            String.intercalate_cons_cons, bytesOf_append, bytesOf_append]
          rfl

/-- Texts without zero characters come apart where they were joined. -/
theorem splitNul_joinNul {texts : List String} (hne : texts ≠ [])
    (hfree : ∀ text ∈ texts, '\x00' ∉ text.toList) : splitNul (joinNul texts) = texts := by
  have hchars : Utf8.decode (joinNul texts)
      = ['\x00'].intercalate (texts.map String.toList) := by
    rw [joinNul_eq_bytesOf, bytesOf, Utf8.decode_encode, String.toList_intercalate]
    rfl
  have h : (['\x00'].intercalate (texts.map String.toList)).splitOn '\x00'
      = texts.map String.toList := by
    apply List.splitOn_intercalate
    · intro part hpart
      obtain ⟨text, htext, rfl⟩ := List.mem_map.1 hpart
      exact hfree text htext
    · rw [Ne, List.map_eq_nil_iff]
      exact hne
  unfold splitNul
  rw [pieces_eq_splitOnP, hchars]
  show ((['\x00'].intercalate (texts.map String.toList)).splitOn '\x00').map String.ofList = texts
  rw [h, List.map_map]
  have hid : String.ofList ∘ String.toList = id := by
    funext text
    exact String.ofList_toList
  rw [hid, List.map_id]

/-! ## §2. The records of entries. -/

theorem ne_nil_of_one_or_two {texts : List String} (h : texts.length = 1 ∨ texts.length = 2) :
    texts ≠ [] := by
  intro hnil
  rw [hnil] at h
  simp at h

/-- An entry that a binary catalog can hold: one string or two, without zero
characters, and something to be read on either side. -/
structure Storable (e : Entry) : Prop where
  one_or_two : e.original.length = 1 ∨ e.original.length = 2
  original_free : ∀ text ∈ e.original, '\x00' ∉ text.toList
  key_ne : e.original.length = 1 → e.key ≠ ""
  translation_free : ∀ text ∈ e.translation, '\x00' ∉ text.toList
  joined_ne : String.intercalate "\x00" e.translation ≠ ""

/-- The record that is written for an entry. -/
def Record.ofEntry (e : Entry) : Record :=
  ⟨originalOf e, translationOf e⟩

/-- One string or two are written with a zero byte between them. -/
theorem originalOf_eq {e : Entry} (h : e.original.length = 1 ∨ e.original.length = 2) :
    originalOf e = joinNul e.original := by
  obtain ⟨original, translation, source⟩ := e
  match original, h with
  | [key], _ =>
      show bytesOf key = [(0 : UInt8)].intercalate [bytesOf key]
      rw [List.intercalate_singleton]
  | [key, plural], _ =>
      show bytesOf key ++ 0 :: bytesOf plural
        = [(0 : UInt8)].intercalate [bytesOf key, bytesOf plural]
      rw [List.intercalate_cons_cons, List.intercalate_singleton, List.append_assoc]
      rfl

namespace Storable

variable {e : Entry}

theorem original_ne_nil (h : Storable e) : e.original ≠ [] :=
  ne_nil_of_one_or_two h.one_or_two

theorem translation_ne_nil (h : Storable e) : e.translation ≠ [] := by
  intro hnil
  apply h.joined_ne
  rw [hnil]
  rfl

/-- The original has bytes: those of the key, or at least the zero byte in front
of the plural. -/
theorem originalOf_ne_nil (h : Storable e) : originalOf e ≠ [] := by
  obtain ⟨original, translation, source⟩ := e
  match original, h with
  | [], h => exact absurd rfl h.original_ne_nil
  | [key], h =>
      show bytesOf key ≠ []
      rw [Ne, bytesOf_eq_nil_iff]
      exact h.key_ne rfl
  | key :: plural :: rest, _ =>
      show bytesOf key ++ 0 :: _ ≠ []
      simp

theorem translationOf_ne_nil (h : Storable e) : translationOf e ≠ [] := by
  unfold translationOf
  rw [joinNul_eq_bytesOf, Ne, bytesOf_eq_nil_iff]
  exact h.joined_ne

theorem isMessage_ofEntry (h : Storable e) : (Record.ofEntry e).isMessage = true := by
  unfold Record.isMessage Record.ofEntry
  simp [h.originalOf_ne_nil, h.translationOf_ne_nil]

/-- The record of a storable entry holds the entry. -/
theorem toEntry_ofEntry (h : Storable e) : (Record.ofEntry e).toEntry e.source = e := by
  unfold Record.toEntry Record.ofEntry translationOf
  rw [originalOf_eq h.one_or_two, splitNul_joinNul h.original_ne_nil h.original_free,
    splitNul_joinNul h.translation_ne_nil h.translation_free]

end Storable

/-! ## §3. What is written. -/

/-- The records of a file: the header, and the entries in order. -/
def recordsOf (sorted : List Entry) (metadata : Option Metadata) (revised : Timestamp) :
    List Record :=
  Record.ofHeader (headerText metadata revised) :: sorted.map Record.ofEntry

theorem checkedWord_eq_ok_iff {n : Nat} {bytes : Bytes} :
    checkedWord n = .ok bytes ↔ n < wordLimit ∧ bytes = ByteOrder.little.encode n := by
  unfold checkedWord
  split
  next h => simp [h, eq_comm]
  next h => simp [h]

/-- Numbers become words exactly when all of them fit. -/
theorem mapM_checkedWord_eq_ok_iff {numbers : List Nat} {words : List Bytes} :
    numbers.mapM checkedWord = .ok words
      ↔ (∀ n ∈ numbers, n < wordLimit) ∧ words = numbers.map ByteOrder.little.encode := by
  induction numbers generalizing words with
  | nil =>
      rw [List.mapM_nil]
      constructor
      · intro h
        cases h
        exact ⟨fun n hn => absurd hn List.not_mem_nil, rfl⟩
      · intro h
        obtain ⟨-, rfl⟩ := h
        rfl
  | cons n numbers ih =>
      rw [List.mapM_cons, bind_eq_ok_iff, List.forall_mem_cons, List.map_cons]
      simp only [bind_eq_ok_iff, checkedWord_eq_ok_iff, ih]
      constructor
      · intro h
        obtain ⟨word, ⟨hn, rfl⟩, rest, ⟨hrest, rfl⟩, h⟩ := h
        cases h
        exact ⟨⟨hn, hrest⟩, rfl⟩
      · intro h
        obtain ⟨⟨hn, hrest⟩, rfl⟩ := h
        exact ⟨_, ⟨hn, rfl⟩, _, ⟨hrest, rfl⟩, rfl⟩

section Written

variable (sorted : List Entry) (metadata : Option Metadata) (revised : Timestamp)

theorem length_recordsOf : (recordsOf sorted metadata revised).length = sorted.length + 1 := by
  unfold recordsOf
  rw [List.length_cons, List.length_map]

theorem stringsOf_recordsOf :
    stringsOf (recordsOf sorted metadata revised)
      = ([] :: sorted.map originalOf)
        ++ (bytesOf (headerText metadata revised) :: sorted.map translationOf) := by
  unfold stringsOf recordsOf
  rw [List.map_cons, List.map_cons, List.map_map, List.map_map]
  rfl

end Written

/-- **Writing gives the image of the records**, provided that every number in it
fits its word. -/
theorem write_eq_ok_iff {entries : List Entry} {metadata : Option Metadata} {revised : Timestamp}
    {bytes : Bytes} :
    write entries metadata revised = .ok bytes
      ↔ FitsWords (recordsOf (entries.mergeSort Entry.keyLE) metadata revised)
        ∧ bytes = image .little (recordsOf (entries.mergeSort Entry.keyLE) metadata revised) := by
  unfold write FitsWords
  -- the order of the entries plays no part in the layout
  generalize entries.mergeSort Entry.keyLE = sorted
  rw [image_eq, layoutWords, stringsOf_recordsOf, slotsFrom_append, length_recordsOf, blob_append,
    bind_eq_ok_iff]
  simp only [mapM_checkedWord_eq_ok_iff]
  constructor
  · intro h
    obtain ⟨words, ⟨hfits, rfl⟩, h⟩ := h
    cases h
    refine ⟨hfits, ?_⟩
    rw [List.append_assoc]
    rfl
  · intro h
    obtain ⟨hfits, rfl⟩ := h
    refine ⟨_, ⟨hfits, rfl⟩, ?_⟩
    rw [List.append_assoc]
    rfl

/-! ## §4. The round trip. -/

/-- Lines joined behind one that is not empty are not empty. -/
theorem intercalate_cons_ne {first : String} (h : first ≠ "") (sep : String)
    (rest : List String) : String.intercalate sep (first :: rest) ≠ "" := by
  cases rest with
  | nil =>
      rw [String.intercalate_singleton]
      exact h
  | cons next rest =>
      rw [String.intercalate_cons_cons, String.append_assoc, Ne, String.append_eq_empty_iff]
      exact fun hempty => h hempty.1

/-- The header text is never empty: it opens with the time of the export. -/
theorem headerText_ne (metadata : Option Metadata) (revised : Timestamp) :
    headerText metadata revised ≠ "" := by
  have hline : Metadata.line revisionKey revised.revision ≠ "" := by
    unfold Metadata.line
    rw [String.append_assoc, Ne, String.append_eq_empty_iff]
    exact fun hempty => absurd hempty.1 (by decide)
  unfold headerText Metadata.headerLinesOf Metadata.headerLines
  rw [List.cons_append]
  exact intercalate_cons_ne hline _ _

/-- The records of storable entries make the catalog of these entries. -/
theorem catalogOf_recordsOf {sorted : List Entry} {source : String}
    (h : ∀ e ∈ sorted, Storable e ∧ e.source = source) (metadata : Option Metadata)
    (revised : Timestamp) :
    catalogOf source (recordsOf sorted metadata revised)
      = ⟨source, sorted, some (Metadata.parse (headerText metadata revised))⟩ := by
  have hmessages : ((sorted.map Record.ofEntry).filter Record.isMessage).map
      (Record.toEntry source) = sorted := by
    induction sorted with
    | nil => rfl
    | cons e sorted ih =>
        rw [List.forall_mem_cons] at h
        obtain ⟨⟨hstorable, rfl⟩, hrest⟩ := h
        rw [List.map_cons, List.filter_cons_of_pos hstorable.isMessage_ofEntry, List.map_cons,
          hstorable.toEntry_ofEntry, ih hrest]
  -- the first record is the only one without an original
  have hheaders : (sorted.map Record.ofEntry).filter Record.isHeader = [] := by
    rw [List.filter_eq_nil_iff]
    intro r hr
    obtain ⟨e, he, rfl⟩ := List.mem_map.1 hr
    unfold Record.isHeader Record.ofEntry
    simp [(h e he).1.originalOf_ne_nil]
  have hheader : (Record.ofHeader (headerText metadata revised)).isHeader = true := by
    have hbytes : bytesOf (headerText metadata revised) ≠ [] := by
      rw [Ne, bytesOf_eq_nil_iff]
      exact headerText_ne metadata revised
    unfold Record.isHeader Record.ofHeader
    simp [hbytes]
  unfold catalogOf recordsOf
  rw [metadataOf_eq, List.filter_cons_of_pos hheader, hheaders,
    List.filter_cons_of_neg (by unfold Record.isMessage Record.ofHeader; simp), hmessages]
  show Catalog.mk source sorted (some (Metadata.parse (textOf (bytesOf _)))) = _
  rw [textOf_bytesOf]

theorem stablySorted_mergeSort_keyLE (entries : List Entry) :
    StablySorted Entry.keyBytes entries (entries.mergeSort Entry.keyLE) :=
  stablySorted_mergeSort Entry.keyBytes (fun _ _ _ => List.le_trans) List.le_total entries

/-- Two entries in the wrong order change places. -/
theorem mergeSort_swap {a b : Entry} (h : Entry.keyLE b a = false) :
    [b, a].mergeSort Entry.keyLE = [a, b] := by
  simp [List.mergeSort, List.MergeSort.Internal.splitInTwo, h]

/-- **What is written is read back.**  Whenever entries are written at all, reading
the file gives the same entries, stably sorted by the bytes of their keys, and the
header that was generated for it. -/
theorem ofBytes_write {entries : List Entry} {metadata : Option Metadata} {revised : Timestamp}
    {source : String} {bytes : Bytes}
    (hentries : ∀ e ∈ entries, Storable e ∧ e.source = source)
    (hwrite : write entries metadata revised = .ok bytes) :
    ∃ sorted, StablySorted Entry.keyBytes entries sorted
      ∧ Catalog.ofBytes bytes source
        = .ok ⟨source, sorted, some (Metadata.parse
            (String.intercalate "\n" (Metadata.headerLinesOf metadata revised)))⟩ := by
  obtain ⟨hfits, rfl⟩ := write_eq_ok_iff.1 hwrite
  have hsorted := stablySorted_mergeSort_keyLE entries
  refine ⟨entries.mergeSort Entry.keyLE, hsorted, ?_⟩
  have hstorable : ∀ e ∈ entries.mergeSort Entry.keyLE, Storable e ∧ e.source = source :=
    fun e he => hentries e (hsorted.perm.mem_iff.1 he)
  unfold Catalog.ofBytes parse
  rw [mapError_eq_ok_iff, readAll_image .little hfits, ok_bind,
    catalogOf_recordsOf hstorable metadata revised]
  rfl

/-- Two entries, one of them with a plural, that come back in the other order. -/
theorem ofBytes_write_unsorted :
    ∃ bytes,
      write [⟨["b"], ["B"], "default"⟩, ⟨["a", "as"], ["x", "y"], "default"⟩] none
          ⟨2024, 3, 1, 9, 30, 15, 0⟩ = .ok bytes
        ∧ Catalog.ofBytes bytes "default"
          = .ok ⟨"default", [⟨["a", "as"], ["x", "y"], "default"⟩, ⟨["b"], ["B"], "default"⟩],
              some (Metadata.parse (String.intercalate "\n"
                (Metadata.headerLinesOf none ⟨2024, 3, 1, 9, 30, 15, 0⟩)))⟩ := by
  -- the sort is unfolded on names, so that only the comparison is computed
  generalize hb : (⟨["b"], ["B"], "default"⟩ : Entry) = b
  generalize ha : (⟨["a", "as"], ["x", "y"], "default"⟩ : Entry) = a
  have hsort : [b, a].mergeSort Entry.keyLE = [a, b] := by
    apply mergeSort_swap
    subst hb ha
    decide
  have hfits : FitsWords (recordsOf [a, b] none ⟨2024, 3, 1, 9, 30, 15, 0⟩) := by
    subst hb ha
    unfold FitsWords
    decide +kernel
  have hstorable : ∀ e ∈ [b, a], Storable e ∧ e.source = "default" := by
    subst hb ha
    rw [List.forall_mem_cons, List.forall_mem_singleton]
    exact ⟨⟨⟨by decide, by decide, by decide, by decide, by decide⟩, rfl⟩,
      ⟨by decide, by decide, by decide, by decide, by decide⟩, rfl⟩
  have hwrite : write [b, a] none ⟨2024, 3, 1, 9, 30, 15, 0⟩
      = .ok (image .little (recordsOf [a, b] none ⟨2024, 3, 1, 9, 30, 15, 0⟩)) := by
    rw [write_eq_ok_iff, hsort]
    exact ⟨hfits, rfl⟩
  obtain ⟨sorted, hsorted, hread⟩ := ofBytes_write hstorable hwrite
  have horder : sorted = [a, b] := by
    rw [← hsort]
    exact hsorted.eq (fun _ _ => List.le_antisymm) (stablySorted_mergeSort_keyLE [b, a])
  rw [horder] at hread
  exact ⟨_, hwrite, hread⟩

end MessageCatalog.Mo
