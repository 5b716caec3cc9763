/-
  MessageCatalog.Proofs.Mo.Images
  ────────────────────────────────
  **ONE FORMAT, TWO WRITERS, TWO BYTE ORDERS.**

  There are two ways to a file.  `image` takes records as they are and lays their strings
  out in one row, for either byte order.  `write` takes entries, sorts them, and lays out
  originals and translations apart, least significant bytes first:

      write    ── words ── originals │ translations      (positions in two rows)
      image    ── words ── originals   translations      (positions in one row)

  Both give the same bytes (`write_agrees_with_image`): what is written is the image of the
  header text and of one raw record for each entry.  And it does not matter in which byte
  order records are laid out, the reader makes the same catalog of them
  (`ofBytes_image_eq`), whatever bytes they are made of.
-/
import Mathlib.Data.List.Nodup
import MessageCatalog.Proofs.Mo.Rewriting

namespace MessageCatalog.Mo

open MessageCatalog.Text

/-! ## §1. The two writers. -/

/-- A record of strings, with zero bytes between them. -/
def Record.ofStrings (original translation : List String) : Record :=
  ⟨joinNul original, joinNul translation⟩

/-- The records that are laid out for sorted entries: the lines of the header without an
original, then for each entry its key, with its plural where it has one, and its variants. -/
def rawRecords (sorted : List Entry) (metadata : Option Metadata) (revised : Timestamp) :
    List Record :=
  Record.ofHeader (String.intercalate "\n" (Metadata.headerLinesOf metadata revised))
    :: sorted.map fun e => Record.ofStrings (e.key :: e.plural?.toList) e.translation

/-- The record that is written for an entry has the strings that are written of it. -/
theorem ofEntry_eq_ofStrings (e : Entry) :
    Record.ofEntry e = Record.ofStrings (e.key :: e.plural?.toList) e.translation := by
  rw [← ofEntry_written]
  unfold Record.ofEntry
  rw [originalOf_eq e.one_or_two_written]
  rfl

theorem recordsOf_eq_rawRecords (sorted : List Entry) (metadata : Option Metadata)
    (revised : Timestamp) :
    recordsOf sorted metadata revised = rawRecords sorted metadata revised := by
  unfold recordsOf rawRecords
  rw [List.map_congr_left fun e _ => ofEntry_eq_ofStrings e]
  rfl

/-- Where no key comes twice, entries are sorted the same in whichever order they are given. -/
theorem mergeSort_eq_of_perm {entries entries' : List Entry} (hkeys : (entries.map Entry.key).Nodup)
    (hperm : entries'.Perm entries) :
    entries'.mergeSort Entry.keyLE = entries.mergeSort Entry.keyLE := by
  -- keys that differ have different bytes
  have hbytes : (entries.map Entry.keyBytes).Nodup := by
    have hmap := List.Nodup.map (fun _ _ => bytesOf_injective) hkeys
    rw [List.map_map] at hmap
    exact hmap
  have hsorted := (stablySorted_mergeSort_keyLE entries').of_perm hbytes hperm
  exact hsorted.eq (fun _ _ => List.le_antisymm) (stablySorted_mergeSort_keyLE entries)

/-- **The two writers agree.**  Entries are written exactly when the image of their records can
be laid out, and what is written is this image; entries whose keys differ are written the same
in any order. -/
theorem write_agrees_with_image (entries : List Entry) (metadata : Option Metadata)
    (revised : Timestamp) :
    (∃ sorted, StablySorted Entry.keyBytes entries sorted
        ∧ ∀ bytes, write entries metadata revised = .ok bytes
          ↔ FitsWords (rawRecords sorted metadata revised)
            ∧ bytes = image .little (rawRecords sorted metadata revised))
      ∧ ((entries.map Entry.key).Nodup → ∀ entries' : List Entry, entries'.Perm entries →
          write entries' metadata revised = write entries metadata revised) := by
  constructor
  · refine ⟨entries.mergeSort Entry.keyLE, stablySorted_mergeSort_keyLE entries, fun bytes => ?_⟩
    rw [write_eq_ok_iff, recordsOf_eq_rawRecords]
  · intro hkeys entries' hperm
    unfold write
    rw [mergeSort_eq_of_perm hkeys hperm]

/-- Two entries, one of them with a plural, are written the same in either order: behind the
header, and the one with the lesser key first. -/
theorem write_agrees_with_image_swapped :
    ∃ bytes,
      write [⟨["b"], ["B"], "shop"⟩, ⟨["a", "as"], ["x", "y"], "shop"⟩] none
          ⟨2024, 3, 1, 9, 30, 15, 0⟩ = .ok bytes
        ∧ write [⟨["a", "as"], ["x", "y"], "shop"⟩, ⟨["b"], ["B"], "shop"⟩] none
          ⟨2024, 3, 1, 9, 30, 15, 0⟩ = .ok bytes
        ∧ bytes = image .little
          (Record.ofHeader (String.intercalate "\n"
              (Metadata.headerLinesOf none ⟨2024, 3, 1, 9, 30, 15, 0⟩))
            :: [⟨[0x61, 0, 0x61, 0x73], [0x78, 0, 0x79]⟩, ⟨[0x62], [0x42]⟩]) := by
  have hraw : Record.ofStrings ["a", "as"] ["x", "y"] = ⟨[0x61, 0, 0x61, 0x73], [0x78, 0, 0x79]⟩
      ∧ Record.ofStrings ["b"] ["B"] = ⟨[0x62], [0x42]⟩ := by
    decide +kernel
  generalize hb : (⟨["b"], ["B"], "shop"⟩ : Entry) = b
  generalize ha : (⟨["a", "as"], ["x", "y"], "shop"⟩ : Entry) = a
  have hkeys : ([b, a].map Entry.key).Nodup := by
    subst hb ha
    decide
  have hsort : [b, a].mergeSort Entry.keyLE = [a, b] := by
    apply mergeSort_swap
    subst hb ha
    decide
  obtain ⟨⟨sorted, hsorted, hwrite⟩, hswap⟩ :=
    write_agrees_with_image [b, a] none ⟨2024, 3, 1, 9, 30, 15, 0⟩
  have horder : sorted = [a, b] := by
    rw [← hsort]
    exact hsorted.eq (fun _ _ => List.le_antisymm) (stablySorted_mergeSort_keyLE [b, a])
  have hfits : FitsWords (rawRecords [a, b] none ⟨2024, 3, 1, 9, 30, 15, 0⟩) := by
    rw [← recordsOf_eq_rawRecords]
    apply fitsWords_recordsOf
    subst hb ha
    decide +kernel
  rw [horder] at hwrite
  have hbytes := (hwrite _).2 ⟨hfits, rfl⟩
  refine ⟨_, hbytes, (hswap hkeys [a, b] (List.Perm.swap b a [])).trans hbytes, ?_⟩
  subst hb ha
  rw [← hraw.1, ← hraw.2]
  rfl

/-! ## §2. The two byte orders. -/

/-- An image of less than four gibibytes has its numbers in words. -/
theorem fitsWords_of_length_image {records : List Record}
    (h : (image .little records).length < wordLimit) : FitsWords records := by
  apply fitsWords_of_lt
  rw [image_eq, List.length_append, length_words] at h
  exact h

theorem isMessage_eq (r : Record) :
    r.isMessage = decide (r.original ≠ [] ∧ r.translation ≠ []) := by
  unfold Record.isMessage
  cases r.original <;> cases r.translation <;> rfl

theorem isHeader_eq (r : Record) :
    r.isHeader = decide (r.original = [] ∧ r.translation ≠ []) := by
  unfold Record.isHeader
  cases r.original <;> cases r.translation <;> rfl

/-- The catalog of records, told by which of their strings are there. -/
theorem catalogOf_eq (source : String) (records : List Record) :
    catalogOf source records
      = ⟨source,
          (records.filter fun r => r.original ≠ [] ∧ r.translation ≠ []).map fun r =>
            ⟨textsOf r.original, textsOf r.translation, source⟩,
          headerOf ((records.filter fun r => r.original = [] ∧ r.translation ≠ []).map
            fun r => textOf r.translation)⟩ := by
  unfold catalogOf
  rw [metadataOf_eq, List.filter_congr fun r _ => isMessage_eq r,
    List.filter_congr fun r _ => isHeader_eq r, List.map_congr_left fun r _ => toEntry_eq source r]

/-- **Both byte orders are read alike.**  Records whose image has less than four gibibytes can be
laid out, and in either order they are read as one catalog: the records with an original and a
translation are its messages, and the translations without an original are its header. -/
theorem ofBytes_image_eq (records : List Record) (source : String) :
    ((image .little records).length < wordLimit → FitsWords records)
      ∧ (FitsWords records → ∀ order : ByteOrder,
          Catalog.ofBytes (image order records) source
            = .ok ⟨source,
                (records.filter fun r => r.original ≠ [] ∧ r.translation ≠ []).map fun r =>
                  ⟨textsOf r.original, textsOf r.translation, source⟩,
                headerOf ((records.filter fun r => r.original = [] ∧ r.translation ≠ []).map
                  fun r => textOf r.translation)⟩) := by
  refine ⟨fitsWords_of_length_image, fun hfits order => ?_⟩
  unfold Catalog.ofBytes parse
  rw [mapError_eq_ok_iff, readAll_image order hfits, ok_bind, catalogOf_eq]

/-- Records with zero bytes and a byte that starts no character, without a translation, without
any bytes, and two headers. -/
theorem ofBytes_image_eq_mixed :
    let records : List Record :=
      [.ofHeader "Language: cs", ⟨[0x61, 0, 0xFF], [0x62, 0]⟩, ⟨[0x63], []⟩, ⟨[], []⟩,
        .ofHeader "X-Team: Prague"]
    (image .little records).length < wordLimit
      ∧ ∀ order : ByteOrder, Catalog.ofBytes (image order records) "shop"
          = .ok ⟨"shop", [⟨["a", "\ufffd"], ["b", ""], "shop"⟩],
              headerOf ["Language: cs", "X-Team: Prague"]⟩ := by
  intro records
  have hlength : (image .little records).length < wordLimit := by
    decide +kernel
  obtain ⟨hfits, hread⟩ := ofBytes_image_eq records "shop"
  refine ⟨hlength, fun order => ?_⟩
  rw [hread (hfits hlength) order]
  rfl

end MessageCatalog.Mo
