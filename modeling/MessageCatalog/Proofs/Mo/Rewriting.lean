/-
  MessageCatalog.Proofs.Mo.Rewriting
  ────────────────────────────────
  **WHAT WAS READ CAN BE WRITTEN AND READ AGAIN.**

  Any entries whose records are messages come back as what their records hold
  (`ofBytes_of_write`).  An original keeps only its first and its last string on the
  way (`Entry.written`); entries that were read from a file are storable in this form,
  whatever their bytes were.
-/
import MessageCatalog.Proofs.Mo.RoundTrip
import MessageCatalog.Proofs.Text.Search

namespace MessageCatalog

open MessageCatalog.Text

/-! ## §1. What is written of an entry. -/

namespace Entry

/-- The entry with only its singular and its plural as original. -/
def written (e : Entry) : Entry :=
  ⟨e.key :: e.plural?.toList, e.translation, e.source⟩

@[simp] theorem key_written (e : Entry) : e.written.key = e.key := rfl

@[simp] theorem plural?_written (e : Entry) : e.written.plural? = e.plural? := by
  unfold written
  cases h : e.plural? with
  | none => rfl
  | some plural => rfl

@[simp] theorem translation_written (e : Entry) : e.written.translation = e.translation := rfl

@[simp] theorem source_written (e : Entry) : e.written.source = e.source := rfl

/-- One string or two are written of an original. -/
theorem one_or_two_written (e : Entry) :
    e.written.original.length = 1 ∨ e.written.original.length = 2 := by
  unfold written
  cases e.plural? with
  | none => exact Or.inl rfl
  | some plural => exact Or.inr rfl

theorem key_mem {e : Entry} (h : e.original ≠ []) : e.key ∈ e.original := by
  obtain ⟨original, translation, source⟩ := e
  cases original with
  | nil => exact absurd rfl h
  | cons key rest => exact List.mem_cons_self

theorem mem_of_plural? {e : Entry} {plural : String} (h : e.plural? = some plural) :
    plural ∈ e.original := by
  unfold plural? at h
  split at h
  next key next rest horiginal =>
    rw [Option.some.injEq] at h
    rw [horiginal, ← h]
    exact List.mem_cons_of_mem _ (List.getLast_mem _)
  next => cases h

theorem eq_singleton_of_plural? {e : Entry} (h : e.original ≠ []) (hnone : e.plural? = none) :
    e.original = [e.key] := by
  obtain ⟨original, translation, source⟩ := e
  match original, h, hnone with
  | [], h, _ => exact absurd rfl h
  | [key], _, _ => rfl

end Entry

namespace Mo

theorem ofEntry_written (e : Entry) : Record.ofEntry e.written = Record.ofEntry e := by
  unfold Record.ofEntry originalOf translationOf
  rw [Entry.plural?_written, Entry.key_written, Entry.translation_written]

/-! ## §2. Writing and reading. -/

/-- The records of messages make the catalog of what the records hold. -/
theorem catalogOf_recordsOf_messages {sorted : List Entry}
    (h : ∀ e ∈ sorted, (Record.ofEntry e).isMessage = true) (metadata : Option Metadata)
    (revised : Timestamp) (source : String) :
    catalogOf source (recordsOf sorted metadata revised)
      = ⟨source, sorted.map fun e => (Record.ofEntry e).toEntry source,
          some (Metadata.parse (headerText metadata revised))⟩ := by
  have hmessages : (sorted.map Record.ofEntry).filter Record.isMessage
      = sorted.map Record.ofEntry := by
    rw [List.filter_eq_self]
    intro r hr
    obtain ⟨e, he, rfl⟩ := List.mem_map.1 hr
    exact h e he
  -- a record is never both a message and a header
  have hheaders : (sorted.map Record.ofEntry).filter Record.isHeader = [] := by
    rw [List.filter_eq_nil_iff]
    intro r hr
    obtain ⟨e, he, rfl⟩ := List.mem_map.1 hr
    have hmessage := h e he
    unfold Record.isMessage at hmessage
    unfold Record.isHeader
    simp_all
  have hheader : (Record.ofHeader (headerText metadata revised)).isHeader = true := by
    have hbytes : bytesOf (headerText metadata revised) ≠ [] := by
      rw [Ne, bytesOf_eq_nil_iff]
      exact headerText_ne metadata revised
    unfold Record.isHeader Record.ofHeader
    simp [hbytes]
  unfold catalogOf recordsOf
  rw [metadataOf_eq, List.filter_cons_of_pos hheader, hheaders,
    List.filter_cons_of_neg (by unfold Record.isMessage Record.ofHeader; simp), hmessages,
    List.map_map]
  show Catalog.mk source _ (some (Metadata.parse (textOf (bytesOf _)))) = _
  rw [textOf_bytesOf]
  rfl

/-- **Entries come back as what their records hold**, in the order of their keys and
with the header that was generated for them. -/
theorem ofBytes_of_write {entries : List Entry} {metadata : Option Metadata}
    {revised : Timestamp} {bytes : Bytes}
    (hmessages : ∀ e ∈ entries, (Record.ofEntry e).isMessage = true)
    (hwrite : write entries metadata revised = .ok bytes) (source : String) :
    Catalog.ofBytes bytes source
      = .ok ⟨source,
          (entries.mergeSort Entry.keyLE).map fun e => (Record.ofEntry e).toEntry source,
          some (Metadata.parse (headerText metadata revised))⟩ := by
  obtain ⟨hfits, rfl⟩ := write_eq_ok_iff.1 hwrite
  have hsorted : ∀ e ∈ entries.mergeSort Entry.keyLE, (Record.ofEntry e).isMessage = true :=
    fun e he => hmessages e ((List.mergeSort_perm entries Entry.keyLE).mem_iff.1 he)
  unfold Catalog.ofBytes parse
  rw [mapError_eq_ok_iff, readAll_image .little hfits, ok_bind,
    catalogOf_recordsOf_messages hsorted metadata revised source]

/-- **Entries and a header that take less than four gibibytes can be written.** -/
theorem fitsWords_recordsOf {sorted : List Entry} {metadata : Option Metadata} {revised : Timestamp}
    (h : headerSize + 16 * (sorted.length + 1) + (headerText metadata revised).utf8ByteSize + 2
        + (blob (sorted.map originalOf)).length + (blob (sorted.map translationOf)).length
          < wordLimit) :
    FitsWords (recordsOf sorted metadata revised) := by
  apply fitsWords_of_lt
  have hheader : (bytesOf (headerText metadata revised)).length
      = (headerText metadata revised).utf8ByteSize := length_bytesOf _
  rw [length_recordsOf, stringsOf_recordsOf, blob_append, blob_cons, blob_cons]
  simp only [List.length_append, List.length_cons, List.length_nil, hheader]
  omega

/-! ## §3. The key of a record. -/

/-- The strings of a text that opens with a string and a zero character. -/
theorem splitNul_cons {first : String} (h : '\x00' ∉ first.toList) (rest : String) :
    splitNul (bytesOf first ++ 0 :: bytesOf rest) = first :: splitNul (bytesOf rest) := by
  have hbytes : bytesOf first ++ 0 :: bytesOf rest = bytesOf (first ++ "\x00" ++ rest) := by
    rw [bytesOf_append, bytesOf_append, List.append_assoc]
    rfl
  have hfree : ∀ c ∈ first.toList, (c == '\x00') = false := by
    intro c hc
    have hne : c ≠ '\x00' := by
      rintro rfl
      exact h hc
    simpa using hne
  unfold splitNul
  rw [hbytes]
  unfold bytesOf
  rw [Utf8.decode_encode, Utf8.decode_encode, String.toList_append, String.toList_append,
    List.append_assoc]
  show (pieces _ (first.toList ++ '\x00' :: rest.toList)).map String.ofList = _
  rw [pieces_append_cons hfree (by decide), List.map_cons, String.ofList_toList]

theorem splitNul_singleton {text : String} (h : '\x00' ∉ text.toList) :
    splitNul (bytesOf text) = [text] := by
  have hjoined : bytesOf text = joinNul [text] := by
    unfold joinNul
    rw [List.map_singleton, List.intercalate_singleton]
  rw [hjoined]
  exact splitNul_joinNul (by simp) (by simpa using h)

/-- A key without zero characters is read back, whatever the plural is. -/
theorem key_toEntry_ofEntry {e : Entry} (h : '\x00' ∉ e.key.toList) (source : String) :
    ((Record.ofEntry e).toEntry source).key = e.key := by
  show (splitNul (originalOf e)).headD "" = e.key
  unfold originalOf
  split
  next plural _ => rw [splitNul_cons h]; rfl
  next => rw [splitNul_singleton h]; rfl

/-! ## §4. Entries of files. -/

/-- The strings between zero bytes have none in them. -/
theorem not_mem_of_mem_splitNul {bytes : Bytes} {text : String} (h : text ∈ splitNul bytes) :
    '\x00' ∉ text.toList := by
  unfold splitNul at h
  obtain ⟨part, hpart, rfl⟩ := List.mem_map.1 h
  rw [String.toList_ofList]
  intro hmem
  have hfree := sep_eq_false_of_mem_pieces hpart '\x00' hmem
  exact absurd hfree (by decide)

theorem splitNul_ne_nil (bytes : Bytes) : splitNul bytes ≠ [] := by
  unfold splitNul
  rw [Ne, List.map_eq_nil_iff]
  exact pieces_ne_nil _ _

/-- The strings joined again are the text of the bytes. -/
theorem intercalate_splitNul (bytes : Bytes) :
    String.intercalate "\x00" (splitNul bytes) = textOf bytes := by
  have hid : String.toList ∘ String.ofList = id := by
    funext cs
    exact String.toList_ofList
  apply String.toList_injective
  unfold splitNul textOf
  rw [String.toList_intercalate, List.map_map, hid, List.map_id]
  exact (intercalate_pieces '\x00' _).trans String.toList_ofList.symm

theorem textOf_ne {bytes : Bytes} (h : bytes ≠ []) : textOf bytes ≠ "" := by
  cases bytes with
  | nil => exact absurd rfl h
  | cons b bs =>
      intro heq
      have hchars := congrArg String.toList heq
      unfold textOf at hchars
      rw [String.toList_ofList] at hchars
      cases hchars

/-- **An entry that was read can be stored** in the form in which it is written. -/
theorem storable_written_toEntry {r : Record} (h : r.isMessage = true) (source : String) :
    Storable (r.toEntry source).written := by
  unfold Record.isMessage at h
  simp only [Bool.and_eq_true, Bool.not_eq_true', List.isEmpty_eq_false_iff] at h
  obtain ⟨horiginal, htranslation⟩ := h
  have hne : (r.toEntry source).original ≠ [] := splitNul_ne_nil r.original
  have hfree : ∀ text ∈ (r.toEntry source).original, '\x00' ∉ text.toList :=
    fun text => not_mem_of_mem_splitNul
  refine ⟨Entry.one_or_two_written _, ?_, ?_, fun text => not_mem_of_mem_splitNul, ?_⟩
  · show ∀ text ∈ (r.toEntry source).key :: (r.toEntry source).plural?.toList, _
    rw [List.forall_mem_cons]
    refine ⟨hfree _ (Entry.key_mem hne), ?_⟩
    intro plural hplural
    exact hfree plural (Entry.mem_of_plural? (Option.mem_toList.1 hplural))
  · -- an original of one string is that string, and it has bytes
    intro hlen
    have hnone : (r.toEntry source).plural? = none := by
      unfold Entry.written at hlen
      cases hplural : (r.toEntry source).plural? with
      | none => rfl
      | some plural => rw [hplural] at hlen; cases hlen
    have hone : splitNul r.original = [(r.toEntry source).key] :=
      Entry.eq_singleton_of_plural? hne hnone
    have htext := intercalate_splitNul r.original
    rw [hone, String.intercalate_singleton] at htext
    rw [Entry.key_written, htext]
    exact textOf_ne horiginal
  · show String.intercalate "\x00" (splitNul r.translation) ≠ ""
    rw [intercalate_splitNul]
    exact textOf_ne htranslation

/-- An entry that can be stored as it is written comes back in this form. -/
theorem toEntry_ofEntry_of_storable {e : Entry} (h : Storable e.written) :
    (Record.ofEntry e).isMessage = true ∧ (Record.ofEntry e).toEntry e.source = e.written := by
  rw [← ofEntry_written]
  exact ⟨h.isMessage_ofEntry, h.toEntry_ofEntry⟩

end Mo

end MessageCatalog
