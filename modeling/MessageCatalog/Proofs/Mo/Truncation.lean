/-
  MessageCatalog.Proofs.Mo.Truncation
  ────────────────────────────────
  **A CATALOG THAT WAS CUT OFF.**

  A file says nothing new when bytes are added at its end: its words and its strings stay where
  they are.  So a beginning of a file that is read at all is read as the whole file is
  (`ofBytes_append`), and never as a smaller catalog.

  How much of a file must be there is a question of its last string.  In an image this is the
  translation of the last record, and nothing stands behind it but the zero byte that closes it:

      header │ slots │ strings … │ last translation │ 0
      ╰──────────────── must be there ─────────────╯

  Its slot is the last one of all.  A beginning that ends before the slot does not hold the
  slot, and a longer one that ends before the string does not hold the string; either way it is
  refused (`wellFormed_of_isPrefix_image_iff`).
-/
import MessageCatalog.Proofs.Mo.Rewriting

namespace MessageCatalog.Mo

open MessageCatalog.Text

/-! ## §1. Words and strings of a beginning. -/

section Beginning

variable (order : ByteOrder) {cut file : Bytes} (h : cut <+: file)

include h

theorem byteAt_of_isPrefix {position : Nat} (hin : position < cut.length) :
    byteAt cut position = byteAt file position := by
  obtain ⟨rest, rfl⟩ := h
  unfold byteAt
  rw [List.getD_eq_getElem?_getD, List.getD_eq_getElem?_getD, List.getElem?_append_left hin]

/-- A word that is there is the word of the whole file. -/
theorem wordIn_of_isPrefix {position : Nat} (hin : position + 4 ≤ cut.length) :
    order.wordIn cut position = order.wordIn file position := by
  have h₀ := byteAt_of_isPrefix h (show position < cut.length by omega)
  have h₁ := byteAt_of_isPrefix h (show position + 1 < cut.length by omega)
  have h₂ := byteAt_of_isPrefix h (show position + 2 < cut.length by omega)
  have h₃ := byteAt_of_isPrefix h (show position + 3 < cut.length by omega)
  cases order with
  | little | big => simp only [ByteOrder.wordIn, h₀, h₁, h₂, h₃]

/-- The two words of a slot that is there. -/
theorem slot_of_isPrefix {slot : Nat} (hin : slot + 8 ≤ cut.length) :
    order.wordIn cut slot = order.wordIn file slot
      ∧ order.wordIn cut (slot + 4) = order.wordIn file (slot + 4) :=
  ⟨wordIn_of_isPrefix order h (by omega), wordIn_of_isPrefix order h (by omega)⟩

variable {order}

theorem SlotFits.of_isPrefix {slot : Nat} (hfits : SlotFits order cut slot) :
    SlotFits order file slot := by
  obtain ⟨hlength, hoffset⟩ := slot_of_isPrefix order h hfits.slot_le
  have hle : cut.length ≤ file.length := h.length_le
  constructor
  · exact Nat.le_trans hfits.slot_le hle
  · intro hne
    rw [← hlength] at hne ⊢
    rw [← hoffset]
    exact Nat.le_trans (hfits.string_le hne) hle

/-- A string that is there is the string of the whole file. -/
theorem stringIn_of_isPrefix {slot : Nat} (hfits : SlotFits order cut slot) :
    stringIn order cut slot = stringIn order file slot := by
  obtain ⟨hlength, hoffset⟩ := slot_of_isPrefix order h hfits.slot_le
  by_cases hzero : order.wordIn cut slot = 0
  · rw [stringIn_of_zero hzero, stringIn_of_zero (hlength ▸ hzero)]
  · have hle := hfits.string_le hzero
    obtain ⟨rest, rfl⟩ := h
    unfold stringIn
    rw [← hlength, ← hoffset, List.extract_eq_take_drop, List.extract_eq_take_drop,
      Nat.add_sub_cancel_left, List.drop_append_of_le_length (by omega),
      List.take_append_of_le_length (by rw [List.length_drop]; omega)]

/-! ## §2. Catalogs of a beginning. -/

variable (order) in
/-- The header of a beginning tells what the header of the file tells. -/
theorem header_of_isPrefix (hle : headerSize ≤ cut.length) :
    countIn order cut = countIn order file
      ∧ (∀ index, originalSlot order cut index = originalSlot order file index)
      ∧ ∀ index, translationSlot order cut index = translationSlot order file index := by
  unfold headerSize at hle
  unfold countIn originalSlot translationSlot
  rw [wordIn_of_isPrefix order h (by omega), wordIn_of_isPrefix order h (by omega),
    wordIn_of_isPrefix order h (by omega)]
  exact ⟨rfl, fun _ => rfl, fun _ => rfl⟩

/-- **A beginning that is well formed has the records of the whole file.** -/
theorem WellFormed.of_isPrefix (hwf : WellFormed order cut) :
    WellFormed order file ∧ recordsIn order cut = recordsIn order file := by
  obtain ⟨hcount, horiginal, htranslation⟩ := header_of_isPrefix order h hwf.header_le
  refine ⟨⟨Nat.le_trans hwf.header_le h.length_le, hwf.signed.trans h, ?_⟩, ?_⟩
  · intro index hindex
    have hpair := hwf.pair_fits index (hcount ▸ hindex)
    exact ⟨horiginal index ▸ hpair.original.of_isPrefix h,
      htranslation index ▸ hpair.translation.of_isPrefix h⟩
  · unfold recordsIn
    rw [← hcount]
    refine List.map_congr_left fun index hindex => ?_
    have hpair := hwf.pair_fits index (List.mem_range.1 hindex)
    unfold recordIn
    rw [stringIn_of_isPrefix h hpair.original, stringIn_of_isPrefix h hpair.translation,
      horiginal, htranslation]

end Beginning

/-- **Bytes at the end of a file change nothing**: what is read of a file is read of every longer
one. -/
theorem ofBytes_append {file : Bytes} {source : String} {c : Catalog}
    (h : Catalog.ofBytes file source = .ok c) (rest : Bytes) :
    Catalog.ofBytes (file ++ rest) source = .ok c := by
  obtain ⟨order, hwf, rfl⟩ := ofBytes_eq_ok_iff.1 h
  obtain ⟨hwf', hrecords⟩ := hwf.of_isPrefix (List.prefix_append file rest)
  rw [ofBytes_eq_ok_iff]
  refine ⟨order, hwf', ?_⟩
  rw [← catalogOf_recordsIn hwf, ← catalogOf_recordsIn hwf', hrecords]

/-! ## §3. Images that were cut off. -/

/-- A file opens with the signature of one byte order only. -/
theorem eq_of_signature {order order' : ByteOrder} {file : Bytes} (h : order.signature <+: file)
    (h' : order'.signature <+: file) : order = order' := by
  have hsize (o : ByteOrder) : o.signature.length = 4 := by
    cases o <;> rfl
  have hlength : order.signature.length = order'.signature.length :=
    (hsize order).trans (hsize order').symm
  have hsame : order.signature = order'.signature :=
    (List.prefix_of_prefix_length_le h h' (Nat.le_of_eq hlength)).eq_of_length hlength
  cases order with
  | little =>
      cases order' with
      | little => rfl
      | big => exact absurd hsame (by decide)
  | big =>
      cases order' with
      | little => exact absurd hsame (by decide)
      | big => rfl

section Image

variable {order : ByteOrder} {records : List Record} {cut : Bytes}

/-- How long an image is, counted at one of its strings. -/
theorem length_image (order : ByteOrder) {j : Nat} {text : Bytes}
    (h : (stringsOf records)[j]? = some text) :
    (image order records).length
      = headerSize + 16 * records.length + (blob ((stringsOf records).take j)).length
        + text.length + 1 + (blob ((stringsOf records).drop (j + 1))).length := by
  rw [image_eq, List.length_append, length_words, blob_eq_append h, List.length_append,
    List.length_append, List.length_cons]
  omega

/-- Without its last byte an image still has all of its strings. -/
theorem slotFits_of_isPrefix_image (hfits : FitsWords records) (h : cut <+: image order records)
    (hlen : (image order records).length ≤ cut.length + 1) {j : Nat} {text : Bytes}
    (htext : (stringsOf records)[j]? = some text) :
    SlotFits order cut (headerSize + 8 * j) := by
  obtain ⟨hlength, hoffset⟩ := slot_image order hfits htext
  have hsize := length_image order htext
  have hj : j < 2 * records.length := by
    rw [← length_stringsOf]
    exact (List.getElem?_eq_some_iff.1 htext).1
  have hslot : headerSize + 8 * j + 8 ≤ cut.length := by omega
  obtain ⟨hlength', hoffset'⟩ := slot_of_isPrefix order h hslot
  refine ⟨hslot, fun _ => ?_⟩
  rw [hlength', hoffset', hlength, hoffset]
  omega

/-- A beginning that holds the last translation of an image, which has bytes, lacks at most the
zero byte behind it. -/
theorem length_le_of_slotFits {front : List Record} {last : Record}
    (hfits : FitsWords (front ++ [last])) (hlast : last.translation ≠ [])
    (h : cut <+: image order (front ++ [last]))
    (hslot : SlotFits order cut (headerSize + 8 * (2 * front.length + 1))) :
    (image order (front ++ [last])).length ≤ cut.length + 1 := by
  have htext : (stringsOf (front ++ [last]))[2 * front.length + 1]? = some last.translation := by
    have hat : (front ++ [last])[front.length]? = some last := by simp
    have htranslation := (getElem?_stringsOf hat).2
    rw [List.length_append, List.length_singleton] at htranslation
    rw [← htranslation]
    congr 1
    omega
  have hbehind : (stringsOf (front ++ [last])).drop (2 * front.length + 1 + 1) = [] := by
    apply List.drop_eq_nil_of_le
    rw [length_stringsOf, List.length_append, List.length_singleton]
    omega
  have hsize := length_image order htext
  rw [hbehind] at hsize
  -- the slot tells the same in the beginning as in the image
  obtain ⟨hlength, hoffset⟩ := slot_image order hfits htext
  obtain ⟨hlength', hoffset'⟩ := slot_of_isPrefix order h hslot.slot_le
  have hstring := hslot.string_le
  rw [hlength', hoffset', hlength, hoffset, Ne, List.length_eq_zero_iff] at hstring
  have hle := hstring hlast
  have hnil : (blob []).length = 0 := rfl
  omega

/-- **A beginning of an image is well formed exactly if it lacks at most the last byte**, provided
that the last translation is not empty. -/
theorem wellFormed_of_isPrefix_image_iff {order' : ByteOrder} {front : List Record} {last : Record}
    (hfits : FitsWords (front ++ [last])) (hlast : last.translation ≠ [])
    (h : cut <+: image order (front ++ [last])) :
    WellFormed order' cut
      ↔ order' = order ∧ (image order (front ++ [last])).length ≤ cut.length + 1 := by
  obtain ⟨hcount, horiginals, htranslations⟩ := header_image order hfits
  have hcount' : (front ++ [last]).length = front.length + 1 := by
    rw [List.length_append, List.length_singleton]
  rw [hcount'] at hcount htranslations
  constructor
  · -- the last slot of all has to be there, and its string with it
    intro hwf
    obtain rfl : order' = order := eq_of_signature (hwf.signed.trans h) (signature_image order)
    obtain ⟨hcountCut, -, htranslation⟩ := header_of_isPrefix order' h hwf.header_le
    have hpair := hwf.pair_fits front.length (by omega)
    refine ⟨rfl, length_le_of_slotFits hfits hlast h ?_⟩
    have hslot : headerSize + 8 * (2 * front.length + 1)
        = translationSlot order' cut front.length := by
      rw [htranslation]
      unfold translationSlot
      omega
    rw [hslot]
    exact hpair.translation
  · -- all slots and all strings are there, since only the byte behind the last string can be missing
    rintro ⟨rfl, hlen⟩
    have hwhole := wellFormed_image order' hfits
    have hheader : headerSize ≤ cut.length := by
      have hsize : (image order' (front ++ [last])).length
          = headerSize + 16 * (front.length + 1)
            + (blob (stringsOf (front ++ [last]))).length := by
        rw [image_eq, List.length_append, length_words, hcount']
      omega
    obtain ⟨hcountCut, horiginal, htranslation⟩ :=
      header_of_isPrefix order' h hheader
    refine ⟨hheader, ?_, ?_⟩
    · refine List.prefix_of_prefix_length_le hwhole.signed h (Nat.le_trans ?_ hheader)
      cases order' <;> decide
    · intro index hindex
      have hi : index < (front ++ [last]).length := by omega
      obtain ⟨hfirst, hsecond⟩ := getElem?_stringsOf (List.getElem?_eq_getElem hi)
      constructor
      · have hslot : originalSlot order' cut index = headerSize + 8 * index := by
          rw [horiginal]
          unfold originalSlot
          rw [horiginals]
        rw [hslot]
        exact slotFits_of_isPrefix_image hfits h hlen hfirst
      · have hslot : translationSlot order' cut index
            = headerSize + 8 * ((front ++ [last]).length + index) := by
          rw [htranslation]
          unfold translationSlot
          omega
        rw [hslot]
        exact slotFits_of_isPrefix_image hfits h hlen hsecond

end Image

/-! ## §4. Written catalogs that were cut off. -/

/-- The last record that is written is the last entry's, or the header's where there are no
entries. -/
theorem recordsOf_eq_append {sorted : List Entry}
    (hlast : ∀ e, sorted.getLast? = some e → String.intercalate "\x00" e.translation ≠ "")
    (metadata : Option Metadata) (revised : Timestamp) :
    ∃ front last, recordsOf sorted metadata revised = front ++ [last] ∧ last.translation ≠ [] := by
  rcases List.eq_nil_or_concat sorted with rfl | ⟨front, e, rfl⟩
  · refine ⟨[], Record.ofHeader (headerText metadata revised), rfl, ?_⟩
    show bytesOf (headerText metadata revised) ≠ []
    rw [Ne, bytesOf_eq_nil_iff]
    exact headerText_ne metadata revised
  · refine ⟨Record.ofHeader (headerText metadata revised) :: front.map Record.ofEntry,
      Record.ofEntry e, ?_, ?_⟩
    · unfold recordsOf
      rw [List.concat_eq_append, List.map_append, List.map_singleton, List.cons_append]
    · show joinNul e.translation ≠ []
      rw [joinNul_eq_bytesOf, Ne, bytesOf_eq_nil_iff]
      exact hlast e (by rw [List.concat_eq_append, List.getLast?_concat])

/-- A beginning of an image is read if it lacks at most the last byte, and refused otherwise. -/
theorem ofBytes_of_isPrefix_image {order : ByteOrder} {front : List Record} {last : Record}
    (hfits : FitsWords (front ++ [last])) (hlast : last.translation ≠ []) {cut : Bytes}
    (h : cut <+: image order (front ++ [last])) (source : String) :
    ((image order (front ++ [last])).length ≤ cut.length + 1
        → ∃ c, Catalog.ofBytes cut source = .ok c)
      ∧ (cut.length + 2 ≤ (image order (front ++ [last])).length
        → ∃ fault, Catalog.ofBytes cut source = .error (.invalidFormat none fault)) := by
  constructor
  · intro hlen
    have hwf := (wellFormed_of_isPrefix_image_iff hfits hlast h).2 ⟨rfl, hlen⟩
    exact ⟨_, ofBytes_eq_ok_iff.2 ⟨order, hwf, rfl⟩⟩
  · intro hlen
    cases hread : Catalog.ofBytes cut source with
    | error e =>
        obtain ⟨fault, rfl⟩ := exists_fault_of_ofBytes hread
        exact ⟨fault, rfl⟩
    | ok c =>
        obtain ⟨order', hwf, -⟩ := ofBytes_eq_ok_iff.1 hread
        obtain ⟨-, hle⟩ := (wellFormed_of_isPrefix_image_iff hfits hlast h).1 hwf
        omega

/-- **A catalog that was cut off is never read as a smaller one.**  If the last of the sorted
entries has a translation at all, the file without its last byte is still read as the catalog that
was written, and every shorter beginning of it is refused. -/
theorem ofBytes_take_write {entries sorted : List Entry} {metadata : Option Metadata}
    {revised : Timestamp} {bytes : Bytes} (hsorted : StablySorted Entry.keyBytes entries sorted)
    (hlast : ∀ e, sorted.getLast? = some e → String.intercalate "\x00" e.translation ≠ "")
    (hwrite : write entries metadata revised = .ok bytes) (source : String) :
    (∃ c, Catalog.ofBytes bytes source = .ok c
        ∧ Catalog.ofBytes (bytes.take (bytes.length - 1)) source = .ok c)
      ∧ ∀ size, size + 2 ≤ bytes.length →
          ∃ fault, Catalog.ofBytes (bytes.take size) source
            = .error (.invalidFormat none fault) := by
  have horder : sorted = entries.mergeSort Entry.keyLE :=
    hsorted.eq (fun _ _ => List.le_antisymm) (stablySorted_mergeSort_keyLE entries)
  obtain ⟨hfits, rfl⟩ := write_eq_ok_iff.1 hwrite
  rw [← horder] at hfits ⊢
  obtain ⟨front, last, hrecords, htranslation⟩ := recordsOf_eq_append hlast metadata revised
  rw [hrecords] at hfits ⊢
  generalize hfile : image .little (front ++ [last]) = file
  have hcut (size : Nat) : file.take size <+: image .little (front ++ [last]) := by
    rw [hfile]
    exact List.take_prefix size file
  have hread (size : Nat) := ofBytes_of_isPrefix_image hfits htranslation (hcut size) source
  simp only [hfile, List.length_take] at hread
  constructor
  · obtain ⟨c, hc⟩ := (hread (file.length - 1)).1 (by omega)
    refine ⟨c, ?_, hc⟩
    -- the byte that is missing changes nothing
    have hwhole := ofBytes_append hc (file.drop (file.length - 1))
    rw [List.take_append_drop] at hwhole
    exact hwhole
  · intro size hsize
    exact (hread size).2 (by omega)

/-- Two entries of a shop, given in the other order. -/
theorem ofBytes_take_write_shop :
    ∃ bytes,
      write [⟨["b"], ["B"], "shop"⟩, ⟨["a", "as"], ["x", "y"], "shop"⟩] none
          ⟨2024, 3, 1, 9, 30, 15, 0⟩ = .ok bytes
        ∧ (∃ c, Catalog.ofBytes bytes "shop" = .ok c
          ∧ Catalog.ofBytes (bytes.take (bytes.length - 1)) "shop" = .ok c)
        ∧ ∀ size, size + 2 ≤ bytes.length →
            ∃ fault, Catalog.ofBytes (bytes.take size) "shop"
              = .error (.invalidFormat none fault) := by
  -- the sort is unfolded on names, so that only the comparison is computed
  generalize hb : (⟨["b"], ["B"], "shop"⟩ : Entry) = b
  generalize ha : (⟨["a", "as"], ["x", "y"], "shop"⟩ : Entry) = a
  have hsort : [b, a].mergeSort Entry.keyLE = [a, b] := by
    apply mergeSort_swap
    subst hb ha
    decide
  have hfits : FitsWords (recordsOf [a, b] none ⟨2024, 3, 1, 9, 30, 15, 0⟩) := by
    apply fitsWords_recordsOf
    subst hb ha
    decide +kernel
  have hwrite : write [b, a] none ⟨2024, 3, 1, 9, 30, 15, 0⟩
      = .ok (image .little (recordsOf [a, b] none ⟨2024, 3, 1, 9, 30, 15, 0⟩)) := by
    rw [write_eq_ok_iff, hsort]
    exact ⟨hfits, rfl⟩
  have hsorted : StablySorted Entry.keyBytes [b, a] [a, b] := by
    rw [← hsort]
    exact stablySorted_mergeSort_keyLE [b, a]
  have hlast : ∀ e, [a, b].getLast? = some e
      → String.intercalate "\x00" e.translation ≠ "" := by
    intro e he
    obtain rfl : b = e := Option.some.inj he
    subst hb
    decide
  exact ⟨_, hwrite, ofBytes_take_write hsorted hlast hwrite "shop"⟩

end MessageCatalog.Mo
