/-
  MessageCatalog.Proofs.Mo.Layout
  ────────────────────────────────
  **A FILE THAT IS LAID OUT IS READ BACK.**

  `image` lays records out as words and, behind them, strings:

      7 header words │ 2 words for each original │ 2 for each translation │ strings

  All positions follow from one fact about strings that stand one after the other
  (`slotsFrom`, `blob`): the slot of the string with index `j` holds its length and
  the number of bytes in front of it.  With it the image is well formed and holds
  the records it was made from, as long as every number fits its word.
-/
import MessageCatalog.Mo.Writer
import MessageCatalog.Proofs.Mo.WellFormed

namespace MessageCatalog.Mo

open MessageCatalog.Text

/-! ## §1. Strings one after the other. -/

theorem blob_append (xs ys : List Bytes) : blob (xs ++ ys) = blob xs ++ blob ys :=
  List.flatMap_append

theorem blob_cons (text : Bytes) (texts : List Bytes) :
    blob (text :: texts) = text ++ 0 :: blob texts := by
  unfold blob
  rw [List.flatMap_cons, List.append_assoc]
  rfl

@[simp] theorem length_slotsFrom (offset : Nat) (texts : List Bytes) :
    (slotsFrom offset texts).length = texts.length := by
  induction texts generalizing offset with
  | nil => rfl
  | cons text texts ih =>
      unfold slotsFrom
      rw [List.length_cons, ih, List.length_cons]

/-- Slots of strings that follow others start where those end. -/
theorem slotsFrom_append (offset : Nat) (xs ys : List Bytes) :
    slotsFrom offset (xs ++ ys)
      = slotsFrom offset xs ++ slotsFrom (offset + (blob xs).length) ys := by
  induction xs generalizing offset with
  | nil => rfl
  | cons x xs ih =>
      have hlen : offset + (blob (x :: xs)).length = offset + x.length + 1 + (blob xs).length := by
        rw [blob_cons, List.length_append, List.length_cons]
        omega
      rw [List.cons_append, slotsFrom, slotsFrom, ih, hlen, List.cons_append]

/-- The slot of a string tells its length and how many bytes stand in front of it. -/
theorem getElem?_slotsFrom (offset : Nat) {texts : List Bytes} {j : Nat} {text : Bytes}
    (h : texts[j]? = some text) :
    (slotsFrom offset texts)[j]? = some (text.length, offset + (blob (texts.take j)).length) := by
  induction texts generalizing offset j with
  | nil => cases h
  | cons first texts ih =>
      cases j with
      | zero =>
          cases h
          rfl
      | succ j =>
          -- the first string and its zero byte stand in front of all others
          have hlen : (blob ((first :: texts).take (j + 1))).length
              = first.length + 1 + (blob (texts.take j)).length := by
            rw [List.take_succ_cons, blob_cons, List.length_append, List.length_cons]
            omega
          rw [slotsFrom, List.getElem?_cons_succ, ih (offset + first.length + 1) h, hlen]
          congr 2
          omega

/-- A string stands in the row behind those in front of it. -/
theorem blob_eq_append {texts : List Bytes} {j : Nat} {text : Bytes} (h : texts[j]? = some text) :
    blob texts = blob (texts.take j) ++ (text ++ 0 :: blob (texts.drop (j + 1))) := by
  obtain ⟨hj, rfl⟩ := List.getElem?_eq_some_iff.1 h
  have hsplit : texts = texts.take j ++ texts[j] :: texts.drop (j + 1) := by
    rw [← List.drop_eq_getElem_cons hj, List.take_append_drop]
  conv => lhs; rw [hsplit]
  rw [blob_append, blob_cons]

/-- Strings added to a pool one by one make the row and its slots. -/
theorem foldl_add (start : Nat) (pool : Pool) (texts : List Bytes) :
    texts.foldl (Pool.add start) pool
      = ⟨pool.slots ++ slotsFrom (start + pool.bytes.length) texts, pool.bytes ++ blob texts⟩ := by
  induction texts generalizing pool with
  | nil =>
      show pool = ⟨pool.slots ++ [], pool.bytes ++ []⟩
      rw [List.append_nil, List.append_nil]
  | cons text texts ih =>
      have hlen : start + (pool.bytes ++ text ++ [0]).length
          = start + pool.bytes.length + text.length + 1 := by
        rw [List.length_append, List.length_append, List.length_singleton]
        omega
      rw [List.foldl_cons, ih]
      unfold Pool.add
      rw [hlen, slotsFrom, blob_cons]
      simp

/-! ## §2. The words of an image. -/

/-- The strings of records in the order of the file. -/
def stringsOf (records : List Record) : List Bytes :=
  records.map Record.original ++ records.map Record.translation

/-- The two words of a slot. -/
def slotWords (slot : Nat × Nat) : List Nat :=
  [slot.1, slot.2]

/-- All words of an image: those of the header, and those of the slots. -/
def layoutWords (records : List Record) : List Nat :=
  let start := headerSize + 16 * records.length
  [magic, 0, records.length, headerSize, headerSize + 8 * records.length, 0, start]
    ++ (slotsFrom start (stringsOf records)).flatMap slotWords

/-- Every size and every offset in the image of the records fits a word. -/
def FitsWords (records : List Record) : Prop :=
  ∀ word ∈ layoutWords records, word < wordLimit

theorem le_of_mem_slotsFrom {offset : Nat} {texts : List Bytes} {slot : Nat × Nat}
    (h : slot ∈ slotsFrom offset texts) :
    slot.1 ≤ (blob texts).length ∧ slot.2 ≤ offset + (blob texts).length := by
  induction texts generalizing offset with
  | nil => cases h
  | cons text texts ih =>
      have hlen : (blob (text :: texts)).length = text.length + 1 + (blob texts).length := by
        rw [blob_cons, List.length_append, List.length_cons]
        omega
      rw [slotsFrom, List.mem_cons] at h
      rw [hlen]
      rcases h with rfl | h
      · show text.length ≤ _ ∧ offset ≤ _
        omega
      · have hrest := ih h
        omega

/-- An image that is shorter than the first number that fits no word can be written. -/
theorem fitsWords_of_lt {records : List Record}
    (h : headerSize + 16 * records.length + (blob (stringsOf records)).length < wordLimit) :
    FitsWords records := by
  have hmagic : magic < wordLimit := by decide
  intro word hword
  unfold layoutWords at hword
  rw [List.mem_append] at hword
  rcases hword with hheader | hslot
  · simp only [List.mem_cons, List.not_mem_nil, or_false] at hheader
    omega
  · obtain ⟨slot, hmem, hslot⟩ := List.mem_flatMap.1 hslot
    have hle := le_of_mem_slotsFrom hmem
    unfold slotWords at hslot
    simp only [List.mem_cons, List.not_mem_nil, or_false] at hslot
    omega

theorem image_eq (order : ByteOrder) (records : List Record) :
    image order records = order.encodeAll (layoutWords records) ++ blob (stringsOf records) := by
  unfold image
  simp only [foldl_add]
  have hstart : headerSize + 8 * records.length + 8 * records.length
      = headerSize + 16 * records.length := by
    omega
  rw [hstart]
  rfl

/-- The words of slots in a row, two for each. -/
theorem getElem?_flatMap_slotWords {slots : List (Nat × Nat)} {j : Nat} {slot : Nat × Nat}
    (h : slots[j]? = some slot) :
    (slots.flatMap slotWords)[2 * j]? = some slot.1
      ∧ (slots.flatMap slotWords)[2 * j + 1]? = some slot.2 := by
  induction slots generalizing j with
  | nil => cases h
  | cons first slots ih =>
      rw [List.flatMap_cons]
      cases j with
      | zero =>
          cases h
          exact ⟨rfl, rfl⟩
      | succ j => exact ih h

@[simp] theorem length_flatMap_slotWords (slots : List (Nat × Nat)) :
    (slots.flatMap slotWords).length = 2 * slots.length := by
  induction slots with
  | nil => rfl
  | cons slot slots ih =>
      rw [List.flatMap_cons, List.length_append, ih, List.length_cons]
      show 2 + 2 * slots.length = _
      omega

@[simp] theorem length_stringsOf (records : List Record) :
    (stringsOf records).length = 2 * records.length := by
  unfold stringsOf
  rw [List.length_append, List.length_map, List.length_map]
  omega

/-- The words of the slots stand behind the seven words of the header. -/
theorem getElem?_layoutWords {records : List Record} {k : Nat} {word : Nat}
    (h : ((slotsFrom (headerSize + 16 * records.length) (stringsOf records)).flatMap
      slotWords)[k]? = some word) :
    (layoutWords records)[7 + k]? = some word := by
  unfold layoutWords
  rw [List.getElem?_append_right (by show 7 ≤ _; omega)]
  show (_ : List Nat)[7 + k - 7]? = _
  rw [Nat.add_sub_cancel_left]
  exact h

/-- The strings of an image start right behind its words. -/
theorem length_words (order : ByteOrder) (records : List Record) :
    (order.encodeAll (layoutWords records)).length = headerSize + 16 * records.length := by
  unfold layoutWords headerSize
  rw [length_encodeAll, List.length_append, length_flatMap_slotWords, length_slotsFrom,
    length_stringsOf]
  show 4 * (7 + _) = _
  omega

/-! ## §3. Reading an image. -/

section Image

variable (order : ByteOrder) {records : List Record}

/-- A word of an image is the one that was laid out for its position. -/
theorem wordIn_image (hfits : FitsWords records) {k : Nat} {word : Nat}
    (h : (layoutWords records)[k]? = some word) :
    order.wordIn (image order records) (4 * k) = word := by
  rw [image_eq]
  exact wordIn_encodeAll_append order _ hfits h

/-- The slot with an index tells the length and the offset of its string. -/
theorem slot_image (hfits : FitsWords records) {j : Nat} {text : Bytes}
    (h : (stringsOf records)[j]? = some text) :
    order.wordIn (image order records) (headerSize + 8 * j) = text.length
      ∧ order.wordIn (image order records) (headerSize + 8 * j + 4)
        = headerSize + 16 * records.length + (blob ((stringsOf records).take j)).length := by
  obtain ⟨hlength, hoffset⟩ := getElem?_flatMap_slotWords
    (getElem?_slotsFrom (headerSize + 16 * records.length) h)
  -- a slot is two words, and seven words come before the first one
  have hlength' : headerSize + 8 * j = 4 * (7 + 2 * j) := by
    unfold headerSize
    omega
  have hoffset' : headerSize + 8 * j + 4 = 4 * (7 + (2 * j + 1)) := by
    unfold headerSize
    omega
  constructor
  · rw [hlength']
    exact wordIn_image order hfits (getElem?_layoutWords hlength)
  · rw [hoffset']
    exact wordIn_image order hfits (getElem?_layoutWords hoffset)

/-- A string stands in the image where its slot says, with a zero byte behind it. -/
theorem image_eq_append {j : Nat} {text : Bytes} (h : (stringsOf records)[j]? = some text) :
    ∃ first rest, image order records = first ++ (text ++ 0 :: rest)
      ∧ first.length
        = headerSize + 16 * records.length + (blob ((stringsOf records).take j)).length := by
  refine ⟨order.encodeAll (layoutWords records) ++ blob ((stringsOf records).take j),
    blob ((stringsOf records).drop (j + 1)), ?_, ?_⟩
  · rw [image_eq, blob_eq_append h, List.append_assoc]
  · rw [List.length_append, length_words]

/-- The slot with an index fits, and its string is read back. -/
theorem stringIn_image (hfits : FitsWords records) {j : Nat} {text : Bytes}
    (h : (stringsOf records)[j]? = some text) :
    SlotFits order (image order records) (headerSize + 8 * j)
      ∧ stringIn order (image order records) (headerSize + 8 * j) = text := by
  obtain ⟨hlength, hoffset⟩ := slot_image order hfits h
  obtain ⟨first, rest, himage, hfirst⟩ := image_eq_append order h
  have hj : j < 2 * records.length := by
    rw [← length_stringsOf]
    exact (List.getElem?_eq_some_iff.1 h).1
  have hsize : (image order records).length
      = first.length + text.length + (rest.length + 1) := by
    rw [himage, List.length_append, List.length_append, List.length_cons]
    omega
  refine ⟨⟨by omega, fun _ => by omega⟩, ?_⟩
  unfold stringIn
  rw [hlength, hoffset, ← hfirst, himage, List.extract_eq_take_drop, Nat.add_sub_cancel_left,
    List.drop_left, List.take_left]

/-- The header of an image tells the number of records and where the tables are. -/
theorem header_image (hfits : FitsWords records) :
    countIn order (image order records) = records.length
      ∧ order.wordIn (image order records) 12 = headerSize
      ∧ order.wordIn (image order records) 16 = headerSize + 8 * records.length :=
  ⟨wordIn_image order hfits (k := 2) rfl, wordIn_image order hfits (k := 3) rfl,
    wordIn_image order hfits (k := 4) rfl⟩

theorem signature_image : order.signature <+: image order records := by
  rw [image_eq]
  have hmagic : order.encode magic = order.signature := by
    cases order <;> decide
  unfold layoutWords ByteOrder.encodeAll
  rw [List.cons_append, List.flatMap_cons, hmagic, List.append_assoc]
  exact List.prefix_append _ _

/-- The strings of the record with an index, in the row of all strings. -/
theorem getElem?_stringsOf {i : Nat} {r : Record} (h : records[i]? = some r) :
    (stringsOf records)[i]? = some r.original
      ∧ (stringsOf records)[records.length + i]? = some r.translation := by
  have hi : i < records.length := (List.getElem?_eq_some_iff.1 h).1
  unfold stringsOf
  constructor
  · rw [List.getElem?_append_left (by rw [List.length_map]; exact hi), List.getElem?_map, h]
    rfl
  · rw [List.getElem?_append_right (by rw [List.length_map]; omega), List.length_map,
      Nat.add_sub_cancel_left, List.getElem?_map, h]
    rfl

/-- The pair with an index fits, and it is the record that was laid out there. -/
theorem recordIn_image (hfits : FitsWords records) {i : Nat} {r : Record}
    (h : records[i]? = some r) :
    PairFits order (image order records) i ∧ recordIn order (image order records) i = r := by
  obtain ⟨horiginal, htranslation⟩ := getElem?_stringsOf h
  obtain ⟨-, horiginals, htranslations⟩ := header_image order hfits
  -- in the row of all strings the originals come first, then the translations
  have hslot : originalSlot order (image order records) i = headerSize + 8 * i := by
    unfold originalSlot
    rw [horiginals]
  have hslot' : translationSlot order (image order records) i
      = headerSize + 8 * (records.length + i) := by
    unfold translationSlot
    rw [htranslations]
    omega
  obtain ⟨hfit, hread⟩ := stringIn_image order hfits horiginal
  obtain ⟨hfit', hread'⟩ := stringIn_image order hfits htranslation
  constructor
  · exact ⟨by rw [hslot]; exact hfit, by rw [hslot']; exact hfit'⟩
  · unfold recordIn
    rw [hslot, hslot', hread, hread']

theorem wellFormed_image (hfits : FitsWords records) :
    WellFormed order (image order records) := by
  refine ⟨?_, signature_image order, ?_⟩
  · rw [image_eq, List.length_append, length_words]
    omega
  · intro index hi
    rw [(header_image order hfits).1] at hi
    exact (recordIn_image order hfits (List.getElem?_eq_getElem hi)).1

/-- **The image of records is read back as these records**, in either byte order,
provided that every number in it fits its word. -/
theorem readAll_image (hfits : FitsWords records) :
    Record.readAll (image order records) = .ok records := by
  rw [readAll_eq_ok_iff]
  refine ⟨order, wellFormed_image order hfits, ?_⟩
  unfold recordsIn
  rw [(header_image order hfits).1]
  apply List.ext_getElem
  · rw [List.length_map, List.length_range]
  · intro i hi hi'
    rw [List.getElem_map, List.getElem_range,
      (recordIn_image order hfits (List.getElem?_eq_getElem hi)).2]

end Image

end MessageCatalog.Mo
