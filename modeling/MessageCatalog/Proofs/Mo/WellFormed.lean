/-
  MessageCatalog.Proofs.Mo.WellFormed
  ────────────────────────────────
  **WHICH FILES ARE CATALOGS.**

  A file is well formed for a byte order when its header is there, its first
  bytes are the signature of the order, and all slots of both tables fit: a slot
  lies in the file, and so does its string unless that is empty.  Nothing is asked
  of where tables and strings stand; they may overlap each other and the header.

      well formed for an order  →  the reader gives `catalogIn`
      for neither order         →  the reader refuses the file

  `WellFormed` and `catalogIn` speak about positions only, so every bound of the
  reader shows here as a bound on positions.
-/
import MessageCatalog.Mo.Reader
import MessageCatalog.Proofs.Mo.Words
import MessageCatalog.Proofs.Steps

namespace MessageCatalog.Mo

open MessageCatalog.Text

/-! ## §1. Well-formed files. -/

/-- The bytes that open a file of the given order. -/
def ByteOrder.signature : ByteOrder → Bytes
  | .little => [0xDE, 0x12, 0x04, 0x95]
  | .big => [0x95, 0x04, 0x12, 0xDE]

/-- The slot at a position lies in the file, and so does its string. -/
structure SlotFits (order : ByteOrder) (file : Bytes) (slot : Nat) : Prop where
  slot_le : slot + 8 ≤ file.length
  string_le : order.wordIn file slot ≠ 0 →
    order.wordIn file (slot + 4) + order.wordIn file slot ≤ file.length

/-- The number of pairs that the header tells. -/
def countIn (order : ByteOrder) (file : Bytes) : Nat :=
  order.wordIn file 8

/-- The position of the slot of an original. -/
def originalSlot (order : ByteOrder) (file : Bytes) (index : Nat) : Nat :=
  order.wordIn file 12 + 8 * index

/-- The position of the slot of a translation. -/
def translationSlot (order : ByteOrder) (file : Bytes) (index : Nat) : Nat :=
  order.wordIn file 16 + 8 * index

/-- Both slots with an index fit. -/
structure PairFits (order : ByteOrder) (file : Bytes) (index : Nat) : Prop where
  original : SlotFits order file (originalSlot order file index)
  translation : SlotFits order file (translationSlot order file index)

/-- A file that holds a catalog, with the bytes of its words in the given order. -/
structure WellFormed (order : ByteOrder) (file : Bytes) : Prop where
  header_le : headerSize ≤ file.length
  signed : order.signature <+: file
  pair_fits : ∀ index, index < countIn order file → PairFits order file index

/-! ## §2. What a file says. -/

/-- The string that the slot at a position describes. -/
def stringIn (order : ByteOrder) (file : Bytes) (slot : Nat) : Bytes :=
  file.extract (order.wordIn file (slot + 4))
    (order.wordIn file (slot + 4) + order.wordIn file slot)

/-- The pair with an index. -/
def recordIn (order : ByteOrder) (file : Bytes) (index : Nat) : Record where
  original := stringIn order file (originalSlot order file index)
  translation := stringIn order file (translationSlot order file index)

/-- The texts between the zero characters of a string. -/
def textsOf (bytes : Bytes) : List String :=
  ((Utf8.decode bytes).splitOn '\x00').map String.ofList

/-- The message with an index, where both lengths are not zero. -/
def messageIn? (order : ByteOrder) (file : Bytes) (source : String) (index : Nat) :
    Option Entry :=
  if order.wordIn file (originalSlot order file index) ≠ 0
      ∧ order.wordIn file (translationSlot order file index) ≠ 0 then
    some ⟨textsOf (recordIn order file index).original,
      textsOf (recordIn order file index).translation, source⟩
  else none

/-- The header text with an index, where only the original has no length. -/
def headerTextIn? (order : ByteOrder) (file : Bytes) (index : Nat) : Option String :=
  if order.wordIn file (originalSlot order file index) = 0
      ∧ order.wordIn file (translationSlot order file index) ≠ 0 then
    some (textOf (recordIn order file index).translation)
  else none

/-- The header that texts make when they are merged in order; none without texts. -/
def headerOf : List String → Option Metadata
  | [] => none
  | text :: texts => some ((text :: texts).foldl Metadata.mergeText .empty)

/-- The catalog that a file holds: its messages in the order of their indices, and
its header texts merged in the same order. -/
def catalogIn (order : ByteOrder) (file : Bytes) (source : String) : Catalog where
  source := source
  entries := (List.range (countIn order file)).filterMap (messageIn? order file source)
  metadata := headerOf ((List.range (countIn order file)).filterMap (headerTextIn? order file))

/-! ## §3. Reading the header. -/

/-- The header whose words stand where the format puts them. -/
def headerIn (order : ByteOrder) (file : Bytes) : Header where
  byteOrder := order
  revision := order.wordIn file 4
  count := countIn order file
  originals := order.wordIn file 12
  translations := order.wordIn file 16
  hashSize := order.wordIn file 20
  hashOffset := order.wordIn file 24

/-- The first word tells the byte order whose signature opens the file. -/
theorem ofMagic?_eq_some_iff {file : Bytes} {order : ByteOrder} (h : 4 ≤ file.length) :
    ByteOrder.ofMagic? (ByteOrder.little.wordIn file 0) = some order
      ↔ order.signature <+: file := by
  obtain ⟨a, b, c, d, rest, rfl⟩ : ∃ a b c d rest, file = a :: b :: c :: d :: rest := by
    match file, h with
    | a :: b :: c :: d :: rest, _ => exact ⟨a, b, c, d, rest, rfl⟩
  have hword : ByteOrder.little.wordIn (a :: b :: c :: d :: rest) 0
      = a.toNat + 0x100 * b.toNat + 0x10000 * c.toNat + 0x1000000 * d.toNat := rfl
  have ha := a.toNat_lt
  have hb := b.toNat_lt
  have hc := c.toNat_lt
  have hd := d.toNat_lt
  rw [hword]
  unfold ByteOrder.ofMagic? magic magicReversed
  -- four bytes below 256 are determined by their word
  cases order with
  | little | big =>
      simp only [ByteOrder.signature, List.cons_prefix_cons, List.nil_prefix, and_true,
        ← UInt8.toNat_inj, UInt8.reduceToNat]
      split
      · simp; omega
      · split
        · simp; omega
        · simp; omega

/-- A header that is there and opens with a signature has all its words. -/
theorem read_eq_of_signed {file : Bytes} {order : ByteOrder} (hle : headerSize ≤ file.length)
    (hsigned : order.signature <+: file) : Header.read file = .ok (headerIn order file) := by
  -- every word of the header lies in its bytes, so none of the reads can fail
  have hword (o : ByteOrder) (p : Nat) (hp : p + 4 ≤ headerSize) :
      wordAt o file p = .ok (o.wordIn file p) :=
    wordAt_eq_ok_iff.2 ⟨Nat.le_trans hp hle, rfl⟩
  have horder : ByteOrder.ofMagic? (ByteOrder.little.wordIn file 0) = some order :=
    (ofMagic?_eq_some_iff (Nat.le_trans (by decide) hle)).2 hsigned
  unfold Header.read
  rw [if_neg (Nat.not_lt.2 hle), hword .little 0 (by decide), ok_bind, horder]
  show (wordAt order file 4 >>= _) = _
  rw [hword order 4 (by decide), ok_bind, hword order 8 (by decide), ok_bind,
    hword order 12 (by decide), ok_bind, hword order 16 (by decide), ok_bind,
    hword order 20 (by decide), ok_bind, hword order 24 (by decide), ok_bind]
  rfl

/-- The header is read exactly when it is there and opens with a signature. -/
theorem read_eq_ok_iff {file : Bytes} {h : Header} :
    Header.read file = .ok h
      ↔ headerSize ≤ file.length ∧
        ∃ order : ByteOrder, order.signature <+: file ∧ h = headerIn order file := by
  constructor
  · intro hread
    by_cases hlen : file.length < headerSize
    · rw [Header.read, if_pos hlen] at hread
      cases hread
    · have hle : headerSize ≤ file.length := Nat.le_of_not_lt hlen
      have hsome : ∃ order, ByteOrder.ofMagic? (ByteOrder.little.wordIn file 0) = some order := by
        rw [Header.read, if_neg hlen, bind_eq_ok_iff] at hread
        obtain ⟨first, hfirst, hread⟩ := hread
        rw [(wordAt_eq_ok_iff.1 hfirst).2]
        split at hread
        next => cases hread
        next order horder => exact ⟨order, horder⟩
      obtain ⟨order, horder⟩ := hsome
      have hsigned : order.signature <+: file :=
        (ofMagic?_eq_some_iff (Nat.le_trans (by decide) hle)).1 horder
      rw [read_eq_of_signed hle hsigned] at hread
      cases hread
      exact ⟨hle, order, hsigned, rfl⟩
  · intro h
    obtain ⟨hle, order, hsigned, rfl⟩ := h
    exact read_eq_of_signed hle hsigned

/-! ## §4. Reading the records. -/

theorem slice?_eq_some_iff {file bytes : Bytes} {offset length : Nat} :
    slice? file offset length = some bytes
      ↔ offset + length ≤ file.length ∧ bytes = file.extract offset (offset + length) := by
  have hextract : file.extract offset (offset + length) = (file.drop offset).take length := by
    rw [List.extract_eq_take_drop, Nat.add_sub_cancel_left]
  rw [hextract]
  unfold slice?
  by_cases h : offset + length ≤ file.length
  · rw [if_pos h]
    simp [h, eq_comm]
  · rw [if_neg h]
    simp [h]

/-- A string without length is empty, wherever its slot points. -/
theorem stringIn_of_zero {order : ByteOrder} {file : Bytes} {slot : Nat}
    (h : order.wordIn file slot = 0) : stringIn order file slot = [] := by
  unfold stringIn
  rw [h, List.extract_eq_take_drop, Nat.add_zero, Nat.sub_self, List.take_zero]

/-- A string is read exactly when its slot fits. -/
theorem stringAt_eq_ok_iff {order : ByteOrder} {file bytes : Bytes} {slot : Nat} :
    stringAt order file slot = .ok bytes
      ↔ SlotFits order file slot ∧ bytes = stringIn order file slot := by
  unfold stringAt
  simp only [bind_eq_ok_iff, wordAt_eq_ok_iff]
  constructor
  · intro h
    obtain ⟨length, ⟨hlength, rfl⟩, offset, ⟨hoffset, rfl⟩, h⟩ := h
    split at h
    next hzero =>
      cases h
      exact ⟨⟨hoffset, fun hne => absurd hzero hne⟩, (stringIn_of_zero hzero).symm⟩
    next hne =>
      split at h
      next found hfound =>
        cases h
        obtain ⟨hle, rfl⟩ := slice?_eq_some_iff.1 hfound
        exact ⟨⟨hoffset, fun _ => hle⟩, rfl⟩
      next => cases h
  · intro h
    obtain ⟨⟨hslot, hstring⟩, rfl⟩ := h
    refine ⟨_, ⟨by omega, rfl⟩, _, ⟨hslot, rfl⟩, ?_⟩
    split
    next hzero => rw [stringIn_of_zero hzero]
    next hne =>
      rw [slice?_eq_some_iff.2 ⟨hstring hne, rfl⟩]
      rfl

/-- A pair is read exactly when both of its slots fit. -/
theorem recordAt_eq_ok_iff {order : ByteOrder} {file : Bytes} {index : Nat} {r : Record} :
    (headerIn order file).recordAt file index = .ok r
      ↔ PairFits order file index ∧ r = recordIn order file index := by
  unfold Header.recordAt
  simp only [bind_eq_ok_iff]
  constructor
  · intro h
    obtain ⟨original, horiginal, translation, htranslation, h⟩ := h
    cases h
    obtain ⟨hfits, rfl⟩ := stringAt_eq_ok_iff.1 horiginal
    obtain ⟨hfits', rfl⟩ := stringAt_eq_ok_iff.1 htranslation
    exact ⟨⟨hfits, hfits'⟩, rfl⟩
  · intro h
    obtain ⟨⟨hfits, hfits'⟩, rfl⟩ := h
    exact ⟨_, stringAt_eq_ok_iff.2 ⟨hfits, rfl⟩, _, stringAt_eq_ok_iff.2 ⟨hfits', rfl⟩, rfl⟩

/-- Pairs in a row are read exactly when the slots of all of them fit. -/
theorem recordsFrom_eq_ok_iff {order : ByteOrder} {file : Bytes} {count start : Nat}
    {records : List Record} :
    (headerIn order file).recordsFrom file count start = .ok records
      ↔ (∀ index ∈ List.range' start count, PairFits order file index)
        ∧ records = (List.range' start count).map (recordIn order file) := by
  -- on the number of pairs, as the reader does; the first index moves along
  induction count generalizing start records with
  | zero =>
      unfold Header.recordsFrom
      simp [eq_comm]
  | succ count ih =>
      unfold Header.recordsFrom
      simp only [bind_eq_ok_iff, recordAt_eq_ok_iff, ih]
      rw [List.range'_succ, List.forall_mem_cons, List.map_cons]
      constructor
      · intro h
        obtain ⟨first, ⟨hfirst, rfl⟩, rest, ⟨hrest, rfl⟩, h⟩ := h
        cases h
        exact ⟨⟨hfirst, hrest⟩, rfl⟩
      · intro h
        obtain ⟨⟨hfirst, hrest⟩, rfl⟩ := h
        exact ⟨_, ⟨hfirst, rfl⟩, _, ⟨hrest, rfl⟩, rfl⟩

/-- All pairs of a file in the order of their indices. -/
def recordsIn (order : ByteOrder) (file : Bytes) : List Record :=
  (List.range (countIn order file)).map (recordIn order file)

/-- The records of a file are read exactly when the file is well formed. -/
theorem readAll_eq_ok_iff {file : Bytes} {records : List Record} :
    Record.readAll file = .ok records
      ↔ ∃ order, WellFormed order file ∧ records = recordsIn order file := by
  unfold Record.readAll recordsIn
  rw [bind_eq_ok_iff]
  constructor
  · intro h
    obtain ⟨h, hheader, hrecords⟩ := h
    obtain ⟨hle, order, hsigned, rfl⟩ := read_eq_ok_iff.1 hheader
    obtain ⟨hfits, rfl⟩ := recordsFrom_eq_ok_iff.1 hrecords
    rw [← List.range_eq_range'] at hfits
    refine ⟨order, ⟨hle, hsigned, fun index hi => hfits index (List.mem_range.2 hi)⟩, ?_⟩
    rw [List.range_eq_range']
    rfl
  · intro h
    obtain ⟨order, hwf, rfl⟩ := h
    refine ⟨headerIn order file, read_eq_of_signed hwf.header_le hwf.signed, ?_⟩
    rw [recordsFrom_eq_ok_iff, ← List.range_eq_range']
    exact ⟨fun index hi => hwf.pair_fits index (List.mem_range.1 hi), rfl⟩

/-! ## §5. From the records to the catalog. -/

/-- A string that fits is as long as its slot says. -/
theorem length_stringIn {order : ByteOrder} {file : Bytes} {slot : Nat}
    (h : SlotFits order file slot) :
    (stringIn order file slot).length = order.wordIn file slot := by
  unfold stringIn
  rw [List.extract_eq_take_drop, List.length_take, List.length_drop, Nat.add_sub_cancel_left]
  -- an empty string may point anywhere, and has no bytes wherever that is
  by_cases hzero : order.wordIn file slot = 0
  · omega
  · have hle := h.string_le hzero
    omega

theorem isEmpty_stringIn {order : ByteOrder} {file : Bytes} {slot : Nat}
    (h : SlotFits order file slot) :
    (stringIn order file slot).isEmpty = decide (order.wordIn file slot = 0) := by
  rw [← length_stringIn h]
  cases stringIn order file slot with
  | nil => rfl
  | cons byte bytes => rfl

/-- Choosing among images and mapping them again is one partial map. -/
theorem map_filter_map_eq {α β γ : Type} {f : α → β} {p : β → Bool} {g : β → γ}
    {q : α → Option γ} {list : List α}
    (h : ∀ a ∈ list, q a = if p (f a) then some (g (f a)) else none) :
    ((list.map f).filter p).map g = list.filterMap q := by
  induction list with
  | nil => rfl
  | cons a list ih =>
      rw [List.forall_mem_cons] at h
      rw [List.map_cons, List.filter_cons, List.filterMap_cons, h.1, ← ih h.2]
      split
      next => rfl
      next => rfl

section Catalog

variable {order : ByteOrder} {file : Bytes} {index : Nat}

theorem isMessage_recordIn (h : PairFits order file index) :
    (recordIn order file index).isMessage
      = decide (order.wordIn file (originalSlot order file index) ≠ 0
          ∧ order.wordIn file (translationSlot order file index) ≠ 0) := by
  unfold Record.isMessage recordIn
  rw [isEmpty_stringIn h.original, isEmpty_stringIn h.translation]
  simp only [← decide_not, Bool.decide_and]

theorem isHeader_recordIn (h : PairFits order file index) :
    (recordIn order file index).isHeader
      = decide (order.wordIn file (originalSlot order file index) = 0
          ∧ order.wordIn file (translationSlot order file index) ≠ 0) := by
  unfold Record.isHeader recordIn
  rw [isEmpty_stringIn h.original, isEmpty_stringIn h.translation]
  simp only [← decide_not, Bool.decide_and]

/-- The message of a record is split where the texts of both strings have zero characters. -/
theorem toEntry_eq (source : String) (r : Record) :
    r.toEntry source = ⟨textsOf r.original, textsOf r.translation, source⟩ := by
  unfold Record.toEntry splitNul textsOf
  rw [pieces_eq_splitOnP, pieces_eq_splitOnP]
  rfl

/-- The messages among the records at some indices. -/
theorem messages_map_recordIn (source : String) {indices : List Nat}
    (h : ∀ index ∈ indices, PairFits order file index) :
    ((indices.map (recordIn order file)).filter Record.isMessage).map (Record.toEntry source)
      = indices.filterMap (messageIn? order file source) := by
  apply map_filter_map_eq
  intro index hi
  rw [isMessage_recordIn (h index hi), toEntry_eq]
  unfold messageIn?
  simp only [decide_eq_true_eq]

/-- The header texts among the records at some indices. -/
theorem headers_map_recordIn {indices : List Nat}
    (h : ∀ index ∈ indices, PairFits order file index) :
    ((indices.map (recordIn order file)).filter Record.isHeader).map
        (fun r => textOf r.translation)
      = indices.filterMap (headerTextIn? order file) := by
  apply map_filter_map_eq
  intro index hi
  rw [isHeader_recordIn (h index hi)]
  unfold headerTextIn?
  simp only [decide_eq_true_eq]

end Catalog

/-- Texts merged one after the other into what is there. -/
theorem foldl_mergeText_some (m : Metadata) (texts : List String) :
    texts.foldl (fun m text => some ((m.getD .empty).mergeText text)) (some m)
      = some (texts.foldl Metadata.mergeText m) := by
  induction texts generalizing m with
  | nil => rfl
  | cons text texts ih =>
      rw [List.foldl_cons, List.foldl_cons, ← ih]
      rfl

/-- The header of some records is the one that their header texts make. -/
theorem metadataOf_eq (records : List Record) :
    metadataOf records
      = headerOf ((records.filter Record.isHeader).map fun r => textOf r.translation) := by
  unfold metadataOf
  cases records.filter Record.isHeader with
  | nil => rfl
  | cons first rest =>
      rw [List.map_cons, headerOf, List.foldl_cons, List.foldl_cons, ← foldl_mergeText_some,
        List.foldl_map]
      rfl

/-- The records of a well-formed file make the catalog that it holds. -/
theorem catalogOf_recordsIn {order : ByteOrder} {file : Bytes} (h : WellFormed order file)
    (source : String) :
    catalogOf source (recordsIn order file) = catalogIn order file source := by
  have hfits : ∀ index ∈ List.range (countIn order file), PairFits order file index :=
    fun index hi => h.pair_fits index (List.mem_range.1 hi)
  unfold catalogOf catalogIn recordsIn
  rw [metadataOf_eq, messages_map_recordIn source hfits, headers_map_recordIn hfits]

/-! ## §6. Acceptance. -/

/-- The least number that 64 bits do not hold. -/
def positionLimit : Nat := 0x10000000000000000

/-- No sum of positions that the reader forms reaches the limit of 64 bits. -/
theorem positions_lt (order : ByteOrder) (file : Bytes) {index : Nat}
    (h : index < countIn order file) :
    originalSlot order file index + 8 < positionLimit
      ∧ translationSlot order file index + 8 < positionLimit
      ∧ ∀ slot, order.wordIn file (slot + 4) + order.wordIn file slot < positionLimit := by
  have hcount := wordIn_lt order file 8
  have horiginals := wordIn_lt order file 12
  have htranslations := wordIn_lt order file 16
  unfold wordLimit at hcount horiginals htranslations
  unfold countIn at h
  unfold originalSlot translationSlot positionLimit
  refine ⟨by omega, by omega, ?_⟩
  intro slot
  have hoffset := wordIn_lt order file (slot + 4)
  have hlength := wordIn_lt order file slot
  unfold wordLimit at hoffset hlength
  omega

/-- A catalog is read exactly from a well-formed file, and it is what the file holds. -/
theorem ofBytes_eq_ok_iff {file : Bytes} {source : String} {c : Catalog} :
    Catalog.ofBytes file source = .ok c
      ↔ ∃ order, WellFormed order file ∧ c = catalogIn order file source := by
  unfold Catalog.ofBytes parse
  rw [mapError_eq_ok_iff, bind_eq_ok_iff]
  constructor
  · intro h
    obtain ⟨records, hread, h⟩ := h
    cases h
    obtain ⟨order, hwf, rfl⟩ := readAll_eq_ok_iff.1 hread
    exact ⟨order, hwf, catalogOf_recordsIn hwf source⟩
  · intro h
    obtain ⟨order, hwf, rfl⟩ := h
    refine ⟨recordsIn order file, readAll_eq_ok_iff.2 ⟨order, hwf, rfl⟩, ?_⟩
    rw [catalogOf_recordsIn hwf]

/-- Bytes are refused with a fault of the bytes, and without a path. -/
theorem exists_fault_of_ofBytes {file : Bytes} {source : String} {e : CatalogError}
    (h : Catalog.ofBytes file source = .error e) : ∃ fault, e = .invalidFormat none fault := by
  unfold Catalog.ofBytes at h
  cases hparse : parse file source with
  | ok c =>
      rw [hparse] at h
      cases h
  | error fault =>
      rw [hparse] at h
      cases h
      exact ⟨fault, rfl⟩

/-- **The reader accepts exactly the well-formed files.**  What it gives is what
the file holds, all other files are refused without a path, and no position it
computes leaves the numbers of 64 bits. -/
theorem ofBytes_accepts_wellFormed (file : Bytes) (source : String) :
    (∀ c, Catalog.ofBytes file source = .ok c
        ↔ ∃ order, WellFormed order file ∧ c = catalogIn order file source)
      ∧ ((∃ fault, Catalog.ofBytes file source = .error (.invalidFormat none fault))
        ↔ ∀ order, ¬ WellFormed order file)
      ∧ ∀ order index, index < countIn order file →
          originalSlot order file index + 8 < positionLimit
            ∧ translationSlot order file index + 8 < positionLimit
            ∧ ∀ slot, order.wordIn file (slot + 4) + order.wordIn file slot < positionLimit := by
  refine ⟨fun c => ofBytes_eq_ok_iff, ⟨?_, ?_⟩, fun order index h => positions_lt order file h⟩
  · intro h order hwf
    obtain ⟨fault, hrefused⟩ := h
    have haccepted : Catalog.ofBytes file source = .ok (catalogIn order file source) :=
      ofBytes_eq_ok_iff.2 ⟨order, hwf, rfl⟩
    rw [hrefused] at haccepted
    cases haccepted
  · intro hnone
    cases h : Catalog.ofBytes file source with
    | ok c =>
        obtain ⟨order, hwf, -⟩ := ofBytes_eq_ok_iff.1 h
        exact absurd hwf (hnone order)
    | error e =>
        obtain ⟨fault, rfl⟩ := exists_fault_of_ofBytes h
        exact ⟨fault, rfl⟩

-- Both tables lie inside the header, and so does the only string.
example :
    Catalog.ofBytes [0xDE, 0x12, 0x04, 0x95, 0, 0, 0, 0, 1, 0, 0, 0, 20, 0, 0, 0, 20, 0, 0, 0,
      1, 0, 0, 0, 0, 0, 0, 0] "default"
      = .ok ⟨"default", [⟨["\ufffd"], ["\ufffd"], "default"⟩], none⟩ := by
  rfl

end MessageCatalog.Mo
