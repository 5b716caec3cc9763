/-
  MessageCatalog.Proofs.Mo.Searching
  ────────────────────────────────
  **OTHER READERS FIND EVERY MESSAGE.**

  Readers of binary catalogs do not load all records.  They look for a message by halves
  among the originals, and compare each original up to its first zero byte, so that the
  plural behind the key plays no part:

      slot │ length │ offset │ ─→ … k e y ⓪ p l u r a l ⓪ …
                                    └─┬─┘
                                 `termIn`

  This works because what is compared increases strictly along the table: the empty
  original of the header comes first, then the keys in the order of their bytes, each
  once (`searchable_write`).  A search by halves needs nothing else (`bisect_complete`).
-/
import MessageCatalog.Proofs.Catalog.Merging
import MessageCatalog.Proofs.Mo.Rewriting

namespace MessageCatalog

open MessageCatalog.Text

namespace Mo

/-! ## §1. Search by halves. -/

/-- The index of a term among those from `bottom` on and below `top`, looked for by halves. -/
def bisect (terms : Nat → Bytes) (sought : Bytes) (bottom top : Nat) : Option Nat :=
  if bottom < top then
    let middle := (bottom + top) / 2
    if sought < terms middle then bisect terms sought bottom middle
    else if terms middle < sought then bisect terms sought (middle + 1) top
    else some middle
  else none
termination_by top - bottom
decreasing_by all_goals omega

/-- Strings of which neither is less are the same. -/
theorem eq_of_not_lt {xs ys : Bytes} (h : ¬ xs < ys) (h' : ¬ ys < xs) : xs = ys :=
  List.le_antisymm (List.not_lt.1 h') (List.not_lt.1 h)

section Bisect

variable {terms : Nat → Bytes} {sought : Bytes} {bottom top index : Nat}

/-- What is found is what was sought, whatever the order of the terms. -/
theorem bisect_sound (h : bisect terms sought bottom top = some index) :
    bottom ≤ index ∧ index < top ∧ terms index = sought := by
  fun_induction bisect terms sought bottom top with
  | case1 bottom top hrange middle hless ih =>
      have hmiddle : middle = (bottom + top) / 2 := rfl
      obtain ⟨hlow, hhigh, hterm⟩ := ih h
      exact ⟨hlow, by omega, hterm⟩
  | case2 bottom top hrange middle hless hgreater ih =>
      have hmiddle : middle = (bottom + top) / 2 := rfl
      obtain ⟨hlow, hhigh, hterm⟩ := ih h
      exact ⟨by omega, hhigh, hterm⟩
  | case3 bottom top hrange middle hless hgreater =>
      have hmiddle : middle = (bottom + top) / 2 := rfl
      have hfound : middle = index := Option.some.inj h
      have hterm : sought = terms middle := eq_of_not_lt hless hgreater
      rw [← hfound]
      exact ⟨by omega, by omega, hterm.symm⟩
  | case4 => cases h

/-- **Among terms that increase strictly, a term that is there is found**, at its index. -/
theorem bisect_complete
    (hincreasing : ∀ i j, bottom ≤ i → i < j → j < top → terms i < terms j)
    (hlow : bottom ≤ index) (hhigh : index < top) :
    bisect terms (terms index) bottom top = some index := by
  fun_induction bisect terms (terms index) bottom top with
  | case1 bottom top hrange middle hless ih =>
      have hmiddle : middle = (bottom + top) / 2 := rfl
      -- the term in the middle is greater, so what is sought stands before it
      have hbefore : index < middle := by
        rcases Nat.lt_trichotomy index middle with hlt | heq | hgt
        · exact hlt
        · rw [heq] at hless
          exact absurd hless (List.lt_irrefl _)
        · have hterm := hincreasing middle index (by omega) hgt hhigh
          exact absurd (List.lt_trans hless hterm) (List.lt_irrefl _)
      exact ih (fun i j hi hij hj => hincreasing i j hi hij (by omega)) hlow hbefore
  | case2 bottom top hrange middle hless hgreater ih =>
      have hmiddle : middle = (bottom + top) / 2 := rfl
      have hbehind : middle < index := by
        rcases Nat.lt_trichotomy index middle with hlt | heq | hgt
        · have hterm := hincreasing index middle hlow hlt (by omega)
          exact absurd hterm hless
        · rw [heq] at hgreater
          exact absurd hgreater (List.lt_irrefl _)
        · exact hgt
      exact ih (fun i j hi hij hj => hincreasing i j (by omega) hij hj) (by omega) hhigh
  | case3 bottom top hrange middle hless hgreater =>
      have hmiddle : middle = (bottom + top) / 2 := rfl
      rcases Nat.lt_trichotomy index middle with hlt | heq | hgt
      · exact absurd (hincreasing index middle hlow hlt (by omega)) hless
      · rw [heq]
      · exact absurd (hincreasing middle index (by omega) hgt hhigh) hgreater
  | case4 bottom top hrange => omega

end Bisect

/-! ## §2. A reader that searches. -/

/-- A string up to its first zero byte. -/
def upToZero (bytes : Bytes) : Bytes :=
  bytes.takeWhile (· != 0)

/-- What a reader compares at an index: the bytes from the offset in the slot of the original
up to the first zero byte. -/
def termIn (order : ByteOrder) (file : Bytes) (index : Nat) : Bytes :=
  upToZero (file.drop (order.wordIn file (originalSlot order file index + 4)))

/-- The translation that a reader finds by searching the originals. -/
def findIn (order : ByteOrder) (file : Bytes) (sought : Bytes) : Option Bytes :=
  (bisect (termIn order file) sought 0 (countIn order file)).map fun index =>
    (recordIn order file index).translation

/-- A file whose originals can be searched by halves. -/
structure Searchable (order : ByteOrder) (file : Bytes) : Prop where
  wellFormed : WellFormed order file
  /-- There is no hash table that readers would ask first. -/
  unhashed : order.wordIn file 20 = 0
  /-- The first original is the empty one of the header. -/
  opens : 0 < countIn order file ∧ (recordIn order file 0).original = []
  /-- What is compared is the string of the slot up to its first zero byte. -/
  closed : ∀ i < countIn order file,
    termIn order file i = upToZero (recordIn order file i).original
  increasing : ∀ i j, i < j → j < countIn order file → termIn order file i < termIn order file j

section Reader

variable {order : ByteOrder} {file : Bytes}

/-- A term that stands in the table leads to the translation with its index. -/
theorem findIn_termIn (h : Searchable order file) {index : Nat}
    (hindex : index < countIn order file) :
    findIn order file (termIn order file index) = some (recordIn order file index).translation := by
  unfold findIn
  rw [bisect_complete (fun i j _ hij hj => h.increasing i j hij hj) (Nat.zero_le _) hindex,
    Option.map_some]

/-- Nothing is found but what stands in the table. -/
theorem findIn_eq_none {sought : Bytes}
    (h : ∀ index < countIn order file, termIn order file index ≠ sought) :
    findIn order file sought = none := by
  unfold findIn
  cases hbisect : bisect (termIn order file) sought 0 (countIn order file) with
  | none => rfl
  | some index =>
      obtain ⟨-, hindex, hterm⟩ := bisect_sound hbisect
      exact absurd hterm (h index hindex)

end Reader

/-! ## §3. Terms of an image. -/

theorem upToZero_append (text rest : Bytes) : upToZero (text ++ 0 :: rest) = upToZero text := by
  unfold upToZero
  induction text with
  | nil => rfl
  | cons b text ih =>
      rw [List.cons_append, List.takeWhile_cons, List.takeWhile_cons, ih]

theorem upToZero_of_not_mem {bytes : Bytes} (h : 0 ∉ bytes) : upToZero bytes = bytes := by
  unfold upToZero
  induction bytes with
  | nil => rfl
  | cons b bytes ih =>
      rw [List.mem_cons, not_or] at h
      have hb : (b != 0) = true := bne_iff_ne.2 (Ne.symm h.1)
      rw [List.takeWhile_cons, if_pos hb, ih h.2]

/-- At an index of an image stands the original of the record up to its first zero byte. -/
theorem termIn_image (order : ByteOrder) {records : List Record} (hfits : FitsWords records)
    {i : Nat} {r : Record} (h : records[i]? = some r) :
    termIn order (image order records) i = upToZero r.original := by
  obtain ⟨horiginal, -⟩ := getElem?_stringsOf h
  obtain ⟨-, horiginals, -⟩ := header_image order hfits
  obtain ⟨-, hoffset⟩ := slot_image order hfits horiginal
  obtain ⟨first, rest, himage, hfirst⟩ := image_eq_append order horiginal
  unfold termIn originalSlot
  rw [horiginals, hoffset, ← hfirst, himage, List.drop_left, upToZero_append]

/-- **An image is searchable** when the originals of its records increase up to their first
zero bytes, from an empty one on. -/
theorem searchable_image (order : ByteOrder) {header : Record} {records : List Record}
    (hfits : FitsWords (header :: records)) (hheader : header.original = [])
    (hincreasing : (header :: records).Pairwise fun r r' =>
      upToZero r.original < upToZero r'.original) :
    Searchable order (image order (header :: records)) := by
  have hcount : countIn order (image order (header :: records)) = (header :: records).length :=
    (header_image order hfits).1
  have hterm : ∀ i, (hi : i < (header :: records).length) →
      termIn order (image order (header :: records)) i
        = upToZero ((header :: records)[i]).original :=
    fun i hi => termIn_image order hfits (List.getElem?_eq_getElem hi)
  have hrecord : ∀ i, (hi : i < (header :: records).length) →
      recordIn order (image order (header :: records)) i = (header :: records)[i] :=
    fun i hi => (recordIn_image order hfits (List.getElem?_eq_getElem hi)).2
  refine ⟨wellFormed_image order hfits, wordIn_image order hfits (k := 5) rfl, ?_, ?_, ?_⟩
  · have hzero : 0 < (header :: records).length := Nat.succ_pos _
    rw [hcount, hrecord 0 hzero]
    exact ⟨hzero, hheader⟩
  · intro i hi
    rw [hcount] at hi
    rw [hterm i hi, hrecord i hi]
  · intro i j hij hj
    rw [hcount] at hj
    rw [hterm i (by omega), hterm j hj]
    exact List.pairwise_iff_getElem.1 hincreasing i j (by omega) hj hij

/-! ## §4. The entries of a source. -/

/-- The part of an original that is compared is the key. -/
theorem upToZero_originalOf {e : Entry} (h : '\x00' ∉ e.key.toList) :
    upToZero (originalOf e) = e.keyBytes := by
  have hkey : upToZero (bytesOf e.key) = e.keyBytes := upToZero_of_not_mem (zero_not_mem_bytesOf h)
  unfold originalOf
  cases e.plural? with
  | none => exact hkey
  | some plural => exact (upToZero_append _ _).trans hkey

/-- Where no key comes twice, the keys of the sorted entries increase strictly. -/
theorem keyBytes_lt_mergeSort {entries : List Entry} (h : (entries.map Entry.key).Nodup) :
    (entries.mergeSort Entry.keyLE).Pairwise fun e e' => e.keyBytes < e'.keyBytes := by
  have hsorted := stablySorted_mergeSort_keyLE entries
  have hdistinct : (entries.mergeSort Entry.keyLE).Pairwise fun e e' => e.key ≠ e'.key :=
    List.pairwise_map.1 ((hsorted.perm.map Entry.key).nodup_iff.2 h)
  refine hsorted.ordered.imp₂ ?_ hdistinct
  intro e e' hle hne
  by_contra hlt
  exact hne (bytesOf_injective (List.le_antisymm hle (List.not_lt.1 hlt)))

/-- Originals increase from the header on, if the keys are there and increase. -/
theorem increasing_recordsOf {sorted : List Entry}
    (hkeys : ∀ e ∈ sorted, e.key ≠ "" ∧ '\x00' ∉ e.key.toList)
    (hsorted : sorted.Pairwise fun e e' => e.keyBytes < e'.keyBytes)
    (metadata : Option Metadata) (revised : Timestamp) :
    (recordsOf sorted metadata revised).Pairwise fun r r' =>
      upToZero r.original < upToZero r'.original := by
  have hterm : ∀ e ∈ sorted, upToZero (Record.ofEntry e).original = e.keyBytes :=
    fun e he => upToZero_originalOf (hkeys e he).2
  unfold recordsOf
  rw [List.pairwise_cons, List.pairwise_map]
  constructor
  · intro r hr
    obtain ⟨e, he, rfl⟩ := List.mem_map.1 hr
    rw [hterm e he]
    show [] < e.keyBytes
    have hne : e.keyBytes ≠ [] := fun hnil => (hkeys e he).1 (bytesOf_eq_nil_iff.1 hnil)
    obtain ⟨b, bs, hbytes⟩ := List.exists_cons_of_ne_nil hne
    rw [hbytes]
    exact List.nil_lt_cons b bs
  · refine hsorted.imp_of_mem ?_
    intro e e' he he' hlt
    rw [hterm e he, hterm e' he']
    exact hlt

/-- A search finds the translation of the entry with the key, and nothing without one. -/
theorem findIn_image_recordsOf {sorted : List Entry} {metadata : Option Metadata}
    {revised : Timestamp} {sought : Bytes}
    (hfits : FitsWords (recordsOf sorted metadata revised))
    (hkeys : ∀ e ∈ sorted, e.key ≠ "" ∧ '\x00' ∉ e.key.toList)
    (hsearchable : Searchable .little (image .little (recordsOf sorted metadata revised)))
    (hsought : sought ≠ []) :
    (∀ e ∈ sorted, e.keyBytes = sought →
        findIn .little (image .little (recordsOf sorted metadata revised)) sought
          = some (translationOf e))
      ∧ ((∀ e ∈ sorted, e.keyBytes ≠ sought) →
        findIn .little (image .little (recordsOf sorted metadata revised)) sought = none) := by
  have hcount := (header_image .little hfits).1
  constructor
  · intro e he hkey
    obtain ⟨i, hi⟩ := List.mem_iff_getElem?.1 he
    have hrecord : (recordsOf sorted metadata revised)[i + 1]? = some (Record.ofEntry e) := by
      unfold recordsOf
      rw [List.getElem?_cons_succ, List.getElem?_map, hi, Option.map_some]
    have hindex : i + 1 < countIn .little (image .little (recordsOf sorted metadata revised)) := by
      rw [hcount]
      exact (List.getElem?_eq_some_iff.1 hrecord).1
    have hterm : termIn .little (image .little (recordsOf sorted metadata revised)) (i + 1)
        = sought := by
      rw [termIn_image .little hfits hrecord, ← hkey]
      exact upToZero_originalOf (hkeys e he).2
    have hfind := findIn_termIn hsearchable hindex
    rw [hterm, (recordIn_image .little hfits hrecord).2] at hfind
    exact hfind
  · intro hnone
    apply findIn_eq_none
    intro i hi
    rw [hcount] at hi
    rw [termIn_image .little hfits (List.getElem?_eq_getElem hi)]
    rcases List.mem_cons.1 (List.getElem_mem hi) with hheader | hentry
    · rw [hheader]
      exact fun hnil => hsought hnil.symm
    · obtain ⟨e, he, hrecord⟩ := List.mem_map.1 hentry
      rw [← hrecord]
      show upToZero (originalOf e) ≠ sought
      rw [upToZero_originalOf (hkeys e he).2]
      exact hnone e he

/-- **Readers that search find every message of a source.**  Whatever the dictionary, and in
whichever order its entries of the source are handed over, the file that is written for them
can be searched, and a search finds the variants of the entry with the key, joined by zero
bytes, and nothing where the source has no such key. -/
theorem findIn_write {d : Dictionary} {source : String} {entries : List Entry}
    {metadata : Option Metadata} {revised : Timestamp} {bytes : Bytes}
    (hentries : entries.Perm (d.entriesFor source))
    (hkeys : ∀ e ∈ d.entriesFor source, e.key ≠ "" ∧ '\x00' ∉ e.key.toList)
    (hwrite : write entries metadata revised = .ok bytes) :
    Searchable .little bytes
      ∧ countIn .little bytes = (d.entriesFor source).length + 1
      ∧ ∀ sought : Bytes, sought ≠ [] →
        (∀ e ∈ d.entriesFor source, e.keyBytes = sought →
            findIn .little bytes sought = some (joinNul e.translation))
          ∧ ((∀ e ∈ d.entriesFor source, e.keyBytes ≠ sought) →
            findIn .little bytes sought = none) := by
  obtain ⟨hfits, rfl⟩ := write_eq_ok_iff.1 hwrite
  have hperm : (entries.mergeSort Entry.keyLE).Perm (d.entriesFor source) :=
    (List.mergeSort_perm entries Entry.keyLE).trans hentries
  have hdistinct : (entries.map Entry.key).Nodup :=
    (hentries.map Entry.key).nodup_iff.2 (Dictionary.nodup_keys_entriesFor d source)
  have hsorted := keyBytes_lt_mergeSort hdistinct
  have hmember : ∀ e ∈ entries.mergeSort Entry.keyLE, e.key ≠ "" ∧ '\x00' ∉ e.key.toList :=
    fun e he => hkeys e (hperm.mem_iff.1 he)
  have hsearchable := searchable_image .little hfits rfl
    (increasing_recordsOf hmember hsorted metadata revised)
  refine ⟨hsearchable, ?_, ?_⟩
  · rw [(header_image .little hfits).1, length_recordsOf, hperm.length_eq]
  · intro sought hsought
    obtain ⟨hfound, hnone⟩ := findIn_image_recordsOf hfits hmember hsearchable hsought
    constructor
    · intro e he hkey
      exact hfound e (hperm.mem_iff.2 he) hkey
    · intro habsent
      exact hnone fun e he => habsent e (hperm.mem_iff.1 he)

/-- A dictionary with two messages of a shop, in the wrong order, and one of another source. -/
def shopDictionary : Dictionary :=
  ((Dictionary.empty.insert ⟨["b"], ["B"], "shop"⟩).insert ⟨["c"], ["C"], "admin"⟩).insert
    ⟨["a", "as"], ["x", "y"], "shop"⟩

/-- A message with a plural is found under its singular, and one of another source is not. -/
theorem findIn_write_shop :
    ∃ bytes,
      write (shopDictionary.entriesFor "shop") none ⟨2024, 3, 1, 9, 30, 15, 0⟩ = .ok bytes
        ∧ findIn .little bytes (bytesOf "a") = some (joinNul ["x", "y"])
        ∧ findIn .little bytes (bytesOf "c") = none := by
  have hentries : shopDictionary.entriesFor "shop"
      = [⟨["b"], ["B"], "shop"⟩, ⟨["a", "as"], ["x", "y"], "shop"⟩] := by
    decide +kernel
  have hkeys : ∀ e ∈ shopDictionary.entriesFor "shop", e.key ≠ "" ∧ '\x00' ∉ e.key.toList := by
    decide +kernel
  have hwrite : ∃ bytes, write (shopDictionary.entriesFor "shop") none
      ⟨2024, 3, 1, 9, 30, 15, 0⟩ = .ok bytes := by
    refine ⟨_, write_eq_ok_iff.2 ⟨?_, rfl⟩⟩
    rw [hentries, mergeSort_swap (by decide)]
    apply fitsWords_recordsOf
    decide +kernel
  obtain ⟨bytes, hwrite⟩ := hwrite
  obtain ⟨-, -, hfind⟩ := findIn_write (List.Perm.refl _) hkeys hwrite
  have ha := (hfind (bytesOf "a") (by decide)).1 ⟨["a", "as"], ["x", "y"], "shop"⟩
  have hc := (hfind (bytesOf "c") (by decide)).2
  rw [hentries] at ha hc
  exact ⟨bytes, hwrite, ha (by decide) rfl, hc (by decide)⟩

end Mo

end MessageCatalog
