/-
  MessageCatalog.Proofs.Catalog.Header
  ────────────────────────────────
  **WHAT A WRITTEN HEADER SAYS.**

  A pair that was read from a header fits into a line again: its key is trimmed and has
  no `: ` in it, and nothing in it ends a line (`inLine_of_pair?`).  So a header that is
  written is read back pair by pair, with one exception: the text is trimmed before it
  is cut, which takes the blank end of its last line, and with a blank value the whole
  pair (`pairs_parse_headerLines`).
-/
import MessageCatalog.Catalog.Metadata
import MessageCatalog.Proofs.Mo.WellFormed
import MessageCatalog.Proofs.OrderedMap
import MessageCatalog.Proofs.Text.Blank
import MessageCatalog.Proofs.Text.Search

namespace MessageCatalog

open MessageCatalog.Text

namespace Metadata

/-! ## §1. A pair in a line. -/

/-- The characters that end a header line. -/
def endsLine (c : Char) : Bool :=
  c == '\n' || c == ','

/-- A text that ends no line. -/
def OneLine (text : String) : Prop :=
  ∀ c ∈ text.toList, endsLine c = false

instance (text : String) : Decidable (OneLine text) :=
  List.decidableBAll (fun c => endsLine c = false) text.toList

theorem OneLine.append {text text' : String} (h : OneLine text) (h' : OneLine text') :
    OneLine (text ++ text') := by
  unfold OneLine
  rw [String.toList_append, List.forall_mem_append]
  exact ⟨h, h'⟩

/-- A pair that can stand in a header line. -/
structure InLine (pair : String × String) : Prop where
  trimmed : trim pair.1.toList = pair.1.toList
  uncut : ¬ [':', ' '] <:+: pair.1.toList
  key_free : OneLine pair.1
  value_free : OneLine pair.2

/-- The line of a pair. -/
def lineOf (pair : String × String) : List Char :=
  (line pair.1 pair.2).toList

theorem lineOf_eq (pair : String × String) :
    lineOf pair = pair.1.toList ++ ':' :: ' ' :: pair.2.toList := by
  unfold lineOf line
  rw [String.toList_append, String.toList_append, List.append_assoc]
  rfl

/-- What a line holds can stand in a line. -/
theorem inLine_of_pair? {cs : List Char} {pair : String × String}
    (hfree : ∀ c ∈ cs, endsLine c = false) (h : pair? cs = some pair) : InLine pair := by
  unfold pair? at h
  rw [Option.map_eq_some_iff] at h
  obtain ⟨⟨key, value⟩, hcut, rfl⟩ := h
  have hcs := eq_append_of_cutAt? hcut
  have hkey : ∀ c ∈ trim key, c ∈ cs := by
    intro c hc
    rw [hcs, List.append_assoc]
    exact List.mem_append_left _ ((trim_isInfix key).subset hc)
  refine ⟨?_, ?_, ?_, ?_⟩
  · simp only [String.toList_ofList, trim_trim]
  · simp only [String.toList_ofList]
    intro hinside
    exact not_isInfix_of_cutAt? (by decide) hcut (hinside.trans (trim_isInfix key))
  · intro c hc
    rw [String.toList_ofList] at hc
    exact hfree c (hkey c hc)
  · intro c hc
    rw [String.toList_ofList] at hc
    apply hfree
    rw [hcs]
    exact List.mem_append_right _ hc

/-- A line gives back its pair. -/
theorem pair?_lineOf {pair : String × String} (h : InLine pair) :
    pair? (lineOf pair) = some pair := by
  unfold pair?
  rw [lineOf_eq]
  show (cutAt? [':', ' '] _).map _ = _
  rw [cutAt?_append_pair (by decide) h.uncut, Option.map_some]
  show some (String.ofList (trim pair.1.toList), String.ofList pair.2.toList) = _
  rw [h.trimmed, String.ofList_toList, String.ofList_toList]

/-- What is left of a pair whose line has lost its blank end. -/
def withoutEnd? (pair : String × String) : Option (String × String) :=
  if isBlank pair.2 then none else some (pair.1, String.ofList (trimEnd pair.2.toList))

theorem trimEnd_lineOf_of_blank {pair : String × String} (h : isBlank pair.2 = true) :
    trimEnd (lineOf pair) = pair.1.toList ++ [':'] := by
  have hblank : ∀ c ∈ ' ' :: pair.2.toList, isBlankChar c = true := by
    unfold isBlank at h
    rw [List.forall_mem_cons]
    exact ⟨by decide, List.all_eq_true.1 h⟩
  have hsplit : lineOf pair = (pair.1.toList ++ [':']) ++ ' ' :: pair.2.toList := by
    rw [lineOf_eq]
    simp
  rw [hsplit, trimEnd_append_of_blank hblank, trimEnd_append_singleton (by decide)]

theorem trimEnd_lineOf {pair : String × String} (h : isBlank pair.2 = false) :
    trimEnd (lineOf pair) = lineOf (pair.1, String.ofList (trimEnd pair.2.toList)) := by
  have hne : trimEnd pair.2.toList ≠ [] := by
    intro hnil
    have hall : isBlank pair.2 = true := List.all_eq_true.2 (trimEnd_eq_nil_iff.1 hnil)
    rw [h] at hall
    cases hall
  have hsplit : lineOf pair = (pair.1.toList ++ [':', ' ']) ++ pair.2.toList := by
    rw [lineOf_eq]
    simp
  rw [hsplit, trimEnd_append hne, lineOf_eq]
  simp

/-- A line that is trimmed at its end gives its pair without the blank end. -/
theorem pair?_trimEnd_lineOf {pair : String × String} (h : InLine pair) :
    pair? (trimEnd (lineOf pair)) = withoutEnd? pair := by
  unfold withoutEnd?
  cases hblank : isBlank pair.2 with
  | true =>
      rw [trimEnd_lineOf_of_blank hblank]
      have hnone : cutAt? [':', ' '] (pair.1.toList ++ [':']) = none := by
        rw [cutAt?_eq_none_iff, List.infix_concat_iff, not_or]
        refine ⟨?_, h.uncut⟩
        rintro ⟨front, hfront⟩
        have hlast := congrArg List.getLast? hfront
        simp at hlast
      show (cutAt? [':', ' '] _).map _ = _
      rw [hnone]
      rfl
  | false =>
      have hinLine : InLine (pair.1, String.ofList (trimEnd pair.2.toList)) := by
        refine ⟨h.trimmed, h.uncut, h.key_free, ?_⟩
        intro c hc
        rw [String.toList_ofList] at hc
        exact h.value_free c (mem_of_mem_trimEnd hc)
      rw [trimEnd_lineOf hblank, pair?_lineOf hinLine]
      rfl

/-! ## §2. Lines of a text. -/

/-- No line starts with a blank. -/
theorem trimStart_lineOf_append {pair : String × String} (h : InLine pair) (rest : List Char) :
    trimStart (lineOf pair ++ rest) = lineOf pair ++ rest := by
  rw [lineOf_eq]
  cases hkey : pair.1.toList with
  | nil => exact trimStart_cons_of_not_blank (by decide)
  | cons c key =>
      have htrimmed := h.trimmed
      rw [hkey] at htrimmed
      cases hc : isBlankChar c with
      | false => exact trimStart_cons_of_not_blank hc
      | true =>
          -- a trimmed key would have lost this blank
          have hlen : (trim (c :: key)).length ≤ key.length := by
            unfold trim
            rw [trimStart_cons_of_blank hc]
            exact (trim_isInfix key).length_le
          rw [htrimmed, List.length_cons] at hlen
          omega

theorem trimEnd_lineOf_ne_nil (pair : String × String) : trimEnd (lineOf pair) ≠ [] := by
  intro hnil
  have hcolon := trimEnd_eq_nil_iff.1 hnil ':' (by rw [lineOf_eq]; simp)
  exact absurd hcolon (by decide)

/-- Joined lines: those before the last one, each with its line break, and the last. -/
theorem intercalate_concat (lines : List (List Char)) (last : List Char) :
    ['\n'].intercalate (lines ++ [last]) = (lines.flatMap fun cs => cs ++ ['\n']) ++ last := by
  induction lines with
  | nil => exact List.intercalate_singleton
  | cons first lines ih =>
      rw [List.flatMap_cons, List.append_assoc, ← ih]
      cases lines with
      | nil => simp [List.intercalate_cons_cons]
      | cons next lines => simp [List.intercalate_cons_cons]

theorem lineOf_free {pair : String × String} (h : InLine pair) :
    ∀ c ∈ lineOf pair, endsLine c = false := by
  rw [lineOf_eq, List.forall_mem_append, List.forall_mem_cons, List.forall_mem_cons]
  exact ⟨h.key_free, by decide, by decide, h.value_free⟩

/-- **The lines of joined pairs are theirs**, the last one trimmed at its end. -/
theorem lines_intercalate {pairs : List (String × String)} {last : String × String}
    (h : ∀ pair ∈ pairs ++ [last], InLine pair) :
    lines (['\n'].intercalate (pairs.map lineOf ++ [lineOf last]))
      = pairs.map lineOf ++ [trimEnd (lineOf last)] := by
  have hstart : trimStart (['\n'].intercalate (pairs.map lineOf ++ [lineOf last]))
      = ['\n'].intercalate (pairs.map lineOf ++ [lineOf last]) := by
    rw [intercalate_concat]
    cases pairs with
    | nil =>
        have hlast := trimStart_lineOf_append (h last (by simp)) []
        rw [List.append_nil] at hlast
        exact hlast
    | cons first pairs =>
        rw [List.map_cons, List.flatMap_cons, List.append_assoc, List.append_assoc]
        exact trimStart_lineOf_append (h first (by simp)) _
  have hend : trimEnd (['\n'].intercalate (pairs.map lineOf ++ [lineOf last]))
      = ['\n'].intercalate (pairs.map lineOf ++ [trimEnd (lineOf last)]) := by
    rw [intercalate_concat, trimEnd_append (trimEnd_lineOf_ne_nil last), intercalate_concat]
  have hfree : ∀ cs ∈ pairs.map lineOf ++ [trimEnd (lineOf last)], ∀ c ∈ cs, endsLine c = false := by
    intro cs hcs
    rcases List.mem_append.1 hcs with hcs | hcs
    · obtain ⟨pair, hpair, rfl⟩ := List.mem_map.1 hcs
      exact lineOf_free (h pair (List.mem_append_left _ hpair))
    · rw [List.mem_singleton] at hcs
      subst hcs
      intro c hc
      exact lineOf_free (h last (by simp)) c (mem_of_mem_trimEnd hc)
  have hne : ∀ cs ∈ pairs.map lineOf ++ [trimEnd (lineOf last)], (!cs.isEmpty) = true := by
    intro cs hcs
    rcases List.mem_append.1 hcs with hcs | hcs
    · obtain ⟨pair, -, rfl⟩ := List.mem_map.1 hcs
      rw [lineOf_eq]
      simp
    · rw [List.mem_singleton] at hcs
      subst hcs
      simpa using trimEnd_lineOf_ne_nil last
  unfold lines trim
  show (pieces endsLine _).filter _ = _
  rw [hstart, hend, pieces_intercalate (by decide) (by simp) hfree, List.filter_eq_self.2 hne]

/-- **Joined pairs are read back**, the last one without the blank end of its value. -/
theorem pairsOf_intercalate {pairs : List (String × String)} {last : String × String}
    (h : ∀ pair ∈ pairs ++ [last], InLine pair) :
    pairsOf (String.intercalate "\n" ((pairs ++ [last]).map fun pair => line pair.1 pair.2))
      = pairs ++ (withoutEnd? last).toList := by
  have htext : (String.intercalate "\n" ((pairs ++ [last]).map fun pair =>
      line pair.1 pair.2)).toList = ['\n'].intercalate (pairs.map lineOf ++ [lineOf last]) := by
    rw [String.toList_intercalate, List.map_map, List.map_append]
    rfl
  have hpairs : (pairs.map lineOf).filterMap pair? = pairs := by
    rw [List.filterMap_map]
    have hself : ∀ pair ∈ pairs, (pair? ∘ lineOf) pair = some pair :=
      fun pair hpair => pair?_lineOf (h pair (List.mem_append_left _ hpair))
    rw [List.filterMap_congr hself, List.filterMap_some]
  unfold pairsOf
  rw [htext, lines_intercalate h, List.filterMap_append, hpairs]
  congr 1
  rw [List.filterMap_cons, pair?_trimEnd_lineOf (h last (by simp))]
  cases withoutEnd? last <;> rfl

/-! ## §3. A written header. -/

/-- The pairs that are written, in order. -/
def headerPairs (m : Metadata) (revised : Timestamp) : List (String × String) :=
  (revisionKey, revised.revision)
    :: recognizedKeys.filterMap (fun (key, default) =>
        ((m.get? key).or default).map fun value => (key, value))
    ++ m.values.pairs.filter fun pair => isExtra pair.1

theorem headerLines_eq (m : Metadata) (revised : Timestamp) :
    m.headerLines revised = (m.headerPairs revised).map fun pair => line pair.1 pair.2 := by
  unfold headerLines headerPairs
  rw [List.map_append, List.map_cons, List.map_filterMap]
  simp only [Option.map_map]
  rfl

/-- A header whose pairs can all stand in a line. -/
def Clean (m : Metadata) : Prop :=
  ∀ pair ∈ m.values.pairs, InLine pair

theorem clean_empty : Clean empty := by
  intro pair h
  cases h

/-- What is read from a text can stand in a line. -/
theorem clean_mergeText {m : Metadata} (h : Clean m) (text : String) : Clean (m.mergeText text) := by
  intro pair hpair
  rcases OrderedMap.mem_pairs_insertAll hpair with hold | hnew
  · exact h pair hold
  · obtain ⟨cs, hcs, hpair⟩ := List.mem_filterMap.1 hnew
    exact inLine_of_pair? (sep_eq_false_of_mem_pieces (List.mem_filter.1 hcs).1) hpair

theorem recognized_inLine : ∀ pair ∈ recognizedKeys, trim pair.1.toList = pair.1.toList
    ∧ ¬ [':', ' '] <:+: pair.1.toList ∧ OneLine pair.1 := by
  decide +kernel

theorem oneLine_default : ∀ pair ∈ recognizedKeys, ∀ value ∈ pair.2, OneLine value := by
  decide +kernel

theorem mem_recognized_iff {m : Metadata} {key value : String} :
    (key, value) ∈ recognizedKeys.filterMap (fun (key, default) =>
        ((m.get? key).or default).map fun value => (key, value))
      ↔ ∃ default, (key, default) ∈ recognizedKeys ∧ (m.get? key).or default = some value := by
  rw [List.mem_filterMap]
  constructor
  · rintro ⟨⟨key', default⟩, hmem, hvalue⟩
    obtain ⟨value', hvalue', heq⟩ := Option.map_eq_some_iff.1 hvalue
    cases heq
    exact ⟨default, hmem, hvalue'⟩
  · rintro ⟨default, hmem, hvalue⟩
    exact ⟨(key, default), hmem, Option.map_eq_some_iff.2 ⟨value, hvalue, rfl⟩⟩

theorem oneLine_zeroPadded (width n : Nat) : OneLine (zeroPadded width n) := by
  have hdigits : ∀ c ∈ digits n, endsLine c = false := by
    intro c hc
    have hdigit : c.isDigit = true := Nat.isDigit_of_mem_toDigits (by decide) (by decide) hc
    cases hends : endsLine c with
    | false => rfl
    | true =>
        unfold endsLine at hends
        rw [Bool.or_eq_true, beq_iff_eq, beq_iff_eq] at hends
        rcases hends with rfl | rfl <;> exact absurd hdigit (by decide)
  unfold zeroPadded OneLine
  simp only [String.toList_ofList]
  rw [List.forall_mem_append]
  refine ⟨?_, hdigits⟩
  intro c hc
  rw [List.eq_of_mem_replicate hc]
  decide

theorem oneLine_date (t : Timestamp) : OneLine t.date := by
  have hyear : OneLine t.yearText := by
    unfold Timestamp.yearText
    split
    · exact OneLine.append (by decide) (oneLine_zeroPadded _ _)
    split
    · exact OneLine.append (by decide) (oneLine_zeroPadded _ _)
    · exact oneLine_zeroPadded _ _
  exact (((hyear.append (by decide)).append (oneLine_zeroPadded _ _)).append (by decide)).append
    (oneLine_zeroPadded _ _)

/-- A time in a header ends no line. -/
theorem oneLine_revision (t : Timestamp) : OneLine t.revision := by
  have hsign : OneLine (if t.utcOffset < 0 then "-" else "+") := by
    split <;> decide
  have hoffset : OneLine t.offsetText :=
    (hsign.append (oneLine_zeroPadded _ _)).append (oneLine_zeroPadded _ _)
  exact (((((oneLine_date t).append (by decide)).append (oneLine_zeroPadded _ _)).append
    (by decide)).append (oneLine_zeroPadded _ _)).append hoffset

/-- A time in a banner ends no line. -/
theorem oneLine_created (t : Timestamp) : OneLine t.created :=
  ((((((oneLine_date t).append (by decide)).append (oneLine_zeroPadded _ _)).append
    (by decide)).append (oneLine_zeroPadded _ _)).append (by decide)).append
      (oneLine_zeroPadded _ _)

theorem inLine_revision (t : Timestamp) : InLine (revisionKey, t.revision) := by
  have hkey : trim revisionKey.toList = revisionKey.toList ∧ ¬ [':', ' '] <:+: revisionKey.toList
      ∧ OneLine revisionKey := by
    decide +kernel
  exact ⟨hkey.1, hkey.2.1, hkey.2.2, oneLine_revision t⟩

/-- **Where a pair that is written comes from**: the time, a recognized key with its own value or
its default, or another pair of the header. -/
theorem headerPairs_cases {m : Metadata} {revised : Timestamp} {key value : String}
    (h : (key, value) ∈ m.headerPairs revised) :
    (key, value) = (revisionKey, revised.revision)
      ∨ (∃ default, (key, default) ∈ recognizedKeys
        ∧ ((key, value) ∈ m.values.pairs ∨ default = some value))
      ∨ (key, value) ∈ m.values.pairs := by
  unfold headerPairs at h
  rw [List.cons_append, List.mem_cons, List.mem_append] at h
  rcases h with heq | hrecognized | hextra
  · exact Or.inl heq
  · obtain ⟨default, hmem, hvalue⟩ := mem_recognized_iff.1 hrecognized
    refine Or.inr (Or.inl ⟨default, hmem, ?_⟩)
    rcases Option.or_eq_some_iff.1 hvalue with hown | ⟨-, hdefault⟩
    · exact Or.inl (OrderedMap.get?_eq_some_iff.1 hown)
    · exact Or.inr hdefault
  · exact Or.inr (Or.inr (List.mem_filter.1 hextra).1)

/-- **Every pair that is written stands in its line.** -/
theorem inLine_headerPairs {m : Metadata} (h : Clean m) (revised : Timestamp) :
    ∀ pair ∈ m.headerPairs revised, InLine pair := by
  rintro ⟨key, value⟩ hpair
  rcases headerPairs_cases hpair with heq | ⟨default, hmem, hvalue⟩ | hown
  · cases heq
    exact inLine_revision revised
  · obtain ⟨htrimmed, huncut, hfree⟩ := recognized_inLine _ hmem
    refine ⟨htrimmed, huncut, hfree, ?_⟩
    rcases hvalue with hown | hdefault
    · exact (h _ hown).value_free
    · exact oneLine_default _ hmem value hdefault
  · exact h _ hown

/-- No key is written twice. -/
theorem keys_headerPairs_nodup (m : Metadata) (revised : Timestamp) :
    ((m.headerPairs revised).map Prod.fst).Nodup := by
  have hrecognized : ∀ keys : List (String × Option String),
      ((keys.filterMap fun (key, default) =>
        ((m.get? key).or default).map fun value => (key, value)).map Prod.fst).Sublist
          (keys.map Prod.fst) := by
    intro keys
    induction keys with
    | nil => exact List.Sublist.refl _
    | cons first keys ih =>
        obtain ⟨key, default⟩ := first
        rw [List.filterMap_cons, List.map_cons]
        cases hvalue : (m.get? key).or default with
        | none =>
            simp only [hvalue, Option.map_none]
            exact ih.cons _
        | some value =>
            simp only [hvalue, Option.map_some]
            exact ih.cons_cons _
  have hknown : (revisionKey :: recognizedKeys.map Prod.fst).Nodup := by
    decide +kernel
  unfold headerPairs
  rw [List.map_append, List.map_cons, List.nodup_append]
  refine ⟨hknown.sublist ((hrecognized recognizedKeys).cons_cons _),
    m.values.nodup.sublist (List.filter_sublist.map Prod.fst), ?_⟩
  -- an extra key is none of the others
  rintro key hkey key' hextra rfl
  obtain ⟨pair, hpair, rfl⟩ := List.mem_map.1 hextra
  have hisExtra : isExtra pair.1 = true := (List.mem_filter.1 hpair).2
  unfold isExtra at hisExtra
  rw [Bool.and_eq_true, Bool.not_eq_true', bne_iff_ne] at hisExtra
  rcases List.mem_cons.1 hkey with hrevision | hmem
  · exact hisExtra.2 hrevision
  · have hcontains := List.contains_iff_mem.2 ((hrecognized recognizedKeys).subset hmem)
    rw [hcontains] at hisExtra
    exact absurd hisExtra.1 (by decide)

/-- **A written header is read back**, pair by pair, except for the blank end of its last
value. -/
theorem pairs_parse_headerLines {m : Metadata} (h : Clean m) (revised : Timestamp)
    {pairs : List (String × String)} {last : String × String}
    (hpairs : m.headerPairs revised = pairs ++ [last]) :
    (parse (String.intercalate "\n" (m.headerLines revised))).values.pairs
      = pairs ++ (withoutEnd? last).toList := by
  have hinLine : ∀ pair ∈ pairs ++ [last], InLine pair := by
    rw [← hpairs]
    exact inLine_headerPairs h revised
  have hnodup : ((pairs ++ (withoutEnd? last).toList).map Prod.fst).Nodup := by
    have hall := keys_headerPairs_nodup m revised
    rw [hpairs, List.map_append] at hall
    unfold withoutEnd?
    split
    · rw [Option.toList_none, List.append_nil]
      exact hall.sublist (List.sublist_append_left _ _)
    · rw [List.map_append]
      exact hall
  unfold parse mergeText
  rw [headerLines_eq, hpairs, pairsOf_intercalate hinLine]
  show (OrderedMap.insertAll .empty _).pairs = _
  rw [OrderedMap.pairs_insertAll hnodup (by simp)]
  rfl

/-! ## §5. Which pairs survive. -/

/-- The key of the last line that is written. -/
def closingKey? (m : Metadata) (revised : Timestamp) : Option String :=
  (m.headerPairs revised).getLast?.map Prod.fst

/-- Every pair is written, but for the time of an earlier export. -/
theorem mem_headerPairs_of_get? {m : Metadata} {key value : String} (hkey : key ≠ revisionKey)
    (hvalue : m.get? key = some value) (revised : Timestamp) :
    (key, value) ∈ m.headerPairs revised := by
  unfold headerPairs
  rw [List.cons_append, List.mem_cons, List.mem_append]
  right
  cases hextra : isExtra key with
  | true => exact Or.inr (List.mem_filter.2 ⟨OrderedMap.get?_eq_some_iff.1 hvalue, hextra⟩)
  | false =>
      -- a key that is not extra is one of the recognized ones
      unfold isExtra at hextra
      rw [Bool.and_eq_false_iff, Bool.not_eq_false', List.contains_iff_mem, bne_eq_false_iff_eq,
        or_iff_left hkey] at hextra
      obtain ⟨⟨key', default⟩, hmem, rfl⟩ := List.mem_map.1 hextra
      exact Or.inl (mem_recognized_iff.2 ⟨default, hmem, by rw [hvalue]; rfl⟩)

/-- **A pair that was written is read back**, except that the last one has lost the blank end of
its value, or is lost altogether if nothing else was in it. -/
theorem get?_parse_headerLines {m : Metadata} (h : Clean m) {revised : Timestamp}
    {pair : String × String} (hmem : pair ∈ m.headerPairs revised) :
    (parse (String.intercalate "\n" (m.headerLines revised))).get? pair.1
      = if m.closingKey? revised = some pair.1 then (withoutEnd? pair).map Prod.snd
        else some pair.2 := by
  obtain ⟨pairs, last, hpairs⟩ : ∃ pairs last, m.headerPairs revised = pairs ++ [last] :=
    ⟨_, _, (List.dropLast_append_getLast (List.ne_nil_of_mem hmem)).symm⟩
  have hclosing : m.closingKey? revised = some last.1 := by
    unfold closingKey?
    rw [hpairs, List.getLast?_concat, Option.map_some]
  have hread := pairs_parse_headerLines h revised hpairs
  have hget : ∀ pair' ∈ pairs ++ (withoutEnd? last).toList,
      (parse (String.intercalate "\n" (m.headerLines revised))).get? pair'.1 = some pair'.2 :=
    fun pair' hpair' => OrderedMap.get?_eq_some_iff.2 (by rw [hread]; exact hpair')
  -- the last key is none of those before it
  have hnodup := keys_headerPairs_nodup m revised
  rw [hpairs, List.map_append, List.nodup_append] at hnodup
  have hother : ∀ pair' ∈ pairs, last.1 ≠ pair'.1 := fun pair' hpair' heq =>
    hnodup.2.2 _ (List.mem_map_of_mem hpair') _ List.mem_cons_self heq.symm
  rw [hpairs, List.mem_append, List.mem_singleton] at hmem
  rcases hmem with hearlier | rfl
  · rw [hclosing, if_neg fun heq => hother pair hearlier (Option.some.inj heq)]
    exact hget pair (List.mem_append_left _ hearlier)
  · rw [if_pos hclosing]
    unfold withoutEnd? at hget hread ⊢
    split at hread
    next hblank =>
      rw [if_pos hblank, Option.map_none]
      refine OrderedMap.get?_eq_none_iff.2 ?_
      unfold OrderedMap.keys
      rw [hread, Option.toList_none, List.append_nil]
      intro hkey
      obtain ⟨pair', hpair', heq⟩ := List.mem_map.1 hkey
      exact hother pair' hpair' heq.symm
    next hblank =>
      rw [if_neg hblank] at hget ⊢
      exact hget _ (List.mem_append_right _ List.mem_cons_self)

/-- A value keeps its blank end only if it has none. -/
theorem withoutEnd?_eq_self_iff {pair : String × String} :
    (withoutEnd? pair).map Prod.snd = some pair.2
      ↔ pair.2 ≠ "" ∧ trimEnd pair.2.toList = pair.2.toList := by
  unfold withoutEnd?
  split
  next hblank =>
    have hnil : trimEnd pair.2.toList = [] := trimEnd_eq_nil_iff.2 (List.all_eq_true.1 hblank)
    rw [hnil, Option.map_none, eq_comm (a := []), String.toList_eq_nil_iff]
    simp
  next hblank =>
    have hne : pair.2 ≠ "" := by
      rintro hempty
      rw [hempty] at hblank
      exact hblank rfl
    rw [Option.map_some, Option.some.injEq, and_iff_right hne, ← String.toList_inj,
      String.toList_ofList]

/-- **Header pairs survive a save**: a pair of a header is found again with its value when the
header is written and read, exactly if its line is not the last one that is written or its value
is not empty and has no blank end. -/
theorem get?_parse_headerLines_iff {text key value : String} {revised : Timestamp}
    (hkey : key ≠ revisionKey) (hpair : (key, value) ∈ (parse text).values.pairs) :
    (parse (String.intercalate "\n" ((parse text).headerLines revised))).get? key = some value
      ↔ ((parse text).closingKey? revised = some key →
          value ≠ "" ∧ trimEnd value.toList = value.toList) := by
  have hmem := mem_headerPairs_of_get? hkey (OrderedMap.get?_eq_some_iff.2 hpair) revised
  have hclean : Clean (parse text) := clean_mergeText clean_empty text
  have hread := get?_parse_headerLines hclean hmem
  change (parse _).get? key = _ at hread
  rw [hread]
  by_cases hclosing : (parse text).closingKey? revised = some key
  · rw [if_pos hclosing, withoutEnd?_eq_self_iff, forall_prop_of_true hclosing]
  · rw [if_neg hclosing]
    exact iff_of_true rfl fun heq => absurd heq hclosing

/-- A key without a value survives where another one is written after it. -/
theorem get?_parse_headerLines_empty :
    "X-Note" ≠ revisionKey ∧ ("X-Note", "") ∈ (parse "X-Note: \nLanguage: cs").values.pairs
      ∧ (parse (String.intercalate "\n"
          ((parse "X-Note: \nLanguage: cs").headerLines ⟨2024, 3, 1, 9, 30, 15, 0⟩))).get? "X-Note"
        = some "" := by
  have hkey : "X-Note" ≠ revisionKey := by decide
  have hpair : ("X-Note", "") ∈ (parse "X-Note: \nLanguage: cs").values.pairs := by
    decide +kernel
  refine ⟨hkey, hpair, (get?_parse_headerLines_iff hkey hpair).2 ?_⟩
  intro hclosing
  exact absurd hclosing (by decide +kernel)

/-- **A key without a value is lost in the last line**: it is read from a header where another
line follows it, and written behind all recognized keys. -/
theorem lost_after_headerLines :
    (parse "X-Note: \nMIME-Version: 1.0").get? "X-Note" = some ""
      ∧ (parse (String.intercalate "\n" ((parse "X-Note: \nMIME-Version: 1.0").headerLines
          ⟨2024, 3, 1, 9, 30, 15, 0⟩))).get? "X-Note" = none := by
  have hvalue : (parse "X-Note: \nMIME-Version: 1.0").get? "X-Note" = some "" := by
    decide +kernel
  have hclosing : (parse "X-Note: \nMIME-Version: 1.0").closingKey? ⟨2024, 3, 1, 9, 30, 15, 0⟩
      = some "X-Note" := by
    decide +kernel
  have hread := get?_parse_headerLines (clean_mergeText clean_empty _)
    (mem_headerPairs_of_get? (by decide) hvalue ⟨2024, 3, 1, 9, 30, 15, 0⟩)
  exact ⟨hvalue, hread.trans (if_pos hclosing)⟩

/-! ## §6. The plural formula. -/

/-- The formula that is written for a header without one. -/
def defaultFormula : String :=
  "nplurals=3; plural=((n==1) ? 0 : (n>=2 && n<=4 ? 1 : 2));"

/-- The formula that is written. -/
def writtenFormula (m : Metadata) : String :=
  m.pluralForms?.getD defaultFormula

theorem mem_headerPairs_formula (m : Metadata) (revised : Timestamp) :
    (pluralFormsKey, m.writtenFormula) ∈ m.headerPairs revised := by
  have hdefault : (pluralFormsKey, some defaultFormula) ∈ recognizedKeys := by
    decide +kernel
  have hvalue : (m.get? pluralFormsKey).or (some defaultFormula) = some m.writtenFormula := by
    unfold writtenFormula pluralForms?
    cases m.get? pluralFormsKey <;> rfl
  unfold headerPairs
  rw [List.cons_append, List.mem_cons, List.mem_append]
  exact Or.inr (Or.inl (mem_recognized_iff.2 ⟨_, hdefault, hvalue⟩))

end Metadata

end MessageCatalog
