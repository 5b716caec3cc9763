/-
  MessageCatalog.Proofs.Mo.FixedPoint
  ────────────────────────────────
  **A WRITTEN FILE IS WRITTEN AGAIN, BYTE BY BYTE.**

  The entries of a written file come back in the order of their keys, so sorting them
  again changes nothing.  Each of them makes the record it was read from, even where
  zero characters in its variants have made more variants of them.  The header comes
  back with its defaults and with the time of the export, in the order in which it was
  written:

      revision │ recognized keys, some by default │ all other keys

  Writing this header again finds every recognized key where it left it
  (`headerPairs_of_pairs_eq`).  The only danger is the blank end of the last value, which
  reading takes away; pairs that are safe from it are `Lasting`.
-/
import MessageCatalog.Proofs.Catalog.Header
import MessageCatalog.Proofs.Mo.Rewriting

namespace MessageCatalog

open MessageCatalog.Text

namespace Metadata

variable {m m' : Metadata} {revised : Timestamp}

/-! ## §1. Pairs that last. -/

/-- A pair that comes back whole from any line, the last one included. -/
structure Lasting (pair : String × String) : Prop extends InLine pair where
  value_ne : pair.2 ≠ ""
  value_end : trimEnd pair.2.toList = pair.2.toList

/-- A pair that lasts loses nothing with the blank end of its line. -/
theorem withoutEnd?_of_lasting {pair : String × String} (h : Lasting pair) :
    withoutEnd? pair = some pair := by
  have hvalue : (withoutEnd? pair).map Prod.snd = some pair.2 :=
    withoutEnd?_eq_self_iff.2 ⟨h.value_ne, h.value_end⟩
  unfold withoutEnd? at hvalue ⊢
  split at hvalue
  next => cases hvalue
  next hblank =>
    have htext : String.ofList (trimEnd pair.2.toList) = pair.2 := Option.some.inj hvalue
    rw [if_neg hblank, htext]

/-- The defaults have no blank end. -/
theorem lasting_default : ∀ pair ∈ recognizedKeys, ∀ value ∈ pair.2,
    value ≠ "" ∧ trimEnd value.toList = value.toList := by
  decide +kernel

/-- Every pair that is written behind the revision lasts if those of the header do. -/
theorem lasting_of_mem_tail (h : ∀ pair ∈ m.values.pairs, Lasting pair) :
    ∀ pair ∈ (m.headerPairs revised).tail, Lasting pair := by
  intro pair hpair
  have hinLine : InLine pair :=
    inLine_headerPairs (fun pair hpair => (h pair hpair).toInLine) revised pair
      (List.mem_of_mem_tail hpair)
  unfold headerPairs at hpair
  rw [List.cons_append, List.tail_cons, List.mem_append] at hpair
  rcases hpair with hrecognized | hextra
  · obtain ⟨default, hmem, hvalue⟩ := mem_recognized_iff.1 hrecognized
    -- the value is one of the header, or the default of the key
    rcases Option.or_eq_some_iff.1 hvalue with hown | ⟨-, hdefault⟩
    · exact h _ (OrderedMap.get?_eq_some_iff.1 hown)
    · obtain ⟨hne, hend⟩ := lasting_default _ hmem _ hdefault
      exact ⟨hinLine, hne, hend⟩
  · exact h _ (List.mem_filter.1 hextra).1

/-! ## §2. A header that is written and read. -/

/-- **A header of pairs that last is read back whole**, with the revision and the defaults. -/
theorem pairs_parse_of_lasting (h : ∀ pair ∈ m.values.pairs, Lasting pair)
    (revised : Timestamp) :
    (parse (String.intercalate "\n" (m.headerLines revised))).values.pairs
      = m.headerPairs revised := by
  have hclean : Clean m := fun pair hpair => (h pair hpair).toInLine
  -- the plural formula is always written, so the revision is not the last pair
  have htail : (m.headerPairs revised).tail ≠ [] := by
    intro hnil
    have hformula := mem_headerPairs_formula m revised
    change _ ∈ (revisionKey, revised.revision) :: (m.headerPairs revised).tail at hformula
    rw [hnil, List.mem_singleton] at hformula
    have hkey : pluralFormsKey = revisionKey := congrArg Prod.fst hformula
    exact absurd hkey (by decide)
  have hpairs : m.headerPairs revised
      = ((revisionKey, revised.revision) :: (m.headerPairs revised).tail.dropLast)
        ++ [(m.headerPairs revised).tail.getLast htail] := by
    rw [List.cons_append, List.dropLast_append_getLast]
    rfl
  have hlast := lasting_of_mem_tail h _ (List.getLast_mem htail)
  rw [pairs_parse_headerLines hclean revised hpairs, withoutEnd?_of_lasting hlast]
  exact hpairs.symm

/-- A key that is recognized is none of the extra ones, and not the revision. -/
theorem of_mem_recognizedKeys {key : String} {default : Option String}
    (h : (key, default) ∈ recognizedKeys) : isExtra key = false ∧ key ≠ revisionKey := by
  have hall : ∀ pair ∈ recognizedKeys, isExtra pair.1 = false ∧ pair.1 ≠ revisionKey := by
    decide +kernel
  exact hall _ h

/-- A recognized key has the value that was written for it. -/
theorem get?_of_pairs_eq (h : m'.values.pairs = m.headerPairs revised) {key : String}
    {default : Option String} (hmem : (key, default) ∈ recognizedKeys) :
    m'.get? key = (m.get? key).or default := by
  obtain ⟨hextra, hrevision⟩ := of_mem_recognizedKeys hmem
  have honce : ∀ pair ∈ recognizedKeys, ∀ pair' ∈ recognizedKeys,
      pair.1 = pair'.1 → pair = pair' := by
    decide +kernel
  apply Option.ext
  intro value
  change m'.values.get? key = some value ↔ _
  rw [OrderedMap.get?_eq_some_iff, h]
  unfold headerPairs
  rw [List.cons_append, List.mem_cons, List.mem_append, mem_recognized_iff, List.mem_filter]
  constructor
  · intro hwritten
    rcases hwritten with heq | ⟨default', hmem', hvalue⟩ | ⟨-, hisExtra⟩
    · exact absurd (congrArg Prod.fst heq) hrevision
    · cases honce _ hmem _ hmem' rfl
      exact hvalue
    · rw [hextra] at hisExtra
      cases hisExtra
  · intro hvalue
    exact Or.inr (Or.inl ⟨default, hmem, hvalue⟩)

/-- The recognized pairs that are written: those of the header, and the defaults of the others. -/
def recognizedPairs (m : Metadata) : List (String × String) :=
  recognizedKeys.filterMap fun known =>
    ((m.get? known.1).or known.2).map fun value => (known.1, value)

theorem headerPairs_eq (m : Metadata) (revised : Timestamp) :
    m.headerPairs revised
      = (revisionKey, revised.revision) :: m.recognizedPairs
        ++ m.values.pairs.filter fun pair => isExtra pair.1 :=
  rfl

/-- The recognized pairs are written again as they were. -/
theorem recognizedPairs_of_pairs_eq (h : m'.values.pairs = m.headerPairs revised) :
    m'.recognizedPairs = m.recognizedPairs := by
  unfold recognizedPairs
  apply List.filterMap_congr
  intro known hknown
  rw [get?_of_pairs_eq h hknown, Option.or_assoc, Option.or_self]

/-- The extra pairs are those that stand behind the recognized ones. -/
theorem extraPairs_of_pairs_eq (h : m'.values.pairs = m.headerPairs revised) :
    (m'.values.pairs.filter fun pair => isExtra pair.1)
      = m.values.pairs.filter fun pair => isExtra pair.1 := by
  have hrevision : isExtra revisionKey = false := by
    decide
  have hnone : (m.recognizedPairs.filter fun pair => isExtra pair.1) = [] := by
    rw [List.filter_eq_nil_iff]
    intro pair hpair
    obtain ⟨default, hmem, -⟩ := mem_recognized_iff.1 hpair
    rw [(of_mem_recognizedKeys hmem).1]
    decide
  rw [h, headerPairs_eq, List.filter_append, List.filter_cons, hnone, List.filter_filter]
  simp [hrevision]

/-- **Writing a header that was written finds every pair in its place.** -/
theorem headerPairs_of_pairs_eq (h : m'.values.pairs = m.headerPairs revised) :
    m'.headerPairs revised = m.headerPairs revised := by
  rw [headerPairs_eq, headerPairs_eq, recognizedPairs_of_pairs_eq h, extraPairs_of_pairs_eq h]

/-- The lines of a header are written again after they were read. -/
theorem headerLines_parse_headerLines (h : ∀ pair ∈ m.values.pairs, Lasting pair)
    (revised : Timestamp) :
    (parse (String.intercalate "\n" (m.headerLines revised))).headerLines revised
      = m.headerLines revised := by
  rw [headerLines_eq, headerPairs_of_pairs_eq (pairs_parse_of_lasting h revised),
    ← headerLines_eq]

end Metadata

/-! ## §3. A file that is written and read. -/

namespace Mo

/-- An entry of one string or two without zero characters, whose record is a message.  Its
variants are any: what is between zero characters in them comes back as variants of its own. -/
structure Rewritable (e : Entry) : Prop where
  one_or_two : e.original.length = 1 ∨ e.original.length = 2
  original_free : ∀ text ∈ e.original, '\x00' ∉ text.toList
  isMessage : (Record.ofEntry e).isMessage = true

/-- Strings that came apart at zero characters are joined as they were. -/
theorem joinNul_splitNul_joinNul (texts : List String) :
    joinNul (splitNul (joinNul texts)) = joinNul texts := by
  rw [joinNul_eq_bytesOf (splitNul _), intercalate_splitNul, joinNul_eq_bytesOf, textOf_bytesOf]

namespace Rewritable

variable {e : Entry}

theorem original_ne_nil (h : Rewritable e) : e.original ≠ [] :=
  ne_nil_of_one_or_two h.one_or_two

/-- The key comes back. -/
theorem key_toEntry (h : Rewritable e) (source : String) :
    ((Record.ofEntry e).toEntry source).key = e.key :=
  key_toEntry_ofEntry (h.original_free _ (Entry.key_mem h.original_ne_nil)) source

/-- The entry that is read makes the record it was read from. -/
theorem ofEntry_toEntry (h : Rewritable e) (source : String) :
    Record.ofEntry ((Record.ofEntry e).toEntry source) = Record.ofEntry e := by
  have horiginal : splitNul (originalOf e) = e.original := by
    rw [originalOf_eq h.one_or_two, splitNul_joinNul h.original_ne_nil h.original_free]
  have hsame : originalOf ((Record.ofEntry e).toEntry source) = originalOf e := by
    have hread : ((Record.ofEntry e).toEntry source).original = e.original := horiginal
    have hlen := h.one_or_two
    rw [← hread] at hlen
    rw [originalOf_eq hlen, hread, originalOf_eq h.one_or_two]
  unfold Record.ofEntry at hsame ⊢
  rw [hsame]
  exact congrArg (Record.mk (originalOf e)) (joinNul_splitNul_joinNul e.translation)

end Rewritable

/-- Entries that are read from a written file need no sorting. -/
theorem mergeSort_map_toEntry {entries : List Entry} (h : ∀ e ∈ entries, Rewritable e)
    (source : String) :
    ((entries.mergeSort Entry.keyLE).map fun e => (Record.ofEntry e).toEntry source).mergeSort
        Entry.keyLE
      = (entries.mergeSort Entry.keyLE).map fun e => (Record.ofEntry e).toEntry source := by
  have hsorted := stablySorted_mergeSort_keyLE entries
  apply List.mergeSort_of_pairwise
  rw [List.pairwise_map]
  refine hsorted.ordered.imp_of_mem ?_
  intro a b ha hb hle
  unfold Entry.keyLE Entry.keyBytes
  rw [(h a (hsorted.perm.mem_iff.1 ha)).key_toEntry source,
    (h b (hsorted.perm.mem_iff.1 hb)).key_toEntry source]
  exact decide_eq_true hle

/-- The records of a written file are those that are made from its catalog again. -/
theorem recordsOf_reread {entries : List Entry} {metadata : Option Metadata}
    (hentries : ∀ e ∈ entries, Rewritable e)
    (hmetadata : ∀ m ∈ metadata, ∀ pair ∈ m.values.pairs, Metadata.Lasting pair)
    (revised : Timestamp) (source : String) :
    recordsOf (entries.map fun e => (Record.ofEntry e).toEntry source)
        (some (Metadata.parse (headerText metadata revised))) revised
      = recordsOf entries metadata revised := by
  have hheader : headerText (some (Metadata.parse (headerText metadata revised))) revised
      = headerText metadata revised := by
    have hlasting : ∀ pair ∈ (metadata.getD .empty).values.pairs, Metadata.Lasting pair := by
      cases metadata with
      | none => exact fun pair hpair => absurd hpair List.not_mem_nil
      | some m => exact hmetadata m rfl
    exact congrArg (String.intercalate "\n")
      (Metadata.headerLines_parse_headerLines hlasting revised)
  have hself : ∀ e ∈ entries, Record.ofEntry ((Record.ofEntry e).toEntry source)
      = Record.ofEntry e :=
    fun e he => (hentries e he).ofEntry_toEntry source
  unfold recordsOf
  rw [hheader, List.map_map]
  exact congrArg _ (List.map_congr_left hself)

/-- **Written files are fixed points**: what is read from a written file is written as the
same bytes at the same time, whatever source the file is read for. -/
theorem write_reread {entries : List Entry} {metadata : Option Metadata} {revised : Timestamp}
    {bytes : Bytes} (hentries : ∀ e ∈ entries, Rewritable e)
    (hmetadata : ∀ m ∈ metadata, ∀ pair ∈ m.values.pairs, Metadata.Lasting pair)
    (hwrite : write entries metadata revised = .ok bytes) (source : String) :
    ∃ c, Catalog.ofBytes bytes source = .ok c ∧ write c.entries c.metadata revised = .ok bytes := by
  have hmessages : ∀ e ∈ entries, (Record.ofEntry e).isMessage = true :=
    fun e he => (hentries e he).isMessage
  have hsorted : ∀ e ∈ entries.mergeSort Entry.keyLE, Rewritable e :=
    fun e he => hentries e ((List.mergeSort_perm entries Entry.keyLE).mem_iff.1 he)
  refine ⟨_, ofBytes_of_write hmessages hwrite source, ?_⟩
  rw [write_eq_ok_iff] at hwrite ⊢
  rw [mergeSort_map_toEntry hentries, recordsOf_reread hsorted hmetadata]
  exact hwrite

/-- A header with a key that is recognized and, before it, one that is not. -/
def teamHeader : Metadata :=
  .parse "X-Generator: Poedit 3.0\nLanguage-Team: Czech"

/-- Entries of two sources, in the wrong order, and a header whose keys change places. -/
theorem write_reread_unsorted :
    ∃ bytes,
      write [⟨["b"], ["B"], "admin"⟩, ⟨["a", "as"], ["x", "y"], "shop"⟩] (some teamHeader)
          ⟨2024, 3, 1, 9, 30, 15, 0⟩ = .ok bytes
        ∧ ∃ c, Catalog.ofBytes bytes "default" = .ok c
          ∧ write c.entries c.metadata ⟨2024, 3, 1, 9, 30, 15, 0⟩ = .ok bytes := by
  generalize hb : (⟨["b"], ["B"], "admin"⟩ : Entry) = b
  generalize ha : (⟨["a", "as"], ["x", "y"], "shop"⟩ : Entry) = a
  have hsort : [b, a].mergeSort Entry.keyLE = [a, b] := by
    apply mergeSort_swap
    subst hb ha
    decide
  have hfits : FitsWords (recordsOf [a, b] (some teamHeader) ⟨2024, 3, 1, 9, 30, 15, 0⟩) := by
    apply fitsWords_recordsOf
    subst hb ha
    decide +kernel
  have hentries : ∀ e ∈ [b, a], Rewritable e := by
    subst hb ha
    rw [List.forall_mem_cons, List.forall_mem_singleton]
    exact ⟨⟨by decide, by decide, by decide⟩, ⟨by decide, by decide, by decide⟩⟩
  have hlasting : ∀ m ∈ some teamHeader, ∀ pair ∈ m.values.pairs, Metadata.Lasting pair := by
    have hpairs : ∀ pair ∈ teamHeader.values.pairs, trim pair.1.toList = pair.1.toList
        ∧ ¬ [':', ' '] <:+: pair.1.toList ∧ Metadata.OneLine pair.1 ∧ Metadata.OneLine pair.2
        ∧ pair.2 ≠ "" ∧ trimEnd pair.2.toList = pair.2.toList := by
      decide +kernel
    intro m hm pair hpair
    cases hm
    obtain ⟨htrimmed, huncut, hkey, hvalue, hne, hend⟩ := hpairs pair hpair
    exact ⟨⟨htrimmed, huncut, hkey, hvalue⟩, hne, hend⟩
  have hwrite : write [b, a] (some teamHeader) ⟨2024, 3, 1, 9, 30, 15, 0⟩
      = .ok (image .little (recordsOf [a, b] (some teamHeader) ⟨2024, 3, 1, 9, 30, 15, 0⟩)) := by
    rw [write_eq_ok_iff, hsort]
    exact ⟨hfits, rfl⟩
  exact ⟨_, hwrite, write_reread hentries hlasting hwrite "default"⟩

end Mo

end MessageCatalog
