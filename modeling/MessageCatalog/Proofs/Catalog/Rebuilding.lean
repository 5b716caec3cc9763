/-
  MessageCatalog.Proofs.Catalog.Rebuilding
  ────────────────────────────────
  **A CATALOG THAT IS WRITTEN ANEW MEANS THE SAME.**

  What was read from a file can be written again, whatever the file was like: its byte
  order and its tables, originals that come twice, bytes that are no text, originals of
  many strings.  The new file is sorted, but stably, so of several messages with one key
  the last one is still the last (`lastUnder?_mergeSort_keyLE`), and it comes back with
  its variants and its plural (`merge_of_rebuilt`).
-/
import MessageCatalog.Proofs.Translator.Resaving

namespace MessageCatalog

open MessageCatalog.Text

/-! ## §1. Sorting by key. -/

/-- Entries with one key are those whose keys have the same bytes. -/
theorem under_keyBytes (key : String) (entries : List Entry) :
    under Entry.keyBytes (bytesOf key) entries = under Entry.key key entries := by
  unfold under Entry.keyBytes
  refine List.filter_congr fun e _ => ?_
  rw [decide_eq_decide]
  exact ⟨bytesOf_injective, congrArg bytesOf⟩

/-- **Sorting leaves the last entry under a key the last one.** -/
theorem lastUnder?_mergeSort_keyLE (key : String) (entries : List Entry) :
    lastUnder? key (entries.mergeSort Entry.keyLE) = lastUnder? key entries := by
  have hstable := (Mo.stablySorted_mergeSort_keyLE entries).stable (bytesOf key)
  rw [under_keyBytes, under_keyBytes] at hstable
  unfold lastUnder?
  rw [hstable]

/-! ## §2. Reading, writing and reading again. -/

/-- **Rebuilding a catalog keeps its meaning.**  Whatever file a catalog was read from, if it
can be written at all, the new file is a catalog again, and laid over any dictionary it gives
every key the same variants, the same plural and the same source. -/
theorem merge_of_rebuilt {bytes bytes' : Bytes} {source : String} {c : Catalog}
    {revised : Timestamp} (hread : Catalog.ofBytes bytes source = .ok c)
    (hwrite : Mo.write c.entries c.metadata revised = .ok bytes') :
    ∃ c', Catalog.ofBytes bytes' source = .ok c'
      ∧ ∀ (d : Dictionary) (key : String),
        ((d.merge c').get? key).map Entry.visible = ((d.merge c).get? key).map Entry.visible := by
  obtain ⟨-, hentries⟩ := Translator.of_ofBytes hread
  -- an entry that was read is written as a message, and comes back in its written form
  have hmessage : ∀ e ∈ c.entries, (Mo.Record.ofEntry e).isMessage = true
      ∧ (Mo.Record.ofEntry e).toEntry source = e.written := by
    intro e he
    obtain ⟨r, hr, rfl⟩ := hentries e he
    exact Mo.toEntry_ofEntry_of_storable (Mo.storable_written_toEntry hr source)
  refine ⟨_, Mo.ofBytes_of_write (fun e he => (hmessage e he).1) hwrite source, ?_⟩
  intro d key
  have hwritten : (c.entries.mergeSort Entry.keyLE).map
        (fun e => (Mo.Record.ofEntry e).toEntry source)
      = (c.entries.mergeSort Entry.keyLE).map Entry.written :=
    List.map_congr_left fun e he =>
      (hmessage e ((List.mergeSort_perm c.entries Entry.keyLE).mem_iff.1 he)).2
  rw [Dictionary.get?_merge, Dictionary.get?_merge, hwritten,
    lastUnder?_map fun e _ => Entry.key_written e, lastUnder?_mergeSort_keyLE]
  cases lastUnder? key c.entries with
  | none => rfl
  | some e => exact congrArg some e.visible_written

/-- Records of which two have one key: the first of them has one string after its key, the
second one has two, and a translation that opens with a byte that is no text. -/
def strayRecords : List Mo.Record :=
  [⟨Mo.joinNul ["Cat", "Cats"], bytesOf "Kot"⟩,
    ⟨Mo.joinNul ["Cat", "Cats", "Kittens"], 0xff :: 0 :: bytesOf "Kotata"⟩,
    ⟨bytesOf "Ant", bytesOf "Mravenec"⟩]

/-- A file with the most significant byte of a word first and originals that come twice is
rebuilt, and the last of them still counts. -/
theorem merge_of_rebuilt_stray :
    ∃ c bytes' c',
      Catalog.ofBytes (Mo.image .big strayRecords) "default" = .ok c
        ∧ Mo.write c.entries c.metadata ⟨2024, 3, 1, 9, 30, 15, 0⟩ = .ok bytes'
        ∧ Catalog.ofBytes bytes' "default" = .ok c'
        ∧ ((Dictionary.empty.merge c').get? "Cat").map Entry.visible
          = some (["\ufffd", "Kotata"], some "Kittens", "default") := by
  have hread : Catalog.ofBytes (Mo.image .big strayRecords) "default"
      = .ok (Mo.catalogOf "default" strayRecords) := by
    have hfits : Mo.FitsWords strayRecords := by
      unfold Mo.FitsWords
      decide +kernel
    unfold Catalog.ofBytes Mo.parse
    rw [mapError_eq_ok_iff, Mo.readAll_image .big hfits, ok_bind]
  -- the sort is unfolded on names, so that only the comparisons are computed
  obtain ⟨a, b, c, hentries⟩ : ∃ a b c, (Mo.catalogOf "default" strayRecords).entries = [a, b, c] :=
    ⟨_, _, _, rfl⟩
  have hequal : Entry.keyLE a b = true := by
    cases hentries
    decide +kernel
  have hgreater : Entry.keyLE a c = false := by
    cases hentries
    decide +kernel
  have hsort : [a, b, c].mergeSort Entry.keyLE = [c, a, b] := by
    simp [List.mergeSort, List.MergeSort.Internal.splitInTwo, hequal, hgreater]
  have hfits : Mo.FitsWords (Mo.recordsOf [c, a, b] none ⟨2024, 3, 1, 9, 30, 15, 0⟩) := by
    cases hentries
    unfold Mo.FitsWords
    decide +kernel
  have hwrite : Mo.write (Mo.catalogOf "default" strayRecords).entries none
      ⟨2024, 3, 1, 9, 30, 15, 0⟩
        = .ok (Mo.image .little (Mo.recordsOf [c, a, b] none ⟨2024, 3, 1, 9, 30, 15, 0⟩)) := by
    rw [Mo.write_eq_ok_iff, hentries, hsort]
    exact ⟨hfits, rfl⟩
  obtain ⟨c', hc', hsame⟩ := merge_of_rebuilt hread hwrite
  refine ⟨_, _, c', hread, hwrite, hc', ?_⟩
  rw [hsame]
  decide +kernel

end MessageCatalog
