/-
  MessageCatalog.Proofs.Text.Search
  ────────────────────────────────
  **CUTTING WHAT WAS JOINED, AND REPLACING WORDS.**

  A separator cuts a text in two, and the parts of the text are those of both sides.
  Texts free of separators come apart again where a separator joins them.

  The occurrences of a word that are replaced are found from the left, so laws about
  replacing go by induction along them (`occurrence_induction`): the text starts with an
  occurrence, or its first character is kept.
-/
import Mathlib.Data.List.Infix
import MessageCatalog.Text.Search

namespace MessageCatalog.Text

/-! ## §1. The first occurrence of a word. -/

theorem cutAt?_eq_none_iff {word cs : List Char} : cutAt? word cs = none ↔ ¬ word <:+: cs := by
  induction cs with
  | nil => cases word <;> simp [cutAt?, afterHead?]
  | cons c cs ih =>
      rw [cutAt?, List.infix_cons_iff, not_or, ← ih]
      cases hhead : afterHead? word (c :: cs) with
      | some rest =>
          have hopens : word <+: c :: cs := ⟨rest, (afterHead?_eq_some_iff.1 hhead).symm⟩
          simp [hopens]
      | none =>
          have hopens : ¬ word <+: c :: cs := by
            rintro ⟨rest, hrest⟩
            rw [afterHead?_eq_some_iff.2 hrest.symm] at hhead
            cases hhead
          simp [hopens]

/-- Before the first occurrence of a word there is none. -/
theorem not_isInfix_of_cutAt? {word cs before rest : List Char} (hword : word ≠ [])
    (h : cutAt? word cs = some (before, rest)) : ¬ word <:+: before := by
  induction cs generalizing before with
  | nil =>
      rw [cutAt?, Option.map_eq_some_iff] at h
      obtain ⟨rest', -, heq⟩ := h
      cases heq
      simpa using hword
  | cons c cs ih =>
      rw [cutAt?] at h
      split at h
      next rest' _ =>
        cases h
        simpa using hword
      next hhead =>
        rw [Option.map_eq_some_iff] at h
        obtain ⟨⟨b, r⟩, hcut, heq⟩ := h
        cases heq
        rw [List.infix_cons_iff, not_or]
        refine ⟨?_, ih hcut⟩
        -- an occurrence at the start would have been found
        rintro ⟨tail, htail⟩
        have hcs : c :: cs = word ++ (tail ++ (word ++ rest)) := by
          rw [eq_append_of_cutAt? hcut, ← List.append_assoc word, htail]
          simp
        rw [afterHead?_eq_some_iff.2 hcs] at hhead
        cases hhead

/-- A text is cut at two characters where they stand together first. -/
theorem cutAt?_append_pair {p q : Char} (hne : p ≠ q) {key : List Char} (h : ¬ [p, q] <:+: key)
    (rest : List Char) : cutAt? [p, q] (key ++ p :: q :: rest) = some (key, rest) := by
  induction key with
  | nil => simp [cutAt?, afterHead?]
  | cons c key ih =>
      rw [List.infix_cons_iff, not_or] at h
      have hhead : afterHead? [p, q] (c :: (key ++ p :: q :: rest)) = none := by
        cases key with
        | nil => simp [afterHead?, hne.symm]
        | cons c' key =>
            have hpair : p = c → q ≠ c' := by
              rintro rfl rfl
              exact h.1 ⟨key, rfl⟩
            simpa [afterHead?] using hpair
      rw [List.cons_append, cutAt?, hhead, ih h.2]
      rfl

/-- A word is found behind a text that is free of the character it starts with. -/
theorem cutAt?_append_of_not_mem {w : Char} {ws front : List Char} (h : w ∉ front)
    (rest : List Char) : cutAt? (w :: ws) (front ++ (w :: ws ++ rest)) = some (front, rest) := by
  induction front with
  | nil =>
      have hhead : afterHead? (w :: ws) (w :: (ws ++ rest)) = some rest :=
        afterHead?_eq_some_iff.2 rfl
      rw [List.nil_append, List.cons_append, cutAt?, hhead]
  | cons c front ih =>
      rw [List.mem_cons, not_or] at h
      have hhead : afterHead? (w :: ws) (c :: (front ++ (w :: ws ++ rest))) = none := by
        rw [afterHead?, if_neg h.1]
      rw [List.cons_append, cutAt?, hhead, ih h.2]
      rfl

/-- A text is cut at one character where it stands first. -/
theorem cutAt?_singleton_eq_some_iff {s : Char} {cs key rest : List Char} :
    cutAt? [s] cs = some (key, rest) ↔ s ∉ key ∧ cs = key ++ s :: rest := by
  constructor
  · intro h
    have hfree := not_isInfix_of_cutAt? (List.cons_ne_nil s []) h
    rw [List.singleton_infix_iff] at hfree
    refine ⟨hfree, ?_⟩
    rw [eq_append_of_cutAt? h, List.append_assoc]
    rfl
  · rintro ⟨hfree, rfl⟩
    exact cutAt?_append_of_not_mem hfree rest

theorem after?_cons (word : List Char) (c : Char) (cs : List Char) :
    after? word (c :: cs) = (afterHead? word (c :: cs)).or (after? word cs) := by
  unfold after?
  rw [cutAt?]
  cases afterHead? word (c :: cs) with
  | some rest => rfl
  | none => cases cutAt? word cs <;> rfl

/-- What a text starts with is not changed by a separator and what is behind it. -/
theorem afterHead?_append_sep {word : List Char} {s : Char} (hs : s ∉ word) (cs rest : List Char) :
    afterHead? word (cs ++ s :: rest) = (afterHead? word cs).map (· ++ s :: rest) := by
  induction word generalizing cs with
  | nil => simp [afterHead?]
  | cons w ws ih =>
      rw [List.mem_cons, not_or] at hs
      cases cs with
      | nil => exact if_neg (Ne.symm hs.1)
      | cons c cs =>
          rw [List.cons_append, afterHead?, afterHead?]
          split
          next => exact ih hs.2 cs
          next => rfl

/-- A word is looked for in front of a separator first, and then behind it. -/
theorem after?_append_sep {word : List Char} (hword : word ≠ []) {s : Char} (hs : s ∉ word)
    (cs rest : List Char) :
    after? word (cs ++ s :: rest)
      = ((after? word cs).map (· ++ s :: rest)).or (after? word rest) := by
  have hhead := afterHead?_append_sep hs
  induction cs with
  | nil =>
      have hnil : after? word [] = none := by
        cases word with
        | nil => exact absurd rfl hword
        | cons w ws => rfl
      have hsep : afterHead? word (s :: rest) = none := by
        cases word with
        | nil => exact absurd rfl hword
        | cons w ws => exact hhead [] rest
      rw [List.nil_append, after?_cons, hsep, hnil]
      rfl
  | cons c cs ih =>
      rw [List.cons_append, after?_cons, after?_cons, ← List.cons_append, hhead, ih, Option.map_or,
        Option.or_assoc]

/-! ## §2. Parts between separators. -/

/-- A separator cuts the parts of a text in two. -/
theorem pieces_append_sep {sep : Char → Bool} {s : Char} (hs : sep s = true)
    (front rest : List Char) :
    pieces sep (front ++ s :: rest) = pieces sep front ++ pieces sep rest := by
  induction front with
  | nil => simp [pieces, hs]
  | cons c front ih =>
      by_cases hc : sep c = true
      · simp [pieces, hc, ih]
      · rw [List.cons_append, pieces, pieces, if_neg hc, if_neg hc, ih]
        cases h : pieces sep front with
        | nil => exact absurd h (pieces_ne_nil sep front)
        | cons part parts => rfl

/-- There is no separator in a part. -/
theorem sep_eq_false_of_mem_pieces {sep : Char → Bool} {cs part : List Char}
    (h : part ∈ pieces sep cs) : ∀ c ∈ part, sep c = false := by
  induction cs generalizing part with
  | nil =>
      have hpart : part = [] := by simpa [pieces] using h
      subst hpart
      simp
  | cons c cs ih =>
      unfold pieces at h
      split at h
      next =>
        rcases List.mem_cons.1 h with rfl | h
        · simp
        · exact ih h
      next hc =>
        split at h
        next hnil => exact absurd hnil (pieces_ne_nil sep cs)
        next first parts hpieces =>
          rw [hpieces] at ih
          rcases List.mem_cons.1 h with rfl | h
          · rw [List.forall_mem_cons]
            exact ⟨by simpa using hc, ih List.mem_cons_self⟩
          · exact ih (List.mem_cons_of_mem _ h)

/-- The characters of a part are characters of the text. -/
theorem subset_of_mem_pieces {sep : Char → Bool} {cs part : List Char}
    (h : part ∈ pieces sep cs) : part ⊆ cs := by
  induction cs generalizing part with
  | nil =>
      have hpart : part = [] := by simpa [pieces] using h
      subst hpart
      exact List.nil_subset []
  | cons c cs ih =>
      unfold pieces at h
      split at h
      next =>
        rcases List.mem_cons.1 h with rfl | h
        · exact List.nil_subset _
        · exact List.subset_cons_of_subset c (ih h)
      next =>
        split at h
        next hnil => exact absurd hnil (pieces_ne_nil sep cs)
        next first parts hpieces =>
          rw [hpieces] at ih
          rcases List.mem_cons.1 h with rfl | h
          · exact List.cons_subset_cons c (ih List.mem_cons_self)
          · exact List.subset_cons_of_subset c (ih (List.mem_cons_of_mem _ h))

/-- The parts of a text make up the text. -/
theorem intercalate_pieces (s : Char) (cs : List Char) :
    [s].intercalate (pieces (· == s) cs) = cs := by
  rw [pieces_eq_splitOnP]
  exact List.intercalate_splitOn s

/-- Parts without separators come apart where separators join them. -/
theorem pieces_intercalate {sep : Char → Bool} {s : Char} (hs : sep s = true)
    {parts : List (List Char)} (hne : parts ≠ [])
    (hfree : ∀ part ∈ parts, ∀ c ∈ part, sep c = false) :
    pieces sep ([s].intercalate parts) = parts := by
  induction parts with
  | nil => exact absurd rfl hne
  | cons part parts ih =>
      rw [List.forall_mem_cons] at hfree
      cases parts with
      | nil =>
          rw [List.intercalate_singleton]
          exact pieces_eq_singleton hfree.1
      | cons next parts =>
          rw [List.intercalate_cons_cons, List.append_assoc]
          show pieces sep (part ++ s :: [s].intercalate (next :: parts)) = _
          rw [pieces_append_cons hfree.1 hs, ih (by simp) hfree.2]

/-! ## §3. Replacing a word. -/

section Replacing

variable {word new : List Char}

/-- What belongs to an occurrence that has been replaced is dropped. -/
theorem replaceFrom_append (word new : List Char) (taken cs : List Char) :
    replaceFrom word new taken.length (taken ++ cs) = replaceAll word new cs := by
  induction taken with
  | nil => rfl
  | cons c taken ih => exact ih

/-- A character at which the word does not start is kept. -/
theorem replaceAll_cons {c : Char} {cs : List Char} (h : ¬ word <+: c :: cs) :
    replaceAll word new (c :: cs) = c :: replaceAll word new cs := by
  have hhead : afterHead? word (c :: cs) = none := by
    cases hsome : afterHead? word (c :: cs) with
    | none => rfl
    | some rest => exact absurd ⟨rest, (afterHead?_eq_some_iff.1 hsome).symm⟩ h
  unfold replaceAll
  rw [replaceFrom, hhead]

/-- An occurrence of the word is replaced. -/
theorem replaceAll_append_self (hword : word ≠ []) (cs : List Char) :
    replaceAll word new (word ++ cs) = new ++ replaceAll word new cs := by
  cases word with
  | nil => exact absurd rfl hword
  | cons w ws =>
      have hhead : afterHead? (w :: ws) (w :: (ws ++ cs)) = some cs :=
        afterHead?_eq_some_iff.2 rfl
      show replaceFrom (w :: ws) new 0 (w :: (ws ++ cs)) = _
      rw [replaceFrom, hhead, List.length_cons, Nat.add_sub_cancel]
      exact congrArg (new ++ ·) (replaceFrom_append (w :: ws) new ws cs)

/-- Induction along the occurrences that are found from the left. -/
theorem occurrence_induction (hword : word ≠ []) {motive : List Char → Prop} (nil : motive [])
    (keep : ∀ c cs, ¬ word <+: c :: cs → motive cs → motive (c :: cs))
    (replace : ∀ cs, motive cs → motive (word ++ cs)) (cs : List Char) : motive cs := by
  induction hlength : cs.length using Nat.strong_induction_on generalizing cs with
  | _ n ih =>
      subst hlength
      cases cs with
      | nil => exact nil
      | cons c cs =>
          by_cases h : word <+: c :: cs
          · obtain ⟨rest, hrest⟩ := h
            rw [← hrest]
            have hpos : 0 < word.length := List.length_pos_of_ne_nil hword
            refine replace rest (ih rest.length ?_ rest rfl)
            rw [← hrest, List.length_append]
            omega
          · exact keep c cs h (ih cs.length (by simp) cs rfl)

/-- No occurrence starts in a text that is free of the first character of the word. -/
theorem replaceAll_append_of_not_mem {w : Char} {ws front : List Char} (h : w ∉ front)
    (cs : List Char) :
    replaceAll (w :: ws) new (front ++ cs) = front ++ replaceAll (w :: ws) new cs := by
  induction front with
  | nil => rfl
  | cons c front ih =>
      rw [List.mem_cons, not_or] at h
      have hhead : ¬ w :: ws <+: c :: (front ++ cs) := by
        rw [List.cons_prefix_cons]
        exact fun hpair => h.1 hpair.1
      rw [List.cons_append, replaceAll_cons hhead, ih h.2]
      rfl

/-- A word that is in front of a character not in it ends before this character. -/
theorem prefix_append_cons_iff {c : Char} (hc : c ∉ word) {front cs : List Char} :
    word <+: front ++ c :: cs ↔ word <+: front := by
  constructor
  · intro h
    rcases List.prefix_or_prefix_of_prefix h (List.prefix_append front _) with hfront | hword
    · exact hfront
    · obtain ⟨more, rfl⟩ := hword
      rw [List.prefix_append_right_inj] at h
      cases more with
      | nil => rw [List.append_nil]
      | cons d more =>
          rw [List.cons_prefix_cons] at h
          exact absurd (by simp [h.1]) hc
  · exact fun h => h.trans (List.prefix_append front _)

/-- A word with a character behind it goes on behind a text in which the character is not. -/
theorem concat_prefix_append_iff {c : Char} {front cs : List Char} (h : c ∉ front) :
    word ++ [c] <+: front ++ cs ↔ ∃ more, word = front ++ more ∧ more ++ [c] <+: cs := by
  induction front generalizing word with
  | nil => simp
  | cons d front ih =>
      rw [List.mem_cons, not_or] at h
      cases word with
      | nil => simp [h.1]
      | cons w word =>
          rw [List.cons_append, List.cons_append, List.cons_prefix_cons, ih h.2]
          simp only [List.cons_append, List.cons.injEq]
          constructor
          · rintro ⟨rfl, more, rfl, hmore⟩
            exact ⟨more, ⟨rfl, rfl⟩, hmore⟩
          · rintro ⟨more, ⟨rfl, rfl⟩, hmore⟩
            exact ⟨rfl, more, rfl, hmore⟩

/-- No occurrence goes across a character that is not in the word. -/
theorem replaceAll_append_cons (hword : word ≠ []) {c : Char} (hc : c ∉ word)
    (front cs : List Char) :
    replaceAll word new (front ++ c :: cs)
      = replaceAll word new front ++ c :: replaceAll word new cs := by
  induction front using occurrence_induction hword with
  | nil =>
      have hhead : ¬ word <+: [] ++ c :: cs := by
        rw [prefix_append_cons_iff hc, List.prefix_nil]
        exact hword
      exact replaceAll_cons hhead
  | keep d front h ih =>
      have hhead : ¬ word <+: d :: (front ++ c :: cs) := by
        rwa [← List.cons_append, prefix_append_cons_iff hc]
      rw [List.cons_append, replaceAll_cons hhead, replaceAll_cons h, ih]
      rfl
  | replace front ih =>
      rw [List.append_assoc, replaceAll_append_self hword, replaceAll_append_self hword, ih,
        List.append_assoc]

/-- What a text starts with is what it starts with after the replacement, as far as no character
with which the word or its replacement starts is in it. -/
theorem prefix_replaceAll_iff {w n : Char} {ws ns : List Char} {start : List Char}
    (hw : w ∉ start) (hn : n ∉ start) {cs : List Char} :
    start <+: replaceAll (w :: ws) (n :: ns) cs ↔ start <+: cs := by
  induction start generalizing cs with
  | nil => simp
  | cons x start ih =>
      rw [List.mem_cons, not_or] at hw hn
      cases cs using occurrence_induction (List.cons_ne_nil w ws) with
      | nil => rfl
      | keep c cs h _ =>
          rw [replaceAll_cons h, List.cons_prefix_cons, List.cons_prefix_cons, ih hw.2 hn.2]
      | replace cs _ =>
          rw [replaceAll_append_self (List.cons_ne_nil w ws), List.cons_append, List.cons_append,
            List.cons_prefix_cons, List.cons_prefix_cons]
          simp [Ne.symm hw.1, Ne.symm hn.1]

/-- A replacement keeps the parity of how often a character occurs, if it is the same in the word
and in what replaces it. -/
theorem count_replaceAll_mod_two (hword : word ≠ []) {x : Char}
    (hparity : new.count x % 2 = word.count x % 2) (cs : List Char) :
    (replaceAll word new cs).count x % 2 = cs.count x % 2 := by
  induction cs using occurrence_induction hword with
  | nil => rfl
  | keep c cs h ih =>
      rw [replaceAll_cons h, List.count_cons, List.count_cons]
      omega
  | replace cs ih =>
      rw [replaceAll_append_self hword, List.count_append, List.count_append]
      omega

end Replacing

end MessageCatalog.Text
