/-
  MessageCatalog.Text.Search
  ────────────────────────────────
  **FINDING, CUTTING AND REPLACING.**

  Headers, header lines and templates are cut at separators and searched for
  fixed words.  Every function here is structural on the text, so that a law
  about it is one induction:

      after?       what follows the first occurrence of a word
      cutAt?       the text before and after the first occurrence
      pieces       the parts between separators (n separators, n+1 parts)
      replaceAll   every occurrence of a word, from the left, replaced
-/

namespace MessageCatalog.Text

/-! ## §1. The first occurrence of a word. -/

/-- What follows `word` when the text starts with it. -/
def afterHead? : List Char → List Char → Option (List Char)
  | [], cs => some cs
  | _ :: _, [] => none
  | w :: ws, c :: cs => if w = c then afterHead? ws cs else none

theorem afterHead?_eq_some_iff {word cs rest : List Char} :
    afterHead? word cs = some rest ↔ cs = word ++ rest := by
  induction word generalizing cs with
  | nil => simp [afterHead?]
  | cons w ws ih =>
      cases cs with
      | nil => simp [afterHead?]
      | cons c cs =>
          by_cases h : w = c
          · subst h; simp [afterHead?, ih]
          · simp [afterHead?, h, Ne.symm h]

/-- The text before and after the first occurrence of `word`. -/
def cutAt? (word : List Char) : List Char → Option (List Char × List Char)
  | [] => (afterHead? word []).map fun rest => ([], rest)
  | c :: cs =>
      match afterHead? word (c :: cs) with
      | some rest => some ([], rest)
      | none => (cutAt? word cs).map fun (before, rest) => (c :: before, rest)

/-- What follows the first occurrence of `word`. -/
def after? (word cs : List Char) : Option (List Char) :=
  (cutAt? word cs).map Prod.snd

/-- Whether `word` occurs in the text. -/
def contains (word cs : List Char) : Bool :=
  (cutAt? word cs).isSome

/-- A cut takes nothing away but the word. -/
theorem eq_append_of_cutAt? {word cs before rest : List Char}
    (h : cutAt? word cs = some (before, rest)) : cs = before ++ word ++ rest := by
  induction cs generalizing before with
  | nil =>
      simp only [cutAt?, Option.map_eq_some_iff, Prod.mk.injEq] at h
      obtain ⟨r, hr, rfl, rfl⟩ := h
      simpa using afterHead?_eq_some_iff.1 hr
  | cons c cs ih =>
      unfold cutAt? at h
      split at h
      next r hr =>
        cases h
        simpa using afterHead?_eq_some_iff.1 hr
      next =>
        simp only [Option.map_eq_some_iff, Prod.mk.injEq] at h
        obtain ⟨⟨b, r⟩, hr, rfl, rfl⟩ := h
        simpa using ih hr

/-! ## §2. Parts between separators. -/

/-- The parts between the characters that `sep` holds of; `n` separators give
`n + 1` parts, empty ones included. -/
def pieces (sep : Char → Bool) : List Char → List (List Char)
  | [] => [[]]
  | c :: cs =>
      if sep c then [] :: pieces sep cs
      else
        match pieces sep cs with
        | [] => [[c]]
        | part :: parts => (c :: part) :: parts

theorem pieces_ne_nil (sep : Char → Bool) (cs : List Char) : pieces sep cs ≠ [] := by
  cases cs with
  | nil => simp [pieces]
  | cons c cs =>
      unfold pieces
      split
      · simp
      · split <;> simp

/-- A text without separators is its own only part. -/
theorem pieces_eq_singleton {sep : Char → Bool} {cs : List Char}
    (h : ∀ c ∈ cs, sep c = false) : pieces sep cs = [cs] := by
  induction cs with
  | nil => rfl
  | cons c cs ih =>
      have hc : sep c = false := h c (by simp)
      have hcs := ih fun d hd => h d (by simp [hd])
      simp [pieces, hc, hcs]

/-- The parts of a text that opens with a part free of separators. -/
theorem pieces_append_cons {sep : Char → Bool} {part : List Char} {s : Char} {cs : List Char}
    (h : ∀ c ∈ part, sep c = false) (hs : sep s = true) :
    pieces sep (part ++ s :: cs) = part :: pieces sep cs := by
  induction part with
  | nil => simp [pieces, hs]
  | cons c part ih =>
      have hc : sep c = false := h c (by simp)
      have hp := ih fun d hd => h d (by simp [hd])
      simp [pieces, hc, hp]

/-- The parts are those of the library's function for lists of any kind. -/
theorem pieces_eq_splitOnP (sep : Char → Bool) (cs : List Char) :
    pieces sep cs = cs.splitOnP sep := by
  induction cs with
  | nil => rfl
  | cons c cs ih =>
      rw [List.splitOnP_cons_eq_if_modifyHead, ← ih, pieces]
      cases h : pieces sep cs with
      | nil => exact absurd h (pieces_ne_nil sep cs)
      | cons part parts => rfl

/-! ## §3. Replacing a word. -/

/-- `replaceAll word new cs` with `skip` characters still to be dropped, which
belong to an occurrence already replaced. -/
def replaceFrom (word new : List Char) : Nat → List Char → List Char
  | _, [] => []
  | skip + 1, _ :: cs => replaceFrom word new skip cs
  | 0, c :: cs =>
      match afterHead? word (c :: cs) with
      | some _ => new ++ replaceFrom word new (word.length - 1) cs
      | none => c :: replaceFrom word new 0 cs

/-- Every occurrence of the non-empty `word`, found from the left without
overlap, replaced by `new`. -/
def replaceAll (word new cs : List Char) : List Char :=
  replaceFrom word new 0 cs

example : replaceAll "aa".toList "b".toList "aaa".toList = "ba".toList := by decide

end MessageCatalog.Text
