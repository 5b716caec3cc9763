/-
  MessageCatalog.Proofs.Text.Blank
  ────────────────────────────────
  **WHAT TRIMMING LEAVES.**

  Blanks go from the ends of a text only, so in a text of two parts the second part is
  trimmed alone unless it is blank throughout.  What has been trimmed is not changed by
  trimming it again.
-/
import Mathlib.Data.List.DropRight
import MessageCatalog.Text.Blank

namespace MessageCatalog.Text

theorem isBlankChar_of_isDigit {c : Char} (h : c.isDigit = true) : isBlankChar c = false := by
  have hall : ∀ n ≤ '9'.toNat, '0'.toNat ≤ n → isBlankChar (Char.ofNat n) = false := by decide
  rw [Char.isDigit_iff_toNat] at h
  have hc := hall c.toNat h.2 h.1
  rwa [Char.ofNat_toNat] at hc

theorem trimEnd_eq_rdropWhile (cs : List Char) : trimEnd cs = cs.rdropWhile isBlankChar := rfl

theorem trimEnd_eq_nil_iff {cs : List Char} : trimEnd cs = [] ↔ ∀ c ∈ cs, isBlankChar c = true := by
  rw [trimEnd_eq_rdropWhile, List.rdropWhile_eq_nil_iff]

theorem trimEnd_trimEnd (cs : List Char) : trimEnd (trimEnd cs) = trimEnd cs :=
  List.rdropWhile_idempotent _ _

theorem mem_of_mem_trimEnd {c : Char} {cs : List Char} (h : c ∈ trimEnd cs) : c ∈ cs := by
  have hstart : trimEnd cs <+: cs := List.rdropWhile_prefix isBlankChar cs
  exact hstart.subset h

theorem trimStart_eq_self {cs : List Char} (h : ∀ c ∈ cs, isBlankChar c = false) :
    trimStart cs = cs := by
  cases cs with
  | nil => rfl
  | cons c cs => exact trimStart_cons_of_not_blank (h c List.mem_cons_self)

theorem trimEnd_eq_self {cs : List Char} (h : ∀ c ∈ cs, isBlankChar c = false) :
    trimEnd cs = cs := by
  rw [trimEnd_eq_rdropWhile, List.rdropWhile_eq_self_iff]
  intro hne
  simp [h (cs.getLast hne) (List.getLast_mem hne)]

theorem trimEnd_append_singleton {c : Char} (h : isBlankChar c = false) (cs : List Char) :
    trimEnd (cs ++ [c]) = cs ++ [c] := by
  rw [trimEnd_eq_rdropWhile, List.rdropWhile_concat_neg]
  simp [h]

/-- A part that is not blank keeps what stands before it. -/
theorem trimEnd_append {cs : List Char} (h : trimEnd cs ≠ []) (front : List Char) :
    trimEnd (front ++ cs) = front ++ trimEnd cs := by
  have hne : (cs.reverse.dropWhile isBlankChar).isEmpty = false := by
    rw [List.isEmpty_eq_false_iff]
    intro hnil
    apply h
    unfold trimEnd
    rw [hnil, List.reverse_nil]
  unfold trimEnd
  rw [List.reverse_append, List.dropWhile_append, hne]
  simp

/-- A blank part goes, and what stands before it is trimmed. -/
theorem trimEnd_append_of_blank {cs : List Char} (h : ∀ c ∈ cs, isBlankChar c = true)
    (front : List Char) : trimEnd (front ++ cs) = trimEnd front := by
  have hnil : cs.reverse.dropWhile isBlankChar = [] := by
    rw [List.dropWhile_eq_nil_iff]
    exact fun c hc => h c (List.mem_reverse.1 hc)
  unfold trimEnd
  rw [List.reverse_append, List.dropWhile_append, hnil]
  rfl

theorem trimStart_append_of_blank {front : List Char} (h : ∀ c ∈ front, isBlankChar c = true)
    (cs : List Char) : trimStart (front ++ cs) = trimStart cs :=
  List.dropWhile_append_of_pos h

/-- Trimming takes the blanks around a part that has none. -/
theorem trim_between {before core behind : List Char}
    (hbefore : ∀ c ∈ before, isBlankChar c = true) (hcore : ∀ c ∈ core, isBlankChar c = false)
    (hbehind : ∀ c ∈ behind, isBlankChar c = true) : trim (before ++ (core ++ behind)) = core := by
  unfold trim
  rw [trimStart_append_of_blank hbefore]
  cases core with
  | nil =>
      have hnil : trimStart behind = [] := by
        rw [trimStart_eq_nil_iff, List.all_eq_true]
        exact hbehind
      rw [List.nil_append, hnil]
      rfl
  | cons c core =>
      rw [List.cons_append, trimStart_cons_of_not_blank (hcore c List.mem_cons_self),
        ← List.cons_append, trimEnd_append_of_blank hbehind, trimEnd_eq_self hcore]

/-- Trimming at the end leaves the start alone. -/
theorem trimStart_trimEnd_trimStart (cs : List Char) :
    trimStart (trimEnd (trimStart cs)) = trimEnd (trimStart cs) := by
  cases hstart : trimStart cs with
  | nil => rfl
  | cons c rest =>
      have hc : isBlankChar c = false := by
        unfold trimStart at hstart
        have hhead := @List.head_dropWhile_not _ isBlankChar cs (by rw [hstart]; simp)
        simpa [hstart] using hhead
      have hne : trimEnd (c :: rest) ≠ [] := by
        intro hnil
        have hblank := trimEnd_eq_nil_iff.1 hnil c List.mem_cons_self
        rw [hc] at hblank
        cases hblank
      obtain ⟨rest', hrest'⟩ : ∃ rest', trimEnd (c :: rest) = c :: rest' := by
        have hstart : trimEnd (c :: rest) <+: c :: rest :=
          List.rdropWhile_prefix isBlankChar (c :: rest)
        obtain ⟨tail, htail⟩ := hstart
        cases htrim : trimEnd (c :: rest) with
        | nil => exact absurd htrim hne
        | cons c' rest' =>
            rw [htrim, List.cons_append, List.cons.injEq] at htail
            exact ⟨rest', by rw [htail.1]⟩
      rw [hrest', trimStart_cons_of_not_blank hc]

theorem trim_trim (cs : List Char) : trim (trim cs) = trim cs := by
  unfold trim
  rw [trimStart_trimEnd_trimStart, trimEnd_trimEnd]

/-- What trimming leaves stands in the text. -/
theorem trim_isInfix (cs : List Char) : trim cs <:+: cs := by
  have hstart : trimEnd (trimStart cs) <+: trimStart cs :=
    List.rdropWhile_prefix isBlankChar (trimStart cs)
  have hend : trimStart cs <:+ cs := List.dropWhile_suffix isBlankChar
  exact hstart.isInfix.trans hend.isInfix

end MessageCatalog.Text
