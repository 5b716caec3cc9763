/-
  MessageCatalog.Proofs.Plural.Headers
  ────────────────────────────────
  **HEADERS AND BARE EXPRESSIONS.**

  `evaluate` is given a header or a bare expression, and it does not try both: a text in which
  `plural=` or `plural =` stands is taken for a header, every other text for an expression.

      a bare expression     never has the letter p in it      taken for an expression
      a header              has a clause with the key plural  taken for a header, if marked

  So a bare expression is always evaluated as it should be.  A header is read alike whichever
  blanks stand around its keys, in whatever order its clauses come and whatever other clauses
  there are (`exists_of_names`).  But it is taken for a header only where the key is followed by
  the equals sign or by a single space before it; any other header is refused, since it is no
  expression either (`evaluate_spaced_key`).
-/
import MessageCatalog.Plural.Forms
import MessageCatalog.Proofs.Plural.Lexing
import MessageCatalog.Proofs.Steps
import MessageCatalog.Proofs.Text.Blank
import MessageCatalog.Proofs.Text.Search

namespace MessageCatalog.Plural

open MessageCatalog.Text

/-! ## §1. The characters of an expression. -/

/-- A blank between tokens, a digit, or a character of a sign. -/
def isExpressionChar (c : Char) : Bool :=
  isSpace c || c.isDigit || "n()?:|&=!<>+-*/%".toList.contains c

theorem isExpressionChar_of_mem_signChars {c : Char} (h : c ∈ signChars) :
    isExpressionChar c = true := by
  have hcontains : "n()?:|&=!<>+-*/%".toList.contains c = true := List.contains_iff_mem.2 h
  unfold isExpressionChar
  rw [hcontains, Bool.or_true]

/-- **All characters of a text that is made of tokens are those of expressions.** -/
theorem isExpressionChar_of_lexes {position : Nat} {front rest : List Char} {tokens : List Token}
    (h : Lexes position front rest tokens) : ∀ c ∈ front, isExpressionChar c = true := by
  induction h with
  | nil => simp
  | blank hspace _ ih =>
      rw [List.forall_mem_cons]
      exact ⟨by simp [isExpressionChar, hspace], ih⟩
  | token hmunches _ ih =>
      rw [List.forall_mem_append]
      refine ⟨fun c hc => ?_, ih⟩
      rcases hmunches.written.of_mem hc with hdigit | hsign
      · simp [isExpressionChar, hdigit]
      · exact isExpressionChar_of_mem_signChars hsign

theorem isExpressionChar_of_parse {text : String} {e : Expr} (h : Expr.parse text = .ok e) :
    ∀ c ∈ text.toList, isExpressionChar c = true := by
  unfold Expr.parse at h
  split at h
  next => cases h
  next =>
    obtain ⟨tokens, htokens, -⟩ := bind_eq_ok_iff.1 h
    exact isExpressionChar_of_lexes (scan_eq_ok_iff.1 htokens)

/-! ## §2. What the clauses set. -/

/-- The key that sets the formula. -/
def formulaKey : List Char := "plural".toList

/-- A clause sets a formula: what stands in front of its first equals sign is the key, with blanks
around it or without. -/
def Sets (clause formula : List Char) : Prop :=
  ∃ key, '=' ∉ key ∧ clause = key ++ '=' :: formula ∧ trim key = formulaKey

/-- The formula that a clause sets, if it sets one. -/
def formulaIn? (clause : List Char) : Option (List Char) :=
  match clause? clause with
  | none => none
  | some (key, value) => if trim key = formulaKey then some value else none

theorem formulaIn?_eq_some_iff {clause formula : List Char} :
    formulaIn? clause = some formula ↔ Sets clause formula := by
  unfold formulaIn? Sets
  constructor
  · intro h
    split at h
    next => cases h
    next key value hclause =>
      obtain ⟨hfree, heq⟩ := cutAt?_singleton_eq_some_iff.1 hclause
      split at h
      next hkey =>
        cases h
        exact ⟨key, hfree, heq, hkey⟩
      next => cases h
  · rintro ⟨key, hfree, heq, hkey⟩
    have hclause : clause? clause = some (key, formula) :=
      cutAt?_singleton_eq_some_iff.2 ⟨hfree, heq⟩
    rw [hclause]
    exact if_pos hkey

/-- A clause that sets no formula is read, and leaves the expression as it is. -/
theorem read_of_formulaIn?_eq_none {clause : List Char} (h : formulaIn? clause = none)
    (seen : Clauses) :
    ∃ seen', seen.read clause = .ok seen' ∧ seen'.expression = seen.expression := by
  unfold formulaIn? at h
  unfold Clauses.read
  cases hclause : clause? clause with
  | none => exact ⟨seen, rfl, rfl⟩
  | some pair =>
      obtain ⟨key, value⟩ := pair
      rw [hclause] at h
      have hkey : trim key ≠ "plural".toList := by
        intro heq
        change (if trim key = "plural".toList then some value else none) = none at h
        rw [if_pos heq] at h
        cases h
      simp only [if_neg hkey]
      split
      · exact ⟨_, rfl, rfl⟩
      · exact ⟨seen, rfl, rfl⟩

/-- A clause that sets a formula sets the expression that the formula is read as. -/
theorem read_of_sets {clause formula : List Char} {e : Expr} (h : Sets clause formula)
    (hparse : Expr.parse (String.ofList formula) = .ok e) (seen : Clauses) :
    seen.read clause = .ok { seen with expression := some e } := by
  obtain ⟨key, hfree, heq, hkey⟩ := h
  have hclause : clause? clause = some (key, formula) :=
    cutAt?_singleton_eq_some_iff.2 ⟨hfree, heq⟩
  have hother : trim key ≠ "nplurals".toList := by
    rw [hkey]
    decide
  unfold Clauses.read
  simp only [hclause, if_neg hother]
  rw [if_pos (show trim key = "plural".toList from hkey), hparse]
  rfl

/-- Clauses that set no formula leave the expression as it is. -/
theorem foldlM_read_of_none {clauses : List (List Char)}
    (h : ∀ clause ∈ clauses, formulaIn? clause = none) (seen : Clauses) :
    ∃ seen', clauses.foldlM Clauses.read seen = .ok seen'
      ∧ seen'.expression = seen.expression := by
  induction clauses generalizing seen with
  | nil => exact ⟨seen, rfl, rfl⟩
  | cons clause clauses ih =>
      rw [List.forall_mem_cons] at h
      obtain ⟨between, hread, hbetween⟩ := read_of_formulaIn?_eq_none h.1 seen
      obtain ⟨after, hfold, hafter⟩ := ih h.2 between
      refine ⟨after, ?_, hafter.trans hbetween⟩
      rw [List.foldlM_cons, hread]
      exact hfold

/-- Clauses that all set formulas with one reading set this reading, once one of them has come. -/
theorem foldlM_read_of_sets {clauses : List (List Char)} {e : Expr}
    (hall : ∀ clause ∈ clauses, ∀ formula, Sets clause formula →
      Expr.parse (String.ofList formula) = .ok e) (seen : Clauses)
    (hsome : seen.expression = some e ∨ ∃ clause ∈ clauses, ∃ formula, Sets clause formula) :
    ∃ seen', clauses.foldlM Clauses.read seen = .ok seen' ∧ seen'.expression = some e := by
  induction clauses generalizing seen with
  | nil =>
      rcases hsome with hseen | ⟨clause, hclause, -⟩
      · exact ⟨seen, rfl, hseen⟩
      · cases hclause
  | cons clause clauses ih =>
      rw [List.forall_mem_cons] at hall
      rw [List.foldlM_cons]
      cases hformula : formulaIn? clause with
      | some formula =>
          -- from here on the expression is set, whatever it was before
          have hsets := formulaIn?_eq_some_iff.1 hformula
          rw [read_of_sets hsets (hall.1 formula hsets) seen]
          exact ih hall.2 _ (Or.inl rfl)
      | none =>
          obtain ⟨between, hread, hbetween⟩ := read_of_formulaIn?_eq_none hformula seen
          rw [hread]
          refine ih hall.2 between ?_
          rcases hsome with hseen | ⟨clause', hclause', formula, hsets⟩
          · exact Or.inl (hbetween.trans hseen)
          · right
            rcases List.mem_cons.1 hclause' with rfl | hmem
            · rw [formulaIn?_eq_some_iff.2 hsets] at hformula
              cases hformula
            · exact ⟨clause', hmem, formula, hsets⟩

/-! ## §3. Headers. -/

/-- A header names an expression: it has a clause that sets a formula, and all formulas that are
set are read as this expression. -/
structure Names (header : String) (e : Expr) : Prop where
  sets : ∃ clause ∈ pieces (· == ';') header.toList, ∃ formula, Sets clause formula
  reads : ∀ clause ∈ pieces (· == ';') header.toList, ∀ formula, Sets clause formula →
    Expr.parse (String.ofList formula) = .ok e

/-- **A header that names an expression has this expression**, whichever blanks stand around its
keys, in whatever order its clauses come and whatever other clauses there are. -/
theorem exists_of_names {header : String} {e : Expr} (h : Names header e) :
    ∃ f, Forms.parse header = .ok f ∧ f.expression = e := by
  obtain ⟨seen, hfold, hseen⟩ := foldlM_read_of_sets h.reads {} (Or.inr h.sets)
  refine ⟨⟨seen.nplurals, e⟩, ?_, rfl⟩
  unfold Forms.parse
  refine bind_eq_ok_iff.2 ⟨seen, hfold, ?_⟩
  simp only [hseen]

/-- A header that is read has a clause that sets a formula. -/
theorem exists_sets_of_parse {header : String} {f : Forms} (h : Forms.parse header = .ok f) :
    ∃ clause ∈ pieces (· == ';') header.toList, ∃ formula, Sets clause formula := by
  by_cases hnone : ∀ clause ∈ pieces (· == ';') header.toList, formulaIn? clause = none
  · -- with no formula the expression is missing at the end
    exfalso
    obtain ⟨seen, hfold, hseen⟩ := foldlM_read_of_none hnone {}
    obtain ⟨seen', hfold', hend⟩ := bind_eq_ok_iff.1 h
    rw [hfold, Except.ok.injEq] at hfold'
    subst hfold'
    simp only [hseen] at hend
    cases hend
  · simp only [not_forall] at hnone
    obtain ⟨clause, hmem, hne⟩ := hnone
    obtain ⟨formula, hformula⟩ := Option.ne_none_iff_exists'.1 hne
    exact ⟨clause, hmem, formula, formulaIn?_eq_some_iff.1 hformula⟩

/-- **No header is an expression**: there is no p in an expression. -/
theorem parse_fails_of_header {header : String} {f : Forms} (h : Forms.parse header = .ok f) :
    ∃ fault, Expr.parse header = .error fault := by
  cases hparse : Expr.parse header with
  | error fault => exact ⟨fault, rfl⟩
  | ok e =>
      exfalso
      obtain ⟨clause, hclause, formula, key, -, rfl, hkey⟩ := exists_sets_of_parse h
      have hp : 'p' ∈ trim key := by
        rw [hkey]
        decide
      have hmem : 'p' ∈ header.toList := by
        apply subset_of_mem_pieces hclause
        exact List.mem_append_left _ ((trim_isInfix key).subset hp)
      have hchar := isExpressionChar_of_parse hparse 'p' hmem
      exact absurd hchar (by decide)

/-! ## §4. The two readings. -/

/-- A text that is taken for a header: somewhere in it the key stands with the equals sign behind
it, or with a single space between them. -/
def Marked (text : String) : Prop :=
  "plural=".toList <:+: text.toList ∨ "plural =".toList <:+: text.toList

theorem isHeader_iff {text : String} : isHeader text = true ↔ Marked text := by
  have hword (word : List Char) : contains word text.toList = true ↔ word <:+: text.toList := by
    unfold contains
    rw [Option.isSome_iff_ne_none, Ne, cutAt?_eq_none_iff, not_not]
  unfold isHeader Marked
  rw [Bool.or_eq_true, hword, hword]

/-- An expression is not marked as a header. -/
theorem not_marked_of_parse {text : String} {e : Expr} (h : Expr.parse text = .ok e) :
    ¬ Marked text := by
  intro hmarked
  have hp : 'p' ∈ text.toList := by
    rcases hmarked with hword | hword
    · exact hword.subset (by decide)
    · exact hword.subset (by decide)
  exact absurd (isExpressionChar_of_parse h 'p' hp) (by decide)

theorem evaluate_of_marked {text : String} (h : Marked text) (n : Nat) :
    evaluate text n = (Forms.parse text).bind fun f => f.index n :=
  if_pos (isHeader_iff.2 h)

theorem evaluate_of_not_marked {text : String} (h : ¬ Marked text) (n : Nat) :
    evaluate text n = (Expr.parse text).bind fun e => e.index n :=
  if_neg fun hheader => h (isHeader_iff.1 hheader)

/-- **The two readings of a formula agree** wherever a header is marked as one.

A header that can be read is evaluated with the rule that was read if it is marked, and refused
otherwise.  A bare expression is evaluated as the expression that it is.  A header that names an
expression, whatever its spacing and its other clauses, has this expression as its rule. -/
theorem evaluate_agrees (text : String) (n : Nat) :
    (∀ f, Forms.parse text = .ok f →
        (Marked text → evaluate text n = f.index n)
          ∧ (¬ Marked text →
            ∃ fault, Expr.parse text = .error fault ∧ evaluate text n = .error fault))
      ∧ (∀ e, Expr.parse text = .ok e → evaluate text n = e.index n)
      ∧ ∀ e, Names text e → ∃ f, Forms.parse text = .ok f ∧ f.expression = e
          ∧ (Marked text → evaluate text n = e.index n) := by
  have hmarked (f : Forms) (h : Forms.parse text = .ok f) (hmark : Marked text) :
      evaluate text n = f.index n := by
    rw [evaluate_of_marked hmark, h]
    rfl
  refine ⟨fun f h => ⟨hmarked f h, fun hmark => ?_⟩, fun e h => ?_, fun e h => ?_⟩
  · obtain ⟨fault, hfault⟩ := parse_fails_of_header h
    refine ⟨fault, hfault, ?_⟩
    rw [evaluate_of_not_marked hmark, hfault]
    rfl
  · rw [evaluate_of_not_marked (not_marked_of_parse h), h]
    rfl
  · obtain ⟨f, hf, hexpression⟩ := exists_of_names h
    refine ⟨f, hf, hexpression, fun hmark => ?_⟩
    rw [hmarked f hf hmark, ← hexpression]
    rfl

/-- A header with another clause in front, blanks around its key and the number of forms at the
end, the expression alone, and a header that is not marked. -/
theorem evaluate_agrees_spacings :
    evaluate "X=1;  plural =n>1;nplurals=9" 5 = .ok 1 ∧ evaluate "n>1" 5 = .ok 1
      ∧ ∃ fault, evaluate "plural\t=n>1" 5 = .error fault := by
  have hparse : Expr.parse "n>1" = .ok (.binary .gt .n (.literal 1)) := rfl
  refine ⟨?_, ?_, ?_⟩
  · obtain ⟨-, -, hnames⟩ := evaluate_agrees "X=1;  plural =n>1;nplurals=9" 5
    have hformulas : ∀ clause ∈ pieces (· == ';') "X=1;  plural =n>1;nplurals=9".toList,
        formulaIn? clause = none ∨ formulaIn? clause = some "n>1".toList := by decide +kernel
    have hheader : Names "X=1;  plural =n>1;nplurals=9" (.binary .gt .n (.literal 1)) := by
      constructor
      · exact ⟨"  plural =n>1".toList, by decide +kernel, "n>1".toList,
          formulaIn?_eq_some_iff.1 (by decide +kernel)⟩
      · intro clause hclause formula hsets
        rw [← formulaIn?_eq_some_iff] at hsets
        rcases hformulas clause hclause with hnone | hsome
        · rw [hnone] at hsets
          cases hsets
        · rw [hsome] at hsets
          cases hsets
          exact hparse
    obtain ⟨f, -, -, hevaluate⟩ := hnames _ hheader
    rw [hevaluate (isHeader_iff.1 (by decide +kernel))]
    rfl
  · rw [(evaluate_agrees "n>1" 5).2.1 _ hparse]
    rfl
  · have hheader : Forms.parse "plural\t=n>1" = .ok ⟨none, .binary .gt .n (.literal 1)⟩ := rfl
    have hunmarked : ¬ Marked "plural\t=n>1" := by
      rw [← isHeader_iff]
      decide +kernel
    obtain ⟨fault, -, hfault⟩ := ((evaluate_agrees "plural\t=n>1" 5).1 _ hheader).2 hunmarked
    exact ⟨fault, hfault⟩

/-- **A header with two spaces behind its key** can be read, but is not evaluated. -/
theorem evaluate_spaced_key :
    ∃ f, Forms.parse "nplurals=2; plural  =n != 1;" = .ok f ∧ f.index 1 = .ok 0
      ∧ evaluate "nplurals=2; plural  =n != 1;" 1 = .error (.unexpectedChar 'p' 1) :=
  ⟨⟨some 2, .binary .ne .n (.literal 1)⟩, rfl, rfl, rfl⟩

end MessageCatalog.Plural
