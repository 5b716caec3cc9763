/-
  MessageCatalog.Proofs.Plural.Counts
  ────────────────────────────────
  **THE NUMBER OF FORMS, READ TWICE.**

  A header says how many plural forms there are, and the number is read in two ways.  The header
  is read clause by clause, and what the last clause with the key `nplurals` says counts.  Or the
  word `nplurals=` is looked for, so that the number is known although the expression may not be
  readable, and what follows it in the first clause in which it stands counts.

      nplurals= 2 ;             the number between blanks    read alike
      nplurals=x;               no number                    read alike
      nplurals=2; nplurals=3;   two numbers                  3 is read, 2 is found
      nplurals =2;              a blank behind the key       read, not found
      nplurals=+2;              a sign                       read, not found
      xnplurals=2;              another key                  not read, found
      nplurals=2x;              more than a number           not read, found

  The two agree on headers that are plain: their numbers stand directly behind the key, and are all
  the same (`declaredCount?_of_parse`).
-/
import Mathlib.Data.Bool.AllAny
import MessageCatalog.Proofs.Plural.Headers
import MessageCatalog.Proofs.Text.Number

namespace MessageCatalog.Plural

open MessageCatalog.Text

/-! ## §1. The two readings of a clause. -/

/-- The word that the number is looked for behind. -/
def countWord : List Char := "nplurals=".toList

/-- The key of the clause that sets the number. -/
def countKey : List Char := "nplurals".toList

/-- What a clause sets the number of forms to, if it sets it: nothing if its value is no number. -/
def set? (clause : List Char) : Option (Option Nat) :=
  match clause? clause with
  | none => none
  | some (key, value) =>
      if trim key = countKey then some (readWord (trim value)).toOption else none

/-- The number that a text starts with, behind blanks. -/
def leading? (cs : List Char) : Option Nat :=
  (readWord ((trimStart cs).takeWhile Char.isDigit)).toOption

/-- The number of forms that is found in a text, if the word is: nothing if no number follows. -/
def found? (cs : List Char) : Option (Option Nat) :=
  (after? countWord cs).map leading?

/-- The clauses of a header. -/
def clausesOf (header : String) : List (List Char) :=
  pieces (· == ';') header.toList

/-! ## §2. The last clause that sets the number. -/

/-- A clause sets the number or leaves it as it is. -/
theorem nplurals_of_read {seen seen' : Clauses} {clause : List Char}
    (h : seen.read clause = .ok seen') : seen'.nplurals = (set? clause).getD seen.nplurals := by
  unfold Clauses.read at h
  unfold set?
  cases hclause : clause? clause with
  | none =>
      rw [hclause] at h
      cases h
      rfl
  | some pair =>
      obtain ⟨key, value⟩ := pair
      simp only [hclause] at h
      split at h
      next hkey =>
        change trim key = countKey at hkey
        cases h
        simp only [if_pos hkey, Option.getD_some]
      next hkey =>
        change ¬trim key = countKey at hkey
        simp only [if_neg hkey, Option.getD_none]
        split at h
        next =>
          obtain ⟨e, -, he⟩ := bind_eq_ok_iff.1 h
          cases he
          rfl
        next =>
          cases h
          rfl

/-- Clauses set the number to what the last of them sets it to. -/
theorem nplurals_of_foldlM {clauses : List (List Char)} {seen seen' : Clauses}
    (h : clauses.foldlM Clauses.read seen = .ok seen') :
    seen'.nplurals = (clauses.reverse.findSome? set?).getD seen.nplurals := by
  induction clauses generalizing seen with
  | nil =>
      cases h
      rfl
  | cons clause clauses ih =>
      rw [List.foldlM_cons] at h
      obtain ⟨between, hread, hrest⟩ := bind_eq_ok_iff.1 h
      -- from the end the first clause is the last one to be asked
      rw [ih hrest, nplurals_of_read hread, List.reverse_cons, List.findSome?_append]
      cases clauses.reverse.findSome? set? with
      | some count => rfl
      | none => cases hset : set? clause <;> simp [hset]

/-- **The number of a header that is read is the one that the last clause sets.** -/
theorem nplurals_of_parse {header : String} {f : Forms} (h : Forms.parse header = .ok f) :
    f.nplurals = ((clausesOf header).reverse.findSome? set?).join := by
  obtain ⟨seen, hfold, hend⟩ := bind_eq_ok_iff.1 h
  have hcount := nplurals_of_foldlM hfold
  split at hend
  next => cases hend
  next =>
    cases hend
    show seen.nplurals = _
    rw [hcount]
    show ((clausesOf header).reverse.findSome? set?).getD none = _
    cases (clausesOf header).reverse.findSome? set? <;> rfl

/-! ## §3. The first clause in which the word stands. -/

/-- A number ends with its clause. -/
theorem leading?_append_sep (cs rest : List Char) :
    leading? (cs ++ ';' :: rest) = leading? cs := by
  have hdigits : (trimStart (cs ++ ';' :: rest)).takeWhile Char.isDigit
      = (trimStart cs).takeWhile Char.isDigit := by
    -- the semicolon is not blank, so trimming stops in front of it at the latest
    have htrim : trimStart (cs ++ ';' :: rest) = trimStart cs ++ ';' :: rest := by
      unfold trimStart
      rw [List.dropWhile_append]
      split
      next hnil =>
        rw [List.isEmpty_iff.1 hnil, List.dropWhile_cons_of_neg (by decide)]
        rfl
      next => rfl
    rw [htrim]
    induction trimStart cs with
    | nil => exact List.takeWhile_cons_of_neg (by decide)
    | cons c cs ih =>
        rw [List.cons_append, List.takeWhile_cons, List.takeWhile_cons, ih]
  unfold leading?
  rw [hdigits]

/-- The word stands in the first clause or in a later one, since no semicolon is in it. -/
theorem found?_append_sep (cs rest : List Char) :
    found? (cs ++ ';' :: rest) = (found? cs).or (found? rest) := by
  unfold found?
  rw [after?_append_sep (by decide) (by decide), Option.map_or, Option.map_map]
  have hleading : leading? ∘ (· ++ ';' :: rest) = leading? := by
    funext cs
    exact leading?_append_sep cs rest
  rw [hleading]

/-- The number that is found in a text is the one that is found in the first of its clauses. -/
theorem found?_intercalate {clauses : List (List Char)} (hne : clauses ≠ []) :
    found? ([';'].intercalate clauses) = clauses.findSome? found? := by
  induction clauses with
  | nil => exact absurd rfl hne
  | cons clause clauses ih =>
      cases clauses with
      | nil =>
          rw [List.intercalate_singleton, List.findSome?_cons, List.findSome?_nil]
          cases found? clause <;> rfl
      | cons next clauses =>
          have hrest := ih (List.cons_ne_nil next clauses)
          rw [List.intercalate_cons_cons, List.append_assoc, List.singleton_append,
            found?_append_sep, hrest, @List.findSome?_cons _ _ clause]
          cases found? clause <;> rfl

/-- **The number that is found in a header is the one of the first clause in which the word
stands.** -/
theorem declaredCount?_eq (header : String) :
    declaredCount? header = ((clausesOf header).findSome? found?).join := by
  have hclauses : found? header.toList = (clausesOf header).findSome? found? := by
    unfold clausesOf
    rw [← found?_intercalate (pieces_ne_nil _ _), intercalate_pieces]
  rw [← hclauses]
  unfold declaredCount? found?
  show (after? countWord header.toList).bind leading? = _
  cases after? countWord header.toList <;> rfl

/-! ## §4. Plain clauses. -/

theorem not_mem_of_blank {c : Char} (hc : isBlankChar c = false) {cs : List Char}
    (h : ∀ c ∈ cs, isBlankChar c = true) : c ∉ cs := by
  intro hmem
  rw [h c hmem] at hc
  cases hc

/-- Digits end in front of blanks. -/
theorem takeWhile_isDigit_append {ds behind : List Char} (hds : ∀ c ∈ ds, c.isDigit = true)
    (hbehind : ∀ c ∈ behind, isBlankChar c = true) :
    (ds ++ behind).takeWhile Char.isDigit = ds := by
  rw [List.takeWhile_append_of_pos hds]
  cases behind with
  | nil => rw [List.takeWhile_nil, List.append_nil]
  | cons c behind =>
      have hc : ¬ c.isDigit = true := by
        intro hdigit
        have hblank := hbehind c List.mem_cons_self
        rw [isBlankChar_of_isDigit hdigit] at hblank
        cases hblank
      rw [List.takeWhile_cons_of_neg hc, List.append_nil]

section Count

variable {before between ds behind : List Char}

/-- A number between blanks is the one that a text starts with. -/
theorem leading?_between (hbetween : ∀ c ∈ between, isBlankChar c = true)
    (hds : ∀ c ∈ ds, c.isDigit = true) (hbehind : ∀ c ∈ behind, isBlankChar c = true) :
    leading? (between ++ (ds ++ behind)) = (readWord ds).toOption := by
  have hdigits : (trimStart (between ++ (ds ++ behind))).takeWhile Char.isDigit = ds := by
    rw [trimStart_append_of_blank hbetween]
    cases ds with
    | nil =>
        have hnil : trimStart behind = [] := by
          rw [trimStart_eq_nil_iff, List.all_eq_true]
          exact hbehind
        rw [List.nil_append, hnil]
        rfl
    | cons d ds =>
        have hd : isBlankChar d = false := isBlankChar_of_isDigit (hds d List.mem_cons_self)
        rw [List.cons_append, trimStart_cons_of_not_blank hd]
        exact takeWhile_isDigit_append hds hbehind
  unfold leading?
  rw [hdigits]

/-- The clause is cut at the equals sign of the word, and blanks are trimmed on both sides. -/
theorem set?_count (hbefore : ∀ c ∈ before, isBlankChar c = true)
    (hbetween : ∀ c ∈ between, isBlankChar c = true) (hds : ∀ c ∈ ds, c.isDigit = true)
    (hbehind : ∀ c ∈ behind, isBlankChar c = true) :
    set? (before ++ (countWord ++ (between ++ (ds ++ behind)))) = some (readWord ds).toOption := by
  have hclause : clause? (before ++ (countWord ++ (between ++ (ds ++ behind))))
      = some (before ++ countKey, between ++ (ds ++ behind)) := by
    refine cutAt?_singleton_eq_some_iff.2 ⟨?_, ?_⟩
    · rw [List.mem_append, not_or]
      exact ⟨not_mem_of_blank (by decide) hbefore, by decide⟩
    · rw [List.append_assoc]
      rfl
  have hkey : trim (before ++ countKey) = countKey := by
    have hcore : ∀ c ∈ countKey, isBlankChar c = false := List.all_iff_forall_prop.1 (by decide)
    have hbetween := trim_between hbefore hcore (List.forall_mem_nil _)
    rwa [List.append_nil] at hbetween
  have hvalue : trim (between ++ (ds ++ behind)) = ds :=
    trim_between hbetween (fun c hc => isBlankChar_of_isDigit (hds c hc)) hbehind
  unfold set?
  simp only [hclause, if_pos hkey, hvalue]

/-- The word is found behind the blanks, and the number behind the word. -/
theorem found?_count (hbefore : ∀ c ∈ before, isBlankChar c = true)
    (hbetween : ∀ c ∈ between, isBlankChar c = true) (hds : ∀ c ∈ ds, c.isDigit = true)
    (hbehind : ∀ c ∈ behind, isBlankChar c = true) :
    found? (before ++ (countWord ++ (between ++ (ds ++ behind))))
      = some (readWord ds).toOption := by
  have hfree : 'n' ∉ before := not_mem_of_blank (by decide) hbefore
  have hcut : cutAt? countWord (before ++ (countWord ++ (between ++ (ds ++ behind))))
      = some (before, between ++ (ds ++ behind)) := cutAt?_append_of_not_mem hfree _
  unfold found? after?
  rw [hcut, ← leading?_between hbetween hds hbehind]
  rfl

end Count

/-- A clause that is plain: it consists of the word and a number with blanks around them, or the
word does not stand in it and its key is another one. -/
inductive Plain : List Char → Prop
  | count {before between ds behind : List Char}
      (before_blank : ∀ c ∈ before, isBlankChar c = true)
      (between_blank : ∀ c ∈ between, isBlankChar c = true) (digits : ∀ c ∈ ds, c.isDigit = true)
      (behind_blank : ∀ c ∈ behind, isBlankChar c = true) :
      Plain (before ++ (countWord ++ (between ++ (ds ++ behind))))
  | other {clause : List Char} (no_word : ¬ countWord <:+: clause) (no_key : set? clause = none) :
      Plain clause

/-- **A plain clause is read alike both ways.** -/
theorem Plain.found?_eq {clause : List Char} (h : Plain clause) : found? clause = set? clause := by
  cases h with
  | count before_blank between_blank digits behind_blank =>
      rw [found?_count before_blank between_blank digits behind_blank,
        set?_count before_blank between_blank digits behind_blank]
  | other no_word no_key =>
      rw [no_key, found?, after?, cutAt?_eq_none_iff.2 no_word]
      rfl

/-! ## §5. The two numbers of a header. -/

/-- A header that is plain: so are its clauses, and no two of them set different numbers. -/
structure Uniform (header : String) : Prop where
  plain : ∀ clause ∈ clausesOf header, Plain clause
  same : ∀ clause ∈ clausesOf header, ∀ clause' ∈ clausesOf header, ∀ count count',
    set? clause = some count → set? clause' = some count' → count = count'

/-- Where all clauses that set something set the same, the first and the last of them do. -/
theorem findSome?_reverse_of_same {α β : Type} {f : α → Option β} {xs : List α}
    (h : ∀ x ∈ xs, ∀ x' ∈ xs, ∀ y y', f x = some y → f x' = some y' → y = y') :
    xs.reverse.findSome? f = xs.findSome? f := by
  cases hlast : xs.reverse.findSome? f with
  | none =>
      rw [List.findSome?_eq_none_iff] at hlast
      rw [eq_comm, List.findSome?_eq_none_iff]
      exact fun x hx => hlast x (List.mem_reverse.2 hx)
  | some y =>
      -- whatever is found from the other end is set as well, so it is the same
      obtain ⟨x, hx, hy⟩ := List.exists_of_findSome?_eq_some hlast
      rw [List.mem_reverse] at hx
      cases hfirst : xs.findSome? f with
      | none =>
          rw [List.findSome?_eq_none_iff.1 hfirst x hx] at hy
          cases hy
      | some y' =>
          obtain ⟨x', hx', hy'⟩ := List.exists_of_findSome?_eq_some hfirst
          rw [h x hx x' hx' y y' hy hy']

theorem findSome?_congr_of_mem {α β : Type} {f g : α → Option β} {xs : List α}
    (h : ∀ x ∈ xs, f x = g x) : xs.findSome? f = xs.findSome? g := by
  induction xs with
  | nil => rfl
  | cons x xs ih =>
      rw [List.forall_mem_cons] at h
      rw [List.findSome?_cons, List.findSome?_cons, h.1, ih h.2]

/-- **The number of forms that a header declares, by either reading.**  What is found is the number
of the first clause in which the word stands, and the rule that is read has the number of the last
clause with the key.  On a plain header the two are one number. -/
theorem declaredCount?_of_parse {header : String} {f : Forms} (h : Forms.parse header = .ok f) :
    declaredCount? header = ((clausesOf header).findSome? found?).join
      ∧ f.nplurals = ((clausesOf header).reverse.findSome? set?).join
      ∧ (Uniform header → declaredCount? header = f.nplurals) := by
  refine ⟨declaredCount?_eq header, nplurals_of_parse h, ?_⟩
  intro huniform
  have halike : ∀ clause ∈ clausesOf header, found? clause = set? clause := by
    intro clause hclause
    exact (huniform.plain clause hclause).found?_eq
  rw [declaredCount?_eq, nplurals_of_parse h, findSome?_reverse_of_same huniform.same,
    findSome?_congr_of_mem halike]

/-- A header with blanks around its numbers, other clauses between them, and the number twice. -/
theorem declaredCount?_of_parse_spacings :
    declaredCount? "plural=n != 1; nplurals= 2 ;X=3;nplurals=2" = some 2 := by
  have hclauses : clausesOf "plural=n != 1; nplurals= 2 ;X=3;nplurals=2"
      = ["plural=n != 1".toList, " nplurals= 2 ".toList, "X=3".toList, "nplurals=2".toList] := by
    rfl
  have hparse : Forms.parse "plural=n != 1; nplurals= 2 ;X=3;nplurals=2"
      = .ok ⟨some 2, .binary .ne .n (.literal 1)⟩ := by rfl
  have htwo : ∀ c ∈ ['2'], c.isDigit = true := List.forall_mem_singleton.2 rfl
  have huniform : Uniform "plural=n != 1; nplurals= 2 ;X=3;nplurals=2" := by
    constructor
    · rw [hclauses]
      simp only [List.forall_mem_cons]
      refine ⟨.other (by decide) (by decide), ?_, .other (by decide) (by decide), ?_,
        List.forall_mem_nil _⟩
      · have hblank : ∀ c ∈ [' '], isBlankChar c = true := List.forall_mem_singleton.2 rfl
        exact .count hblank hblank htwo hblank
      · have hnone : ∀ c ∈ ([] : List Char), isBlankChar c = true := List.forall_mem_nil _
        exact .count hnone hnone htwo hnone
    · have hset : ∀ clause ∈ clausesOf "plural=n != 1; nplurals= 2 ;X=3;nplurals=2",
          set? clause = none ∨ set? clause = some (some 2) := by
        rw [hclauses]
        decide
      have hcount : ∀ clause ∈ clausesOf "plural=n != 1; nplurals= 2 ;X=3;nplurals=2",
          ∀ count, set? clause = some count → count = some 2 := by
        intro clause hclause count hsome
        rcases hset clause hclause with hnone | htwo
        · rw [hnone] at hsome
          cases hsome
        · rw [htwo] at hsome
          cases hsome
          rfl
      intro clause hclause clause' hclause' count count' hsome hsome'
      rw [hcount clause hclause count hsome, hcount clause' hclause' count' hsome']
  exact (declaredCount?_of_parse hparse).2.2 huniform

/-- **A blank behind the key**: the number is read with the rule, but not found.  And of two numbers
the rule has the last one, while the first one is found. -/
theorem declaredCount?_spaced_key :
    (∃ f, Forms.parse "nplurals =2; plural=n != 1;" = .ok f ∧ f.nplurals = some 2
        ∧ declaredCount? "nplurals =2; plural=n != 1;" = none)
      ∧ ∃ f, Forms.parse "nplurals=2;nplurals=3;plural=n" = .ok f ∧ f.nplurals = some 3
        ∧ declaredCount? "nplurals=2;nplurals=3;plural=n" = some 2 :=
  ⟨⟨⟨some 2, .binary .ne .n (.literal 1)⟩, rfl, rfl, rfl⟩, ⟨⟨some 3, .n⟩, rfl, rfl, rfl⟩⟩

end MessageCatalog.Plural
