/-
  MessageCatalog.Proofs.Plural.Stuck
  ────────────────────────────────
  **WHERE READING STOPS.**

  A reader that stops has read the beginning of something, and what comes next cannot go on with
  it.  `Stuck c ts next k` is that situation: the symbols `ts` open an instance of the construct
  `c`, and `next` is the symbol that stands in the way, or `none` where the symbols are over.

      Stuck.completes       what has been opened can be completed
      failing_ofDepth       no parser gets across, however deep it may nest
      Stuck.not_derives     so no expression goes on like this
-/
import MessageCatalog.Proofs.Plural.Parsing

namespace MessageCatalog.Plural

/-! ## §1. Being stuck. -/

/-- What can be the first symbol of an operand. -/
def Symbol.opensOperand : Symbol → Bool
  | .number _ | .n | .openParen => true
  | s => s.unary?.isSome

/-- A symbol, or the end, that does not go on with a conditional. -/
def Apart (next : Option Symbol) : Prop :=
  (∀ op, next ≠ some (.operator op)) ∧ next ≠ some .question

/-- The symbols open an instance of the construct, and `next` cannot go on with it.  It takes at
most `k` levels of nesting to complete the instance. -/
inductive Stuck : Construct → List Symbol → Option Symbol → Nat → Prop where
  | start {next : Option Symbol} :
      (∀ s ∈ next, s.opensOperand = false) → Stuck .primary [] next 1
  | inside {ts : List Symbol} {next : Option Symbol} {k : Nat} :
      Stuck .conditional ts next k → Stuck .primary (.openParen :: ts) next (k + 1)
  | unclosed {ts : List Symbol} {e : Expr} {next : Option Symbol} {k : Nat} :
      Derives .conditional ts e k → Apart next → next ≠ some .closeParen →
      Stuck .primary (.openParen :: ts) next (k + 1)
  | primary {ts : List Symbol} {next : Option Symbol} {k : Nat} :
      Stuck .primary ts next k → Stuck .operand ts next k
  | unary (op : UnaryOp) {ts : List Symbol} {next : Option Symbol} {k : Nat} :
      Stuck .operand ts next k → Stuck .operand (op.symbol :: ts) next (k + 1)
  | first {ts : List Symbol} {next : Option Symbol} {k : Nat} :
      Stuck .operand ts next k → Stuck (.level 6) ts next k
  | later {op : BinaryOp} {ts us : List Symbol} {chain : Chain} {next : Option Symbol}
      {k l : Nat} :
      Spells 0 ts chain k → Stuck .operand us next l →
      Stuck (.level 6) (ts ++ .operator op :: us) next (max k l)
  | condition {ts : List Symbol} {next : Option Symbol} {k : Nat} :
      Stuck (.level 6) ts next k → Stuck .conditional ts next k
  | thenBranch {cs ts : List Symbol} {c : Expr} {next : Option Symbol} {k l : Nat} :
      Derives (.level 6) cs c k → Stuck .conditional ts next l →
      Stuck .conditional (cs ++ .question :: ts) next (max k (l + 1))
  | colon {cs ts : List Symbol} {c t : Expr} {next : Option Symbol} {k l : Nat} :
      Derives (.level 6) cs c k → Derives .conditional ts t l → Apart next →
      next ≠ some .colon → Stuck .conditional (cs ++ .question :: ts) next (max k (l + 1))
  | elseBranch {cs ts es : List Symbol} {c t : Expr} {next : Option Symbol} {k l m : Nat} :
      Derives (.level 6) cs c k → Derives .conditional ts t l → Stuck .conditional es next m →
      Stuck .conditional (cs ++ .question :: (ts ++ .colon :: es)) next
        (max k (max (l + 1) (m + 1)))

/-! ## §2. Completing what is open. -/

/-- An operand is a chain of its own, and so is the tree of one. -/
theorem derives_level_of_operand {ts : List Symbol} {e : Expr} {k : Nat}
    (h : Derives .operand ts e k) : Derives (.level 6) ts (Chain.fold (e, [])) k :=
  derives_fold (spells_single (.operand h))

/-- The quantity alone is a conditional. -/
theorem exists_derives_n : ∃ e, Derives .conditional [.n] e 1 :=
  ⟨_, .plain (derives_level_of_operand (.primary .n))⟩

/-- **What is open can be completed**, within the levels that it takes. -/
theorem Stuck.completes {c : Construct} {ts : List Symbol} {next : Option Symbol} {k : Nat}
    (h : Stuck c ts next k) :
    ∃ more e l, more ≠ [] ∧ l ≤ k ∧ Derives c (ts ++ more) e l := by
  obtain ⟨quantity, hn⟩ := exists_derives_n
  induction h with
  | start => exact ⟨[.n], .n, 1, by simp, Nat.le_refl 1, .n⟩
  | inside _ ih =>
      obtain ⟨more, e, l, -, hl, hd⟩ := ih
      refine ⟨more ++ [.closeParen], e, l + 1, by simp, by omega, ?_⟩
      rw [List.cons_append, ← List.append_assoc]
      exact .parenthesis hd
  | unclosed hd =>
      exact ⟨[.closeParen], _, _, by simp, Nat.le_refl _, .parenthesis hd⟩
  | primary _ ih =>
      obtain ⟨more, e, l, hmore, hl, hd⟩ := ih
      exact ⟨more, e, l, hmore, hl, .primary hd⟩
  | unary op _ ih =>
      obtain ⟨more, e, l, hmore, hl, hd⟩ := ih
      exact ⟨more, _, l + 1, hmore, by omega, .unary op hd⟩
  | first _ ih =>
      obtain ⟨more, e, l, hmore, hl, hd⟩ := ih
      exact ⟨more, _, l, hmore, hl, derives_level_of_operand hd⟩
  | @later op ts us chain _ k l hspells _ ih =>
      obtain ⟨more, e, l', hmore, hl, hd⟩ := ih
      have hlonger : Spells 0 (ts ++ .operator op :: (us ++ more))
          (chain.1, chain.2 ++ [(op, e)]) (max k l') :=
        hspells.append (spells_single (.operand hd))
      refine ⟨more, Chain.fold (chain.1, chain.2 ++ [(op, e)]), max k l', hmore, by omega, ?_⟩
      rw [List.append_assoc, List.cons_append]
      exact derives_fold hlonger
  | condition _ ih =>
      obtain ⟨more, e, l, hmore, hl, hd⟩ := ih
      exact ⟨more, e, l, hmore, hl, .plain hd⟩
  | @thenBranch cs ts c _ k l hc _ ih =>
      -- the branch is completed, and the quantity does for the other one
      obtain ⟨more, t, l', -, hl, ht⟩ := ih
      have hpos := ht.one_le
      refine ⟨more ++ [.colon, .n], .conditional c t quantity, max k (max (l' + 1) (1 + 1)), by simp,
        by omega, ?_⟩
      have hsplit : cs ++ .question :: ts ++ (more ++ [.colon, .n])
          = cs ++ .question :: ((ts ++ more) ++ .colon :: [.n]) := by
        simp
      rw [hsplit]
      exact .branching hc ht hn
  | @colon cs ts c t _ k l hc ht _ _ =>
      have hpos := ht.one_le
      refine ⟨[.colon, .n], .conditional c t quantity, max k (max (l + 1) (1 + 1)), by simp,
        by omega, ?_⟩
      rw [List.append_assoc, List.cons_append]
      exact .branching hc ht hn
  | @elseBranch cs ts es c t _ k l m hc ht _ ih =>
      obtain ⟨more, e, m', hmore, hm, he⟩ := ih
      refine ⟨more, .conditional c t e, max k (max (l + 1) (m' + 1)), hmore, by omega, ?_⟩
      have hsplit : cs ++ .question :: (ts ++ .colon :: es) ++ more
          = cs ++ .question :: (ts ++ .colon :: (es ++ more)) := by
        simp
      rw [hsplit]
      exact .branching hc ht he

/-! ## §3. No way across. -/

/-- After `used`, reading an instance of `c` is stuck at the first token of `rest`. -/
def StuckAt (c : Construct) (m : Nat) (used rest : List Token) : Prop :=
  ∃ k ≤ m, Stuck c (symbolsOf used) (symbolsOf rest).head? k

/-- The parsers of a level fail wherever reading is stuck within `m` levels. -/
structure Level.Failing (l : Level) (m : Nat) : Prop where
  operand {used rest : List Token} :
    StuckAt .operand m used rest → ∃ fault, l.operand (used ++ rest) = .error fault
  conditional {used rest : List Token} :
    StuckAt .conditional m used rest → ∃ fault, l.conditional (used ++ rest) = .error fault

/-- A sequence fails when its first step does. -/
theorem exists_error_of_bind {α β : Type} {x : Except Fault α} (h : ∃ fault, x = .error fault)
    (f : α → Except Fault β) : ∃ fault, x >>= f = .error fault := by
  obtain ⟨fault, hfault⟩ := h
  exact ⟨fault, bind_eq_error_iff.2 (Or.inl hfault)⟩

theorem exists_error_of_expect {wanted : Symbol} {expected : String} {rest : List Token}
    (h : (symbolsOf rest).head? ≠ some wanted) :
    ∃ fault, expect wanted expected rest = .error fault := by
  cases rest with
  | nil => exact ⟨_, rfl⟩
  | cons token rest =>
      have hne : token.symbol ≠ wanted := by simpa using h
      exact ⟨_, if_neg hne⟩

section Failing

variable {inner : Level} {m k : Nat} {used rest : List Token}

theorem Level.Failing.primary (h : inner.Failing m) (hcomplete : inner.Complete m)
    (hstuck : Stuck .primary (symbolsOf used) (symbolsOf rest).head? k) (hk : k ≤ m + 1) :
    ∃ fault, inner.primary (used ++ rest) = .error fault := by
  generalize hs : symbolsOf used = symbols at hstuck
  cases hstuck with
  | start hnext =>
      obtain rfl := List.map_eq_nil_iff.1 hs
      cases rest with
      | nil => exact ⟨_, rfl⟩
      | cons token rest =>
          obtain ⟨symbol, position⟩ := token
          have hopens : symbol.opensOperand = false := hnext symbol rfl
          cases symbol with
          | number value => cases hopens
          | n => cases hopens
          | openParen => cases hopens
          | closeParen | question | colon | not | operator op => exact ⟨_, rfl⟩
  | inside hstuck =>
      obtain ⟨position, used, rfl, rfl⟩ := exists_of_symbolsOf_cons hs
      rw [List.cons_append, primary_openParen]
      exact exists_error_of_bind (h.conditional ⟨_, by omega, hstuck⟩) _
  | @unclosed ts e _ k hd hapart hnext =>
      obtain ⟨position, used, rfl, rfl⟩ := exists_of_symbolsOf_cons hs
      have hinner : inner.conditional (used ++ rest) = .ok (e, rest) :=
        hcomplete.conditional hapart ⟨used, k, rfl, hd, by omega⟩
      rw [List.cons_append, primary_openParen, hinner]
      exact exists_error_of_bind (exists_error_of_expect hnext) _

/-- What a primary expression is stuck with does not start with a unary operator. -/
theorem unary?_of_stuck_primary
    (hstuck : Stuck .primary (symbolsOf used) (symbolsOf rest).head? k) :
    ∀ token ∈ (used ++ rest).head?, token.symbol.unary? = none := by
  intro token htoken
  generalize hs : symbolsOf used = symbols at hstuck
  cases hstuck with
  | start hnext =>
      obtain rfl := List.map_eq_nil_iff.1 hs
      cases rest with
      | nil => cases htoken
      | cons first rest =>
          cases htoken
          obtain ⟨symbol, position⟩ := token
          have hopens : symbol.opensOperand = false := hnext symbol rfl
          cases symbol with
          | number value => cases hopens
          | n => cases hopens
          | openParen => cases hopens
          | closeParen | question | colon => rfl
          | not => cases hopens
          | operator op =>
              change (Symbol.operator op).unary?.isSome = false at hopens
              simpa using hopens
  | inside | unclosed =>
      obtain ⟨position, used, rfl, -⟩ := exists_of_symbolsOf_cons hs
      cases htoken
      rfl

theorem Level.Failing.unary (h : inner.Failing m) (hcomplete : inner.Complete m)
    (hstuck : Stuck .operand (symbolsOf used) (symbolsOf rest).head? k) (hk : k ≤ m + 1) :
    ∃ fault, inner.unary (used ++ rest) = .error fault := by
  generalize hs : symbolsOf used = symbols at hstuck
  cases hstuck with
  | primary hstuck =>
      subst hs
      have hhead := unary?_of_stuck_primary hstuck
      have hprimary := h.primary hcomplete hstuck hk
      cases htokens : used ++ rest with
      | nil =>
          rw [htokens] at hprimary
          exact hprimary
      | cons token tokens =>
          rw [htokens] at hhead hprimary
          rw [unary_of_none inner tokens (hhead token rfl)]
          exact hprimary
  | unary op hstuck =>
      obtain ⟨position, used, rfl, rfl⟩ := exists_of_symbolsOf_cons hs
      rw [List.cons_append, unary_of_some inner _ (unary?_symbol op)]
      exact exists_error_of_bind (h.operand ⟨_, by omega, hstuck⟩) _

/-- Behind a complete chain and one more operator, an operand that is stuck is reached. -/
theorem Level.Failing.chainTail (h : inner.Failing m) (hcomplete : inner.Complete m)
    {symbols : List Symbol} {more : List (BinaryOp × Expr)} {l position : Nat} {op : BinaryOp}
    (ht : Tail 0 symbols more l) (hl : l ≤ m + 1)
    (hstuck : Stuck .operand (symbolsOf used) (symbolsOf rest).head? k) (hk : k ≤ m + 1) :
    ∀ {front : List Token} {rounds : Nat}, symbolsOf front = symbols → front.length < rounds →
      ∃ fault, inner.chainTail rounds (front ++ ⟨.operator op, position⟩ :: (used ++ rest))
        = .error fault := by
  induction ht with
  | nil =>
      intro front rounds hs hrounds
      obtain rfl := List.map_eq_nil_iff.1 hs
      obtain ⟨rounds, rfl⟩ : ∃ r, rounds = r + 1 := ⟨rounds - 1, by omega⟩
      rw [List.nil_append, chainTail_operator]
      exact exists_error_of_bind (h.unary hcomplete hstuck hk) _
  | @cons op' ts us e more k' l' hd _ ih =>
      intro front rounds hs hrounds
      obtain ⟨position', front, rfl, hfront⟩ := exists_of_symbolsOf_cons hs
      obtain ⟨first, others, rfl, rfl, rfl⟩ := exists_of_symbolsOf_append hfront
      rw [List.length_cons, List.length_append] at hrounds
      obtain ⟨rounds, rfl⟩ : ∃ r, rounds = r + 1 := ⟨rounds - 1, by omega⟩
      have hfirst : ∀ tokens, inner.unary (first ++ tokens) = .ok (e, tokens) := by
        intro tokens
        cases hd with
        | operand hd => exact hcomplete.unary hd (by omega)
      rw [List.cons_append, List.append_assoc, chainTail_operator, hfirst]
      exact exists_error_of_bind (ih (by omega) rfl (by omega)) _

theorem Level.Failing.binary (h : inner.Failing m) (hcomplete : inner.Complete m)
    (hstuck : Stuck (.level 6) (symbolsOf used) (symbolsOf rest).head? k) (hk : k ≤ m + 1) :
    ∃ fault, inner.binary (used ++ rest) = .error fault := by
  generalize hs : symbolsOf used = symbols at hstuck
  unfold Level.binary
  cases hstuck with
  | first hstuck =>
      subst hs
      exact exists_error_of_bind (h.unary hcomplete hstuck hk) _
  | @later op ts us chain _ k l hspells hstuck =>
      obtain ⟨fs, gs, a, b, rfl, rfl, hfirst, htail⟩ := hspells
      obtain ⟨front, others, rfl, hfront, hothers⟩ := exists_of_symbolsOf_append hs
      obtain ⟨first, more, rfl, rfl, hmore⟩ := exists_of_symbolsOf_append hfront
      obtain ⟨position, used, rfl, rfl⟩ := exists_of_symbolsOf_cons hothers
      have hsplit : first ++ more ++ ⟨.operator op, position⟩ :: used ++ rest
          = first ++ (more ++ ⟨.operator op, position⟩ :: (used ++ rest)) := by
        simp
      have hunary : inner.unary (first ++ (more ++ ⟨.operator op, position⟩ :: (used ++ rest)))
          = .ok (chain.1, more ++ ⟨.operator op, position⟩ :: (used ++ rest)) := by
        cases hfirst with
        | operand hd => exact hcomplete.unary hd (by omega)
      rw [hsplit, hunary]
      exact exists_error_of_bind
        (h.chainTail hcomplete htail (by omega) hstuck (by omega) hmore (by simp)) _

theorem Level.Failing.whole (h : inner.Failing m) (hcomplete : inner.Complete m)
    (hstuck : Stuck .conditional (symbolsOf used) (symbolsOf rest).head? k) (hk : k ≤ m + 1) :
    ∃ fault, inner.whole (used ++ rest) = .error fault := by
  -- the condition in front of a question mark is read, and the branches are reached
  have hcond {cond tokens : List Token} {c : Expr} {l position : Nat}
      (hd : Derives (.level 6) (symbolsOf cond) c l) (hl : l ≤ m + 1)
      (hafter : ∃ fault, inner.afterCondition c (⟨.question, position⟩ :: tokens)
        = .error fault) :
      ∃ fault, inner.whole (cond ++ ⟨.question, position⟩ :: tokens) = .error fault := by
    rw [whole_eq, hcomplete.binary (fun op => by simp) hd hl]
    exact hafter
  generalize hs : symbolsOf used = symbols at hstuck
  cases hstuck with
  | condition hstuck =>
      subst hs
      rw [whole_eq]
      exact exists_error_of_bind (h.binary hcomplete hstuck hk) _
  | @thenBranch cs ts c _ k l hc hstuck =>
      obtain ⟨cond, others, rfl, rfl, hothers⟩ := exists_of_symbolsOf_append hs
      obtain ⟨position, used, rfl, rfl⟩ := exists_of_symbolsOf_cons hothers
      rw [List.append_assoc, List.cons_append]
      refine hcond hc (by omega) ?_
      rw [afterCondition_question]
      exact exists_error_of_bind (h.conditional ⟨l, by omega, hstuck⟩) _
  | @colon cs ts c t _ k l hc ht hapart hnext =>
      obtain ⟨cond, others, rfl, rfl, hothers⟩ := exists_of_symbolsOf_append hs
      obtain ⟨position, used, rfl, rfl⟩ := exists_of_symbolsOf_cons hothers
      rw [List.append_assoc, List.cons_append]
      refine hcond hc (by omega) ?_
      have hthen : inner.conditional (used ++ rest) = .ok (t, rest) :=
        hcomplete.conditional hapart ⟨used, l, rfl, ht, by omega⟩
      rw [afterCondition_question, hthen]
      exact exists_error_of_bind (exists_error_of_expect hnext) _
  | @elseBranch cs ts es c t _ k l l' hc ht hstuck =>
      obtain ⟨cond, others, rfl, rfl, hothers⟩ := exists_of_symbolsOf_append hs
      obtain ⟨position, others, rfl, hbranches⟩ := exists_of_symbolsOf_cons hothers
      obtain ⟨thens, others, rfl, rfl, hcolon⟩ := exists_of_symbolsOf_append hbranches
      obtain ⟨position', used, rfl, rfl⟩ := exists_of_symbolsOf_cons hcolon
      have hsplit : cond ++ ⟨.question, position⟩ :: (thens ++ ⟨.colon, position'⟩ :: used) ++ rest
          = cond ++ ⟨.question, position⟩ ::
              (thens ++ ⟨.colon, position'⟩ :: (used ++ rest)) := by
        simp
      rw [hsplit]
      refine hcond hc (by omega) ?_
      have hthen : inner.conditional (thens ++ ⟨.colon, position'⟩ :: (used ++ rest))
          = .ok (t, ⟨.colon, position'⟩ :: (used ++ rest)) :=
        hcomplete.conditional ⟨fun op => by simp, by simp⟩ ⟨thens, l, rfl, ht, by omega⟩
      rw [afterCondition_question, hthen]
      show ∃ fault, (inner.conditional (used ++ rest) >>= _) = .error fault
      exact exists_error_of_bind (h.conditional ⟨l', by omega, hstuck⟩) _

theorem Level.Failing.within (h : inner.Failing m) (hcomplete : inner.Complete m) :
    inner.within.Failing (m + 1) where
  operand := by
    rintro used rest ⟨k, hk, hstuck⟩
    exact h.unary hcomplete hstuck hk
  conditional := by
    rintro used rest ⟨k, hk, hstuck⟩
    exact h.whole hcomplete hstuck hk

end Failing

theorem failing_ofDepth (m : Nat) : (Level.ofDepth m).Failing m := by
  induction m with
  | zero =>
      constructor
      · intro used rest _
        exact ⟨_, rfl⟩
      · intro used rest _
        exact ⟨_, rfl⟩
  | succ m ih => exact ih.within (complete_ofDepth m)

/-! ## §4. No expression goes on like this. -/

/-- Symbols as tokens; where they stand plays no part in parsing. -/
theorem exists_symbolsOf_eq (symbols : List Symbol) : ∃ tokens, symbolsOf tokens = symbols :=
  ⟨symbols.map fun s => ⟨s, 0⟩, by simp [symbolsOf, Function.comp_def]⟩

/-- Parsers that are deep enough read what is derived, in front of any of its symbols too. -/
theorem exists_read_of_derives {ts more : List Symbol} {s : Symbol} {e : Expr} {l : Nat}
    (h : Derives .conditional (ts ++ s :: more) e l) (k : Nat) :
    ∃ m used rest, k ≤ m ∧ symbolsOf used = ts ∧ (symbolsOf rest).head? = some s
      ∧ (Level.ofDepth m).conditional (used ++ rest) = .ok (e, []) := by
  obtain ⟨used, rfl⟩ := exists_symbolsOf_eq ts
  obtain ⟨rest, hrest⟩ := exists_symbolsOf_eq (s :: more)
  refine ⟨max k l, used, rest, Nat.le_max_left k l, rfl, by rw [hrest]; rfl, ?_⟩
  exact conditional_ofDepth_eq_ok_iff.2
    ⟨l, Nat.le_max_right k l, by rwa [symbolsOf_append, hrest]⟩

/-- **No expression goes on as it is stuck**, at whatever depth. -/
theorem Stuck.not_derives {ts : List Symbol} {s : Symbol} {k : Nat}
    (h : Stuck .conditional ts (some s) k) (more : List Symbol) (e : Expr) (l : Nat) :
    ¬ Derives .conditional (ts ++ s :: more) e l := by
  intro hd
  obtain ⟨m, used, rest, hk, rfl, hhead, hread⟩ := exists_read_of_derives hd k
  have hstuck : StuckAt .conditional m used rest := ⟨k, hk, by rwa [hhead]⟩
  obtain ⟨fault, hfault⟩ := (failing_ofDepth m).conditional hstuck
  rw [hfault] at hread
  cases hread

/-- An expression that is complete goes on with an operator or a question mark only. -/
theorem Derives.not_derives_append {ts : List Symbol} {s : Symbol} {e : Expr} {k : Nat}
    (h : Derives .conditional ts e k) (hapart : Apart (some s)) (more : List Symbol) (e' : Expr)
    (l : Nat) : ¬ Derives .conditional (ts ++ s :: more) e' l := by
  intro hd
  obtain ⟨m, used, rest, hk, rfl, hhead, hread⟩ := exists_read_of_derives hd k
  have hends : EndsConditional rest := by
    unfold EndsConditional EndsChain
    rw [hhead]
    exact hapart
  -- reading would stop where the expression is complete
  have hshort := (complete_ofDepth m).conditional hends ⟨used, k, rfl, h, hk⟩
  rw [hshort, Except.ok.injEq, Prod.mk.injEq] at hread
  rw [hread.2] at hhead
  cases hhead

end MessageCatalog.Plural
