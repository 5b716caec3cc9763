/-
  MessageCatalog.Proofs.Plural.Parsing
  ────────────────────────────────
  **THE PARSER READS THE GRAMMAR.**

  `Reads c m tokens e rest` says that `tokens` open with an instance of the
  construct `c` that nests at most `m` levels deep, that `e` is its tree, and
  that `rest` is left.  Two properties of the parsers of a level are carried from
  each level to the next outer one:

      Level.Sound m      what they read is derived
      Level.Complete m   what is derived they read

  The parsers for `m` levels have both (`sound_ofDepth`, `complete_ofDepth`), so
  that whole expressions are read exactly as derived, and no sequence of tokens
  has two trees.
-/
import MessageCatalog.Proofs.Plural.Grammar
import MessageCatalog.Proofs.Steps

namespace MessageCatalog.Plural

/-! ## §1. Reading an instance of a construct. -/

/-- The symbols of tokens. -/
def symbolsOf (tokens : List Token) : List Symbol :=
  tokens.map Token.symbol

@[simp] theorem symbolsOf_nil : symbolsOf [] = [] := rfl

@[simp] theorem symbolsOf_cons (token : Token) (tokens : List Token) :
    symbolsOf (token :: tokens) = token.symbol :: symbolsOf tokens := rfl

@[simp] theorem symbolsOf_append (xs ys : List Token) :
    symbolsOf (xs ++ ys) = symbolsOf xs ++ symbolsOf ys :=
  List.map_append

/-- The tokens open with an instance of `c` of at most `m` levels, and `rest`
follows. -/
def Reads (c : Construct) (m : Nat) (tokens : List Token) (e : Expr) (rest : List Token) : Prop :=
  ∃ used k, tokens = used ++ rest ∧ Derives c (symbolsOf used) e k ∧ k ≤ m

/-- What the parsers of a level read is derived within `m` levels. -/
structure Level.Sound (l : Level) (m : Nat) : Prop where
  operand {tokens : List Token} {e : Expr} {rest : List Token} :
    l.operand tokens = .ok (e, rest) → Reads .operand m tokens e rest
  conditional {tokens : List Token} {e : Expr} {rest : List Token} :
    l.conditional tokens = .ok (e, rest) → Reads .conditional m tokens e rest

/-- The tokens do not go on with an operator. -/
def EndsChain (rest : List Token) : Prop :=
  ∀ op, (symbolsOf rest).head? ≠ some (.operator op)

/-- The tokens go on with nothing that would belong to a conditional. -/
def EndsConditional (rest : List Token) : Prop :=
  EndsChain rest ∧ (symbolsOf rest).head? ≠ some .question

theorem exists_of_symbolsOf_cons {tokens : List Token} {s : Symbol} {ss : List Symbol}
    (h : symbolsOf tokens = s :: ss) :
    ∃ position more, tokens = ⟨s, position⟩ :: more ∧ symbolsOf more = ss := by
  obtain ⟨token, more, rfl, rfl, hmore⟩ := List.map_eq_cons_iff.1 h
  exact ⟨token.position, more, rfl, hmore⟩

theorem exists_of_symbolsOf_append {tokens : List Token} {xs ys : List Symbol}
    (h : symbolsOf tokens = xs ++ ys) :
    ∃ us vs, tokens = us ++ vs ∧ symbolsOf us = xs ∧ symbolsOf vs = ys :=
  List.map_eq_append_iff.1 h

theorem exists_of_head?_symbolsOf {tokens : List Token} {s : Symbol}
    (h : (symbolsOf tokens).head? = some s) : ∃ position rest, tokens = ⟨s, position⟩ :: rest := by
  cases tokens with
  | nil => cases h
  | cons token rest => exact ⟨token.position, rest, by rw [← Option.some.inj h]⟩

theorem exists_operator_of_not_endsChain {tokens : List Token} (h : ¬EndsChain tokens) :
    ∃ op position rest, tokens = ⟨.operator op, position⟩ :: rest := by
  obtain ⟨op, hop⟩ := Classical.not_forall.1 h
  exact ⟨op, exists_of_head?_symbolsOf (Classical.not_not.1 hop)⟩

/-- The parsers of a level read all that is derived within `m` levels. -/
structure Level.Complete (l : Level) (m : Nat) : Prop where
  operand {tokens : List Token} {e : Expr} {rest : List Token} :
    Reads .operand m tokens e rest → l.operand tokens = .ok (e, rest)
  conditional {tokens : List Token} {e : Expr} {rest : List Token} :
    EndsConditional rest → Reads .conditional m tokens e rest →
    l.conditional tokens = .ok (e, rest)

/-! ## §2. Single steps of the parsers. -/

section Steps

variable (inner : Level) (position : Nat) (rest : List Token)

theorem primary_openParen :
    inner.primary (⟨.openParen, position⟩ :: rest) = (do
      let (e, rest) ← inner.conditional rest
      let rest ← expect .closeParen "')'" rest
      .ok (e, rest)) := rfl

theorem unary?_symbol (op : UnaryOp) : op.symbol.unary? = some op := by
  cases op <;> rfl

/-- The symbol in front of a unary operation is the one of its operator. -/
theorem eq_symbol_of_unary? {s : Symbol} {op : UnaryOp} (h : s.unary? = some op) :
    s = op.symbol := by
  unfold Symbol.unary? at h
  split at h <;> cases h <;> rfl

theorem unary_of_some {token : Token} {op : UnaryOp} (h : token.symbol.unary? = some op) :
    inner.unary (token :: rest) = (do
      let (e, rest) ← inner.operand rest
      .ok (.unary op e, rest)) := by
  rw [Level.unary, h]

theorem unary_of_none {token : Token} (h : token.symbol.unary? = none) :
    inner.unary (token :: rest) = inner.primary (token :: rest) := by
  rw [Level.unary, h]

theorem chainTail_operator (rounds : Nat) (op : BinaryOp) :
    inner.chainTail (rounds + 1) (⟨.operator op, position⟩ :: rest) = (do
      let (e, rest) ← inner.unary rest
      let (more, rest) ← inner.chainTail rounds rest
      .ok ((op, e) :: more, rest)) := rfl

/-- What a conditional is after the binary expression that opens it. -/
def Level.afterCondition (cond : Expr) (tokens : List Token) : Reading :=
  match tokens with
  | ⟨.question, _⟩ :: rest => do
      let (thenBranch, rest) ← inner.conditional rest
      let rest ← expect .colon "':'" rest
      let (elseBranch, rest) ← inner.conditional rest
      .ok (.conditional cond thenBranch elseBranch, rest)
  | rest => .ok (cond, rest)

theorem whole_eq (tokens : List Token) :
    inner.whole tokens = (do
      let (cond, rest) ← inner.binary tokens
      inner.afterCondition cond rest) := rfl

theorem afterCondition_question (cond : Expr) :
    inner.afterCondition cond (⟨.question, position⟩ :: rest) = (do
      let (thenBranch, rest) ← inner.conditional rest
      let rest ← expect .colon "':'" rest
      let (elseBranch, rest) ← inner.conditional rest
      .ok (.conditional cond thenBranch elseBranch, rest)) := rfl

theorem afterCondition_of_ne {rest : List Token} (h : (symbolsOf rest).head? ≠ some .question)
    (cond : Expr) : inner.afterCondition cond rest = .ok (cond, rest) := by
  unfold Level.afterCondition
  split
  next => exact absurd rfl h
  next => rfl

theorem chainTail_of_endsChain {rest : List Token} (h : EndsChain rest) (rounds : Nat) :
    inner.chainTail rounds rest = .ok ([], rest) := by
  unfold Level.chainTail
  split
  next op position more => exact absurd rfl (h op)
  next => rfl

theorem exists_of_expect {wanted : Symbol} {expected : String} {tokens rest : List Token}
    (h : expect wanted expected tokens = .ok rest) :
    ∃ token, tokens = token :: rest ∧ token.symbol = wanted := by
  cases tokens with
  | nil => cases h
  | cons token more =>
      by_cases hw : token.symbol = wanted
      · rw [expect, if_pos hw] at h
        cases h
        exact ⟨token, rfl, hw⟩
      · rw [expect, if_neg hw] at h
        cases h

end Steps

/-! ## §3. What is read is derived. -/

section Sound

variable {inner : Level} {m : Nat} {tokens rest : List Token} {e : Expr}

theorem Level.Sound.primary (h : inner.Sound m) (hread : inner.primary tokens = .ok (e, rest)) :
    Reads .primary (m + 1) tokens e rest := by
  cases tokens with
  | nil => cases hread
  | cons token more =>
      obtain ⟨symbol, position⟩ := token
      cases symbol with
      | number value =>
          cases hread
          exact ⟨[⟨.number value, position⟩], 1, rfl, .number value, by omega⟩
      | n =>
          cases hread
          exact ⟨[⟨.n, position⟩], 1, rfl, .n, by omega⟩
      | openParen =>
          rw [primary_openParen] at hread
          obtain ⟨⟨e', mid⟩, hinner, hclose⟩ := bind_eq_ok_iff.1 hread
          obtain ⟨rest', hexpect, hdone⟩ := bind_eq_ok_iff.1 hclose
          cases hdone
          obtain ⟨close, rfl, hcs⟩ := exists_of_expect hexpect
          obtain ⟨used, k, rfl, hd, hk⟩ := h.conditional hinner
          refine ⟨⟨.openParen, position⟩ :: (used ++ [close]), k + 1, by simp, ?_, by omega⟩
          rw [symbolsOf_cons, symbolsOf_append, symbolsOf_cons, symbolsOf_nil, hcs]
          exact .parenthesis hd
      | closeParen | question | colon | not | operator op => cases hread

theorem Level.Sound.unary (h : inner.Sound m) (hread : inner.unary tokens = .ok (e, rest)) :
    Reads .operand (m + 1) tokens e rest := by
  have hprimary {tokens} (hread : inner.primary tokens = .ok (e, rest)) :
      Reads .operand (m + 1) tokens e rest := by
    obtain ⟨used, k, heq, hd, hk⟩ := h.primary hread
    exact ⟨used, k, heq, .primary hd, hk⟩
  cases tokens with
  | nil => exact hprimary hread
  | cons token more =>
      cases hop : token.symbol.unary? with
      | none => exact hprimary (unary_of_none inner more hop ▸ hread)
      | some op =>
          rw [unary_of_some inner more hop] at hread
          obtain ⟨⟨e', mid⟩, hinner, hdone⟩ := bind_eq_ok_iff.1 hread
          cases hdone
          obtain ⟨used, k, rfl, hd, hk⟩ := h.operand hinner
          refine ⟨token :: used, k + 1, rfl, ?_, by omega⟩
          rw [symbolsOf_cons, eq_symbol_of_unary? hop]
          exact .unary op hd

theorem Level.Sound.chainTail (h : inner.Sound m) (rounds : Nat) :
    ∀ {tokens rest : List Token} {more : List (BinaryOp × Expr)},
      inner.chainTail rounds tokens = .ok (more, rest) →
      ∃ used k, tokens = used ++ rest ∧ Tail 0 (symbolsOf used) more k ∧ k ≤ m + 1 := by
  -- on the rounds: running out of them reads nothing, which is sound
  induction rounds with
  | zero =>
      intro tokens rest more hread
      cases hread
      exact ⟨[], 0, rfl, .nil, by omega⟩
  | succ rounds ih =>
      intro tokens rest more hread
      by_cases hend : EndsChain tokens
      · rw [chainTail_of_endsChain inner hend] at hread
        cases hread
        exact ⟨[], 0, rfl, .nil, by omega⟩
      · obtain ⟨op, position, tokens, rfl⟩ := exists_operator_of_not_endsChain hend
        rw [chainTail_operator] at hread
        obtain ⟨⟨r, mid⟩, hunary, htail⟩ := bind_eq_ok_iff.1 hread
        obtain ⟨⟨more', rest'⟩, hmore, hdone⟩ := bind_eq_ok_iff.1 htail
        cases hdone
        obtain ⟨used, k, rfl, hd, hk⟩ := h.unary hunary
        obtain ⟨used', l, rfl, ht, hl⟩ := ih hmore
        refine ⟨⟨.operator op, position⟩ :: (used ++ used'), max k l, by simp, ?_, by omega⟩
        rw [symbolsOf_cons, symbolsOf_append]
        exact .cons (.operand hd) ht

theorem Level.Sound.binary (h : inner.Sound m) (hread : inner.binary tokens = .ok (e, rest)) :
    Reads (.level 6) (m + 1) tokens e rest := by
  unfold Level.binary at hread
  obtain ⟨⟨first, mid⟩, hunary, htail⟩ := bind_eq_ok_iff.1 hread
  obtain ⟨⟨more, rest'⟩, hmore, hdone⟩ := bind_eq_ok_iff.1 htail
  cases hdone
  obtain ⟨used, k, rfl, hd, hk⟩ := h.unary hunary
  obtain ⟨used', l, rfl, ht, hl⟩ := h.chainTail _ hmore
  refine ⟨used ++ used', max k l, (List.append_assoc ..).symm, ?_, by omega⟩
  rw [symbolsOf_append]
  exact derives_fold ⟨_, _, k, l, rfl, rfl, .operand hd, ht⟩

theorem Level.Sound.whole (h : inner.Sound m) (hread : inner.whole tokens = .ok (e, rest)) :
    Reads .conditional (m + 1) tokens e rest := by
  rw [whole_eq] at hread
  obtain ⟨⟨cond, mid⟩, hbinary, hafter⟩ := bind_eq_ok_iff.1 hread
  change inner.afterCondition cond mid = .ok (e, rest) at hafter
  obtain ⟨used, k, rfl, hd, hk⟩ := h.binary hbinary
  -- a question mark after the condition decides between the two forms
  by_cases hq : (symbolsOf mid).head? = some .question
  · obtain ⟨position, mid, rfl⟩ := exists_of_head?_symbolsOf hq
    rw [afterCondition_question] at hafter
    obtain ⟨⟨t, mid₁⟩, hthen, hafter⟩ := bind_eq_ok_iff.1 hafter
    obtain ⟨mid₂, hexpect, hafter⟩ := bind_eq_ok_iff.1 hafter
    obtain ⟨⟨e', mid₃⟩, helse, hdone⟩ := bind_eq_ok_iff.1 hafter
    cases hdone
    obtain ⟨ts, l, rfl, ht, hl⟩ := h.conditional hthen
    obtain ⟨colon, rfl, hcolon⟩ := exists_of_expect hexpect
    obtain ⟨es, l', rfl, he, hl'⟩ := h.conditional helse
    refine ⟨used ++ ⟨.question, position⟩ :: (ts ++ colon :: es), max k (max (l + 1) (l' + 1)),
      by simp, ?_, by omega⟩
    simp only [symbolsOf_append, symbolsOf_cons, hcolon]
    exact .branching hd ht he
  · rw [afterCondition_of_ne inner hq] at hafter
    cases hafter
    exact ⟨used, k, rfl, .plain hd, hk⟩

theorem Level.Sound.within (h : inner.Sound m) : inner.within.Sound (m + 1) where
  operand := h.unary
  conditional := h.whole

end Sound

theorem sound_ofDepth (m : Nat) : (Level.ofDepth m).Sound m := by
  induction m with
  | zero =>
      -- without a level left everything is refused
      constructor
      · intro tokens e rest h
        cases h
      · intro tokens e rest h
        cases h
  | succ m ih => exact ih.within

/-! ## §4. What is derived is read. -/

section Complete

variable {inner : Level} {m k : Nat} {rest : List Token} {e : Expr}

theorem Level.Complete.primary (h : inner.Complete m) {used : List Token}
    (hd : Derives .primary (symbolsOf used) e k) (hk : k ≤ m + 1) :
    inner.primary (used ++ rest) = .ok (e, rest) := by
  generalize hs : symbolsOf used = symbols at hd
  cases hd with
  | number value =>
      obtain ⟨position, more, rfl, hnil⟩ := exists_of_symbolsOf_cons hs
      rw [List.map_eq_nil_iff.1 hnil]
      rfl
  | n =>
      obtain ⟨position, more, rfl, hnil⟩ := exists_of_symbolsOf_cons hs
      rw [List.map_eq_nil_iff.1 hnil]
      rfl
  | @parenthesis ts _ k hd =>
      obtain ⟨position, more, rfl, hmore⟩ := exists_of_symbolsOf_cons hs
      obtain ⟨inside, close, rfl, rfl, hclose⟩ := exists_of_symbolsOf_append hmore
      obtain ⟨position', more, rfl, hnil⟩ := exists_of_symbolsOf_cons hclose
      have hinner : inner.conditional (inside ++ ⟨.closeParen, position'⟩ :: rest)
          = .ok (e, ⟨.closeParen, position'⟩ :: rest) :=
        h.conditional ⟨fun op => by simp, by simp⟩ ⟨inside, k, rfl, hd, by omega⟩
      rw [List.map_eq_nil_iff.1 hnil, List.cons_append, List.append_assoc, primary_openParen]
      show (inner.conditional (inside ++ ⟨.closeParen, position'⟩ :: rest) >>= _) = _
      rw [hinner]
      rfl

/-- A primary expression opens with no unary operator. -/
theorem unary?_of_derives_primary {s : Symbol} {ss : List Symbol}
    (hd : Derives .primary (s :: ss) e k) : s.unary? = none := by
  cases hd <;> rfl

theorem Level.Complete.unary (h : inner.Complete m) {used : List Token}
    (hd : Derives .operand (symbolsOf used) e k) (hk : k ≤ m + 1) :
    inner.unary (used ++ rest) = .ok (e, rest) := by
  generalize hs : symbolsOf used = symbols at hd
  cases hd with
  | primary hd =>
      obtain ⟨s, ss, rfl⟩ := List.exists_cons_of_ne_nil hd.ne_nil
      obtain ⟨position, more, rfl, rfl⟩ := exists_of_symbolsOf_cons hs
      rw [List.cons_append, unary_of_none inner _ (unary?_of_derives_primary hd)]
      have hprimary : inner.primary ((⟨s, position⟩ :: more) ++ rest) = .ok (e, rest) :=
        h.primary hd hk
      exact hprimary
  | @unary op ts e k hd =>
      obtain ⟨position, more, rfl, rfl⟩ := exists_of_symbolsOf_cons hs
      have hinner : inner.operand (more ++ rest) = .ok (e, rest) :=
        h.operand ⟨more, k, rfl, hd, by omega⟩
      rw [List.cons_append, unary_of_some inner _ (unary?_symbol op), hinner]
      rfl

theorem Level.Complete.chainTail (h : inner.Complete m) (hrest : EndsChain rest) {l : Nat}
    {symbols : List Symbol} {more : List (BinaryOp × Expr)} (ht : Tail 0 symbols more l)
    (hl : l ≤ m + 1) :
    ∀ {used : List Token} {rounds : Nat}, symbolsOf used = symbols → used.length ≤ rounds →
      inner.chainTail rounds (used ++ rest) = .ok (more, rest) := by
  -- on the tail: every operator takes a token, so the rounds do not run out
  induction ht with
  | nil =>
      intro used rounds hs _
      rw [List.map_eq_nil_iff.1 hs]
      exact chainTail_of_endsChain inner hrest rounds
  | @cons op ts us e more k l hd _ ih =>
      intro used rounds hs hrounds
      obtain ⟨position, used, rfl, hused⟩ := exists_of_symbolsOf_cons hs
      obtain ⟨first, others, rfl, rfl, rfl⟩ := exists_of_symbolsOf_append hused
      rw [List.length_cons, List.length_append] at hrounds
      obtain ⟨rounds, rfl⟩ : ∃ r, rounds = r + 1 := ⟨rounds - 1, by omega⟩
      have hfirst : inner.unary (first ++ (others ++ rest)) = .ok (e, others ++ rest) := by
        cases hd with
        | operand hd => exact h.unary hd (by omega)
      rw [List.cons_append, List.append_assoc, chainTail_operator, hfirst]
      show (inner.chainTail rounds (others ++ rest) >>= _) = _
      rw [ih (by omega) rfl (by omega)]
      rfl

theorem Level.Complete.binary (h : inner.Complete m) (hrest : EndsChain rest)
    {used : List Token} (hd : Derives (.level 6) (symbolsOf used) e k) (hk : k ≤ m + 1) :
    inner.binary (used ++ rest) = .ok (e, rest) := by
  -- the parser collects the chain that the derivation has, and joins it as the grammar does
  obtain ⟨chain, ⟨fs, ts, l, l', hs, rfl, hfirst, htail⟩, hjoined⟩ := chain_of_derives hd
  obtain ⟨first, others, rfl, rfl, rfl⟩ := exists_of_symbolsOf_append hs
  have hunary : inner.unary (first ++ (others ++ rest)) = .ok (chain.1, others ++ rest) := by
    cases hfirst with
    | operand hd => exact h.unary hd (by omega)
  have hmore : inner.chainTail (others ++ rest).length (others ++ rest) = .ok (chain.2, rest) :=
    h.chainTail hrest htail (by omega) rfl (by simp)
  have hfold : Chain.fold (chain.1, chain.2) = e := by
    rw [Chain.fold_eq_joined, hjoined]
  rw [List.append_assoc, Level.binary, hunary]
  show (inner.chainTail (others ++ rest).length (others ++ rest) >>= _) = _
  rw [hmore, ← hfold]
  rfl

theorem Level.Complete.whole (h : inner.Complete m) (hrest : EndsConditional rest)
    {used : List Token} (hd : Derives .conditional (symbolsOf used) e k) (hk : k ≤ m + 1) :
    inner.whole (used ++ rest) = .ok (e, rest) := by
  generalize hs : symbolsOf used = symbols at hd
  cases hd with
  | plain hd =>
      subst hs
      rw [whole_eq, h.binary hrest.1 hd hk]
      exact afterCondition_of_ne inner hrest.2 e
  | @branching cs ts es c t e k l l' hc ht he =>
      obtain ⟨cond, others, rfl, rfl, hothers⟩ := exists_of_symbolsOf_append hs
      obtain ⟨position, others, rfl, hbranches⟩ := exists_of_symbolsOf_cons hothers
      obtain ⟨thens, others, rfl, rfl, hcolon⟩ := exists_of_symbolsOf_append hbranches
      obtain ⟨position', elses, rfl, rfl⟩ := exists_of_symbolsOf_cons hcolon
      have hcond : inner.binary (cond ++ ⟨.question, position⟩ ::
          (thens ++ ⟨.colon, position'⟩ :: (elses ++ rest)))
          = .ok (c, ⟨.question, position⟩ ::
              (thens ++ ⟨.colon, position'⟩ :: (elses ++ rest))) :=
        h.binary (fun op => by simp) hc (by omega)
      have hthen : inner.conditional (thens ++ ⟨.colon, position'⟩ :: (elses ++ rest))
          = .ok (t, ⟨.colon, position'⟩ :: (elses ++ rest)) :=
        h.conditional ⟨fun op => by simp, by simp⟩ ⟨thens, l, rfl, ht, by omega⟩
      have helse : inner.conditional (elses ++ rest) = .ok (e, rest) :=
        h.conditional hrest ⟨elses, l', rfl, he, by omega⟩
      have hsplit : cond ++ ⟨.question, position⟩ :: (thens ++ ⟨.colon, position'⟩ :: elses) ++ rest
          = cond ++ ⟨.question, position⟩ ::
              (thens ++ ⟨.colon, position'⟩ :: (elses ++ rest)) := by
        simp
      rw [hsplit, whole_eq, hcond]
      show inner.afterCondition c (⟨.question, position⟩ ::
        (thens ++ ⟨.colon, position'⟩ :: (elses ++ rest))) = .ok (.conditional c t e, rest)
      rw [afterCondition_question, hthen]
      show (inner.conditional (elses ++ rest) >>= _) = _
      rw [helse]
      rfl

theorem Level.Complete.within (h : inner.Complete m) : inner.within.Complete (m + 1) where
  operand := by
    intro tokens e rest hderived
    obtain ⟨used, k, rfl, hd, hk⟩ := hderived
    exact h.unary hd hk
  conditional := by
    intro tokens e rest hrest hderived
    obtain ⟨used, k, rfl, hd, hk⟩ := hderived
    exact h.whole hrest hd hk

end Complete

theorem complete_ofDepth (m : Nat) : (Level.ofDepth m).Complete m := by
  induction m with
  | zero =>
      -- nothing is derived without a level
      constructor
      · intro tokens e rest h
        obtain ⟨used, k, -, hd, hk⟩ := h
        exact absurd hd.one_le (by omega)
      · intro tokens e rest _ h
        obtain ⟨used, k, -, hd, hk⟩ := h
        exact absurd hd.one_le (by omega)
  | succ m ih => exact ih.within

/-! ## §5. Whole expressions. -/

theorem endsConditional_nil : EndsConditional [] :=
  ⟨fun op => by simp, by simp⟩

/-- The parsers for `m` levels read tokens to their end exactly when they are
derived within `m` levels. -/
theorem conditional_ofDepth_eq_ok_iff {m : Nat} {tokens : List Token} {e : Expr} :
    (Level.ofDepth m).conditional tokens = .ok (e, []) ↔
      ∃ k ≤ m, Derives .conditional (symbolsOf tokens) e k := by
  constructor
  · intro h
    obtain ⟨used, k, rfl, hd, hk⟩ := (sound_ofDepth m).conditional h
    exact ⟨k, hk, by rwa [List.append_nil]⟩
  · intro h
    obtain ⟨k, hk, hd⟩ := h
    exact (complete_ofDepth m).conditional endsConditional_nil
      ⟨tokens, k, (List.append_nil tokens).symm, hd, hk⟩

/-- **No sequence of symbols has two trees.** -/
theorem derives_unique {symbols : List Symbol} {e e' : Expr} {k k' : Nat}
    (h : Derives .conditional symbols e k) (h' : Derives .conditional symbols e' k') : e = e' := by
  -- positions play no part, and parsers deep enough for both trees read either of them
  let tokens : List Token := symbols.map fun s => ⟨s, 0⟩
  have hsymbols : symbolsOf tokens = symbols := by
    simp [tokens, symbolsOf, Function.comp_def]
  have hread := conditional_ofDepth_eq_ok_iff.2 ⟨k, Nat.le_max_left k k', hsymbols.symm ▸ h⟩
  have hread' := conditional_ofDepth_eq_ok_iff.2 ⟨k', Nat.le_max_right k k', hsymbols.symm ▸ h'⟩
  rw [hread] at hread'
  cases hread'
  rfl

theorem ofTokens_eq_ok_iff {tokens : List Token} {e : Expr} :
    Expr.ofTokens tokens = .ok e ↔
      ∃ k ≤ maxNesting, Derives .conditional (symbolsOf tokens) e k := by
  rw [← conditional_ofDepth_eq_ok_iff, Expr.ofTokens, bind_eq_ok_iff]
  constructor
  · intro h
    obtain ⟨⟨e', rest⟩, hread, hdone⟩ := h
    cases rest with
    | nil =>
        cases hdone
        exact hread
    | cons token rest => cases hdone
  · intro hread
    exact ⟨(e, []), hread, rfl⟩

/-- **The parser accepts exactly the grammar.**  A text has the tree `e` when it
is no longer than the limit, consists of tokens, and these derive `e` within the
limit on nesting; and no tokens derive two trees, at whatever depth. -/
theorem parse_accepts_grammar (text : String) :
    (∀ e, Expr.parse text = .ok e ↔
      text.utf8ByteSize ≤ 4096 ∧ ∃ tokens, tokenize text = .ok tokens
        ∧ ∃ k ≤ 64, Derives .conditional (symbolsOf tokens) e k)
    ∧ ∀ tokens e e' k k', tokenize text = .ok tokens →
        Derives .conditional (symbolsOf tokens) e k →
        Derives .conditional (symbolsOf tokens) e' k' → e = e' := by
  refine ⟨fun e => ?_, fun tokens e e' k k' _ => derives_unique⟩
  unfold Expr.parse
  by_cases hsize : text.utf8ByteSize > maxExpressionBytes
  · rw [if_pos hsize]
    constructor
    · intro h
      cases h
    · intro h
      obtain ⟨hle, -⟩ := h
      exact absurd hsize (Nat.not_lt.2 hle)
  · rw [if_neg hsize, bind_eq_ok_iff]
    constructor
    · intro h
      obtain ⟨tokens, htokens, hparse⟩ := h
      refine ⟨Nat.not_lt.1 hsize, tokens, htokens, ?_⟩
      split at hparse
      next => cases hparse
      next => exact ofTokens_eq_ok_iff.1 hparse
    · intro h
      obtain ⟨-, tokens, htokens, hd⟩ := h
      refine ⟨tokens, htokens, ?_⟩
      obtain ⟨k, hk, hd⟩ := hd
      have hne : ¬tokens.isEmpty = true := by
        intro hempty
        exact hd.ne_nil (by rw [List.isEmpty_iff.1 hempty, symbolsOf_nil])
      rw [if_neg hne]
      exact ofTokens_eq_ok_iff.2 ⟨k, hk, hd⟩

end MessageCatalog.Plural
