/-
  MessageCatalog.Proofs.Plural.Offenders
  ────────────────────────────────
  **THE FIRST TOKEN AT FAULT.**

  The parsers of each level report nothing but the nesting and the place where reading is stuck
  (`Level.Blaming`).  They also leave nothing behind a conditional that would belong to it
  (`Level.Maximal`), so a symbol that is missing is really missing.

  Hence a reported token is the first one at fault: what stands before it begins an expression
  that nests no deeper than allowed, and no expression of any depth begins with this and the
  token (`fault_at_first_offender`).
-/
import MessageCatalog.Proofs.Plural.Lexing
import MessageCatalog.Proofs.Plural.Stuck

namespace MessageCatalog.Plural

/-! ## §1. What is left behind a conditional. -/

/-- A chain is read as long as operators follow. -/
theorem Level.Sound.endsChain_chainTail {inner : Level} {m : Nat} (h : inner.Sound m)
    (rounds : Nat) :
    ∀ {tokens rest : List Token} {more : List (BinaryOp × Expr)}, tokens.length ≤ rounds →
      inner.chainTail rounds tokens = .ok (more, rest) → EndsChain rest := by
  induction rounds with
  | zero =>
      intro tokens rest more hlength hread
      obtain rfl := List.length_eq_zero_iff.1 (Nat.le_zero.1 hlength)
      cases hread
      exact fun op => by simp
  | succ rounds ih =>
      intro tokens rest more hlength hread
      by_cases hend : EndsChain tokens
      · rw [chainTail_of_endsChain inner hend] at hread
        cases hread
        exact hend
      · obtain ⟨op, position, tokens, rfl⟩ := exists_operator_of_not_endsChain hend
        rw [chainTail_operator] at hread
        obtain ⟨⟨r, mid⟩, hunary, htail⟩ := bind_eq_ok_iff.1 hread
        obtain ⟨⟨more', rest'⟩, hmore, hdone⟩ := bind_eq_ok_iff.1 htail
        cases hdone
        obtain ⟨used, k, rfl, -, -⟩ := h.unary hunary
        refine ih ?_ hmore
        simp only [List.length_cons, List.length_append] at hlength
        omega

theorem Level.Sound.endsChain_binary {inner : Level} {m : Nat} (h : inner.Sound m)
    {tokens rest : List Token} {e : Expr} (hread : inner.binary tokens = .ok (e, rest)) :
    EndsChain rest := by
  unfold Level.binary at hread
  obtain ⟨⟨first, mid⟩, -, htail⟩ := bind_eq_ok_iff.1 hread
  obtain ⟨⟨more, rest'⟩, hmore, hdone⟩ := bind_eq_ok_iff.1 htail
  cases hdone
  exact h.endsChain_chainTail _ (Nat.le_refl _) hmore

/-- The parsers of a level leave nothing behind a conditional that would belong to it. -/
def Level.Maximal (l : Level) : Prop :=
  ∀ {tokens rest : List Token} {e : Expr}, l.conditional tokens = .ok (e, rest) →
    EndsConditional rest

theorem Level.Maximal.within {inner : Level} {m : Nat} (h : inner.Maximal)
    (hsound : inner.Sound m) : inner.within.Maximal := by
  intro tokens rest e hread
  change inner.whole tokens = .ok (e, rest) at hread
  rw [whole_eq] at hread
  obtain ⟨⟨cond, mid⟩, hbinary, hafter⟩ := bind_eq_ok_iff.1 hread
  change inner.afterCondition cond mid = .ok (e, rest) at hafter
  by_cases hq : (symbolsOf mid).head? = some .question
  · obtain ⟨position, mid, rfl⟩ := exists_of_head?_symbolsOf hq
    rw [afterCondition_question] at hafter
    obtain ⟨⟨t, mid₁⟩, -, hafter⟩ := bind_eq_ok_iff.1 hafter
    obtain ⟨mid₂, -, hafter⟩ := bind_eq_ok_iff.1 hafter
    obtain ⟨⟨e', mid₃⟩, helse, hdone⟩ := bind_eq_ok_iff.1 hafter
    cases hdone
    exact h helse
  · rw [afterCondition_of_ne inner hq] at hafter
    cases hafter
    exact ⟨hsound.endsChain_binary hbinary, hq⟩

theorem maximal_ofDepth (m : Nat) : (Level.ofDepth m).Maximal := by
  induction m with
  | zero =>
      intro tokens rest e h
      cases h
  | succ m ih => exact ih.within (sound_ofDepth m)

/-! ## §2. What is reported. -/

/-- A fault that reports the first of the tokens, or that there is none. -/
inductive Reports : List Token → Fault → Prop where
  | atEnd (expected : String) : Reports [] (.unexpectedEnd expected)
  | atToken (expected : String) (token : Token) (rest : List Token) :
      Reports (token :: rest) (.unexpectedToken expected token.symbol.spelling token.position)

/-- A fault reports the nesting, or the place in the tokens where reading is stuck. -/
def Blames (c : Construct) (m : Nat) (tokens : List Token) (fault : Fault) : Prop :=
  fault = .nestingTooDeep maxNesting
    ∨ ∃ used rest, tokens = used ++ rest ∧ StuckAt c m used rest ∧ Reports rest fault

/-- The parsers of a level report nothing else. -/
structure Level.Blaming (l : Level) (m : Nat) : Prop where
  operand {tokens : List Token} {fault : Fault} :
    l.operand tokens = .error fault → Blames .operand m tokens fault
  conditional {tokens : List Token} {fault : Fault} :
    l.conditional tokens = .error fault → Blames .conditional m tokens fault

/-- A part in front of which other tokens have been read. -/
theorem Blames.map {c d : Construct} {m m' : Nat} {tokens : List Token} {fault : Fault}
    (h : Blames c m tokens fault) (front : List Token)
    (hstuck : ∀ {used rest}, StuckAt c m used rest → StuckAt d m' (front ++ used) rest) :
    Blames d m' (front ++ tokens) fault := by
  rcases h with hdeep | ⟨used, rest, rfl, hused, hreports⟩
  · exact Or.inl hdeep
  · exact Or.inr ⟨front ++ used, rest, (List.append_assoc ..).symm, hstuck hused, hreports⟩

/-- A symbol that is missing is reported where it should stand. -/
theorem reports_of_expect {wanted : Symbol} {expected : String} {tokens : List Token}
    {fault : Fault} (h : expect wanted expected tokens = .error fault) :
    (symbolsOf tokens).head? ≠ some wanted ∧ Reports tokens fault := by
  cases tokens with
  | nil =>
      cases h
      exact ⟨by simp, .atEnd expected⟩
  | cons token rest =>
      by_cases hw : token.symbol = wanted
      · rw [expect, if_pos hw] at h
        cases h
      · rw [expect, if_neg hw] at h
        cases h
        exact ⟨by simpa using hw, .atToken expected token rest⟩

section Blaming

variable {inner : Level} {m : Nat} {tokens : List Token} {fault : Fault}

theorem Level.Blaming.primary (h : inner.Blaming m) (hsound : inner.Sound m)
    (hmaximal : inner.Maximal) (hhead : ∀ token ∈ tokens.head?, token.symbol.unary? = none)
    (herror : inner.primary tokens = .error fault) : Blames .primary (m + 1) tokens fault := by
  cases tokens with
  | nil =>
      cases herror
      exact Or.inr ⟨[], [], rfl, ⟨1, by omega, .start (by simp)⟩, .atEnd _⟩
  | cons token rest =>
      obtain ⟨symbol, position⟩ := token
      have hunary : symbol.unary? = none := hhead _ rfl
      -- a symbol that is no primary expression and no unary operator opens no operand
      have hstart (hopens : symbol.opensOperand = false)
          (hfault : fault = .unexpectedToken operandStart symbol.spelling position) :
          Blames .primary (m + 1) (⟨symbol, position⟩ :: rest) fault := by
        subst hfault
        exact Or.inr ⟨[], _, rfl, ⟨1, by omega, .start (by simpa using hopens)⟩,
          .atToken operandStart ⟨symbol, position⟩ rest⟩
      cases symbol with
      | number value => cases herror
      | n => cases herror
      | openParen =>
          rw [primary_openParen] at herror
          rcases bind_eq_error_iff.1 herror with hinner | ⟨⟨e, mid⟩, hinner, hclose⟩
          · refine (h.conditional hinner).map [⟨.openParen, position⟩] ?_
            rintro used rest ⟨k, hk, hstuck⟩
            exact ⟨k + 1, by omega, .inside hstuck⟩
          · obtain ⟨used, k, rfl, hd, hk⟩ := hsound.conditional hinner
            rcases bind_eq_error_iff.1 hclose with hexpect | ⟨rest', -, hdone⟩
            · obtain ⟨hnext, hreports⟩ := reports_of_expect hexpect
              exact Or.inr ⟨⟨.openParen, position⟩ :: used, mid, rfl,
                ⟨k + 1, by omega, .unclosed hd (hmaximal hinner) hnext⟩, hreports⟩
            · cases hdone
      | closeParen | question | colon =>
          cases herror
          exact hstart rfl rfl
      | not => cases hunary
      | operator op =>
          cases herror
          refine hstart ?_ rfl
          show (Symbol.operator op).unary?.isSome = false
          rw [hunary]
          rfl

theorem Level.Blaming.unary (h : inner.Blaming m) (hsound : inner.Sound m)
    (hmaximal : inner.Maximal) (herror : inner.unary tokens = .error fault) :
    Blames .operand (m + 1) tokens fault := by
  have hprimary (hhead : ∀ token ∈ tokens.head?, token.symbol.unary? = none)
      (herror : inner.primary tokens = .error fault) :
      Blames .operand (m + 1) tokens fault := by
    refine (h.primary hsound hmaximal hhead herror).map [] ?_
    rintro used rest ⟨k, hk, hstuck⟩
    exact ⟨k, hk, .primary hstuck⟩
  cases tokens with
  | nil => exact hprimary (by simp) herror
  | cons token rest =>
      cases hop : token.symbol.unary? with
      | none =>
          rw [unary_of_none inner rest hop] at herror
          exact hprimary (by simpa using hop) herror
      | some op =>
          rw [unary_of_some inner rest hop] at herror
          rcases bind_eq_error_iff.1 herror with hinner | ⟨⟨e, mid⟩, -, hdone⟩
          · refine (h.operand hinner).map [token] ?_
            rintro used rest ⟨k, hk, hstuck⟩
            refine ⟨k + 1, by omega, ?_⟩
            rw [List.singleton_append, symbolsOf_cons, eq_symbol_of_unary? hop]
            exact .unary op hstuck
          · cases hdone

/-- A chain is stuck in one of its later operands, behind a chain that is complete. -/
theorem Level.Blaming.chainTail (h : inner.Blaming m) (hsound : inner.Sound m)
    (hmaximal : inner.Maximal) (rounds : Nat) :
    ∀ {tokens front : List Token} {chain : Chain} {k : Nat},
      Spells 0 (symbolsOf front) chain k → k ≤ m + 1 →
      inner.chainTail rounds tokens = .error fault →
      Blames (.level 6) (m + 1) (front ++ tokens) fault := by
  -- on the rounds: each operand that is read goes to the chain in front
  induction rounds with
  | zero =>
      intro tokens front chain k _ _ herror
      cases herror
  | succ rounds ih =>
      intro tokens front chain k hspells hk herror
      by_cases hend : EndsChain tokens
      · rw [chainTail_of_endsChain inner hend] at herror
        cases herror
      · obtain ⟨op, position, tokens, rfl⟩ := exists_operator_of_not_endsChain hend
        rw [chainTail_operator] at herror
        rcases bind_eq_error_iff.1 herror with hunary | ⟨⟨r, mid⟩, hunary, htail⟩
        · rw [List.append_cons]
          refine (h.unary hsound hmaximal hunary).map (front ++ [⟨.operator op, position⟩]) ?_
          rintro used rest ⟨l, hl, hstuck⟩
          refine ⟨max k l, by omega, ?_⟩
          rw [List.append_assoc, symbolsOf_append]
          exact .later hspells hstuck
        · rcases bind_eq_error_iff.1 htail with hmore | ⟨⟨more, rest⟩, -, hdone⟩
          · obtain ⟨used, l, rfl, hd, hl⟩ := hsound.unary hunary
            have hlonger : Spells 0 (symbolsOf (front ++ ⟨.operator op, position⟩ :: used))
                (chain.1, chain.2 ++ [(op, r)]) (max k l) := by
              rw [symbolsOf_append, symbolsOf_cons]
              exact hspells.append (spells_single (.operand hd))
            have hstuck := ih hlonger (by omega) hmore
            rwa [List.append_assoc] at hstuck
          · cases hdone

theorem Level.Blaming.binary (h : inner.Blaming m) (hsound : inner.Sound m)
    (hmaximal : inner.Maximal) (herror : inner.binary tokens = .error fault) :
    Blames (.level 6) (m + 1) tokens fault := by
  unfold Level.binary at herror
  rcases bind_eq_error_iff.1 herror with hunary | ⟨⟨first, mid⟩, hunary, htail⟩
  · refine (h.unary hsound hmaximal hunary).map [] ?_
    rintro used rest ⟨k, hk, hstuck⟩
    exact ⟨k, hk, .first hstuck⟩
  · obtain ⟨used, k, rfl, hd, hk⟩ := hsound.unary hunary
    rcases bind_eq_error_iff.1 htail with hmore | ⟨⟨more, rest⟩, -, hdone⟩
    · exact h.chainTail hsound hmaximal _ (spells_single (.operand hd)) hk hmore
    · cases hdone

theorem Level.Blaming.whole (h : inner.Blaming m) (hsound : inner.Sound m)
    (hmaximal : inner.Maximal) (herror : inner.whole tokens = .error fault) :
    Blames .conditional (m + 1) tokens fault := by
  rw [whole_eq] at herror
  rcases bind_eq_error_iff.1 herror with hbinary | ⟨⟨cond, mid⟩, hbinary, hafter⟩
  · refine (h.binary hsound hmaximal hbinary).map [] ?_
    rintro used rest ⟨k, hk, hstuck⟩
    exact ⟨k, hk, .condition hstuck⟩
  · change inner.afterCondition cond mid = .error fault at hafter
    obtain ⟨cs, k, rfl, hc, hk⟩ := hsound.binary hbinary
    by_cases hq : (symbolsOf mid).head? = some .question
    · obtain ⟨position, mid, rfl⟩ := exists_of_head?_symbolsOf hq
      rw [afterCondition_question] at hafter
      rcases bind_eq_error_iff.1 hafter with hthen | ⟨⟨t, mid₁⟩, hthen, hcolon⟩
      · rw [List.append_cons]
        refine (h.conditional hthen).map (cs ++ [⟨.question, position⟩]) ?_
        rintro used rest ⟨l, hl, hstuck⟩
        refine ⟨max k (l + 1), by omega, ?_⟩
        rw [List.append_assoc, symbolsOf_append]
        exact .thenBranch hc hstuck
      obtain ⟨ts, l, rfl, ht, hl⟩ := hsound.conditional hthen
      rcases bind_eq_error_iff.1 hcolon with hexpect | ⟨mid₂, hexpect, helse⟩
      · obtain ⟨hnext, hreports⟩ := reports_of_expect hexpect
        refine Or.inr ⟨cs ++ ⟨.question, position⟩ :: ts, mid₁, by simp,
          ⟨max k (l + 1), by omega, ?_⟩, hreports⟩
        rw [symbolsOf_append]
        exact .colon hc ht (hmaximal hthen) hnext
      obtain ⟨colon, rfl, hsymbol⟩ := exists_of_expect hexpect
      rcases bind_eq_error_iff.1 helse with hinner | ⟨⟨e, mid₃⟩, -, hdone⟩
      · have hsplit : cs ++ ⟨.question, position⟩ :: (ts ++ colon :: mid₂)
            = cs ++ ⟨.question, position⟩ :: (ts ++ [colon]) ++ mid₂ := by
          simp
        rw [hsplit]
        refine (h.conditional hinner).map (cs ++ ⟨.question, position⟩ :: (ts ++ [colon])) ?_
        rintro used rest ⟨l', hl', hstuck⟩
        refine ⟨max k (max (l + 1) (l' + 1)), by omega, ?_⟩
        have hsymbols : symbolsOf (cs ++ ⟨.question, position⟩ :: (ts ++ [colon]) ++ used)
            = symbolsOf cs ++ .question :: (symbolsOf ts ++ .colon :: symbolsOf used) := by
          simp [hsymbol]
        rw [hsymbols]
        exact .elseBranch hc ht hstuck
      · cases hdone
    · rw [afterCondition_of_ne inner hq] at hafter
      cases hafter

theorem Level.Blaming.within (h : inner.Blaming m) (hsound : inner.Sound m)
    (hmaximal : inner.Maximal) : inner.within.Blaming (m + 1) where
  operand := h.unary hsound hmaximal
  conditional := h.whole hsound hmaximal

end Blaming

theorem blaming_ofDepth (m : Nat) : (Level.ofDepth m).Blaming m := by
  induction m with
  | zero =>
      -- without a level left it is the nesting that is reported
      constructor
      · intro tokens fault h
        cases h
        exact Or.inl rfl
      · intro tokens fault h
        cases h
        exact Or.inl rfl
  | succ m ih => exact ih.within (sound_ofDepth m) (maximal_ofDepth m)

/-- What parsing a whole list of tokens reports: the first token or the end at which reading is
stuck, the first token behind an expression that is complete, or the nesting. -/
theorem ofTokens_eq_error {tokens : List Token} {fault : Fault}
    (h : Expr.ofTokens tokens = .error fault) :
    Blames .conditional maxNesting tokens fault
      ∨ ∃ used token rest e k, tokens = used ++ token :: rest ∧ k ≤ maxNesting
          ∧ Derives .conditional (symbolsOf used) e k ∧ Apart (some token.symbol)
          ∧ Reports (token :: rest) fault := by
  unfold Expr.ofTokens at h
  rcases bind_eq_error_iff.1 h with hread | ⟨⟨e, rest⟩, hread, hrest⟩
  · exact Or.inl ((blaming_ofDepth maxNesting).conditional hread)
  · obtain ⟨used, k, rfl, hd, hk⟩ := (sound_ofDepth maxNesting).conditional hread
    cases rest with
    | nil => cases hrest
    | cons token rest =>
        cases hrest
        exact Or.inr ⟨used, token, rest, e, k, rfl, hk, hd, maximal_ofDepth _ hread,
          .atToken _ token rest⟩

/-! ## §3. Where tokens stand. -/

/-- The tokens in front of one are those that stand before it. -/
theorem position_lt_of_tokenize {text : String} {before after : List Token} {token : Token}
    (h : tokenize text = .ok (before ++ token :: after)) :
    (∀ t ∈ before, t.position < token.position) ∧ ∀ t ∈ after, token.position < t.position := by
  have hpairwise := (tokenized_of_tokenize h).increasing
  rw [List.pairwise_append] at hpairwise
  obtain ⟨-, htail, hacross⟩ := hpairwise
  exact ⟨fun t ht => hacross t ht token List.mem_cons_self, (List.pairwise_cons.1 htail).1⟩

/-! ## §4. The first offender. -/

/-- A fault that is about tokens, and not about the text that they are made of. -/
def Fault.isAboutTokens : Fault → Bool
  | .unexpectedToken .. | .unexpectedEnd _ => true
  | _ => false

theorem isAboutTokens_of_blocks {position : Nat} {cs : List Char} {fault : Fault}
    (h : Blocks position cs fault) : fault.isAboutTokens = false := by
  cases h with
  | char _ _ => rfl
  | number _ _ => rfl

/-- A fault about tokens comes from parsing those of the text. -/
theorem exists_tokens_of_parse {text : String} {fault : Fault}
    (h : Expr.parse text = .error fault) (habout : fault.isAboutTokens = true) :
    ∃ tokens, tokenize text = .ok tokens ∧ Expr.ofTokens tokens = .error fault := by
  unfold Expr.parse at h
  split at h
  next =>
    cases h
    cases habout
  next =>
    rcases bind_eq_error_iff.1 h with hscan | ⟨tokens, htokens, hparse⟩
    · obtain ⟨_, _, _, _, _, hblocks⟩ := exists_blocks_of_scan hscan
      rw [isAboutTokens_of_blocks hblocks] at habout
      cases habout
    · split at hparse
      next =>
        cases hparse
        cases habout
      next => exact ⟨tokens, htokens, hparse⟩

/-- **A reported token is the first offender.**

If the end comes too early, the tokens are the beginning of an expression that nests at most 64
levels deep, but not yet one.  If a token is reported, it stands at the reported byte; the tokens
that stand before it are the beginning of an expression that nests at most 64 levels deep, or the
whole of one, and no expression of any depth begins with them and the token. -/
theorem fault_at_first_offender (text : String) :
    (∀ expected, Expr.parse text = .error (.unexpectedEnd expected) →
        ∃ tokens, tokenize text = .ok tokens
          ∧ ∃ more e k, more ≠ [] ∧ k ≤ 64 ∧ Derives .conditional (symbolsOf tokens ++ more) e k)
      ∧ ∀ expected found position,
        Expr.parse text = .error (.unexpectedToken expected found position) →
          ∃ before token after, tokenize text = .ok (before ++ token :: after)
            ∧ token.position = position ∧ token.symbol.spelling = found
            ∧ (∀ t ∈ before, t.position < position) ∧ (∀ t ∈ after, position < t.position)
            ∧ (∃ more e k, k ≤ 64 ∧ Derives .conditional (symbolsOf before ++ more) e k)
            ∧ ∀ more e k, ¬ Derives .conditional (symbolsOf before ++ token.symbol :: more) e k := by
  constructor
  · intro expected h
    obtain ⟨tokens, htokens, hparse⟩ := exists_tokens_of_parse h rfl
    refine ⟨tokens, htokens, ?_⟩
    rcases ofTokens_eq_error hparse with
      (hdeep | ⟨used, rest, rfl, ⟨k, hk, hstuck⟩, hreports⟩) | ⟨_, _, _, _, _, _, _, _, _, hreports⟩
    · cases hdeep
    · cases hreports
      obtain ⟨more, e, l, hmore, hl, hd⟩ := hstuck.completes
      rw [List.append_nil]
      exact ⟨more, e, l, hmore, Nat.le_trans hl hk, hd⟩
    · cases hreports
  · intro expected found position h
    obtain ⟨tokens, htokens, hparse⟩ := exists_tokens_of_parse h rfl
    rcases ofTokens_eq_error hparse with
      (hdeep | ⟨used, rest, rfl, ⟨k, hk, hstuck⟩, hreports⟩)
        | ⟨used, token, rest, e, k, rfl, hk, hd, hapart, hreports⟩
    · cases hdeep
    · -- reading is stuck inside an expression
      cases hreports with
      | atToken _ token rest =>
          obtain ⟨hbefore, hafter⟩ := position_lt_of_tokenize htokens
          obtain ⟨more, e, l, -, hl, hd⟩ := hstuck.completes
          exact ⟨used, token, rest, htokens, rfl, rfl, hbefore, hafter,
            ⟨more, e, l, Nat.le_trans hl hk, hd⟩, hstuck.not_derives⟩
    · -- the expression is over, and something follows it
      cases hreports
      obtain ⟨hbefore, hafter⟩ := position_lt_of_tokenize htokens
      exact ⟨used, token, rest, htokens, rfl, rfl, hbefore, hafter,
        ⟨[], e, k, hk, by rwa [List.append_nil]⟩, hd.not_derives_append hapart⟩

/-- A parenthesis that is left open, and a branch that is closed where its colon should stand. -/
theorem fault_at_first_offender_spots :
    Expr.parse "(n +" = .error (.unexpectedEnd operandStart)
      ∧ (∃ more e k, more ≠ [] ∧ k ≤ 64
          ∧ Derives .conditional ([.openParen, .n, .operator .add] ++ more) e k)
      ∧ Expr.parse "n ? (n) ) : 2" = .error (.unexpectedToken "':'" ")" 8)
      ∧ ∀ more e k, ¬ Derives .conditional
          ([.n, .question, .openParen, .n, .closeParen] ++ .closeParen :: more) e k := by
  have hend : Expr.parse "(n +" = .error (.unexpectedEnd operandStart) := by rfl
  have htoken : Expr.parse "n ? (n) ) : 2" = .error (.unexpectedToken "':'" ")" 8) := by rfl
  refine ⟨hend, ?_, htoken, ?_⟩
  · obtain ⟨tokens, htokens, hbegins⟩ := (fault_at_first_offender "(n +").1 _ hend
    cases htokens
    exact hbegins
  · obtain ⟨before, token, after, htokens, hposition, -, hbefore, -, -, hno⟩ :=
      (fault_at_first_offender "n ? (n) ) : 2").2 _ _ _ htoken
    -- the token is known from where it stands
    have hsplit : before = (before ++ token :: after).takeWhile fun t => t.position < 8 := by
      rw [List.takeWhile_append_of_pos (by simpa using hbefore),
        List.takeWhile_cons_of_neg (by simp [hposition]), List.append_nil]
    rw [← Except.ok.inj htokens] at hsplit
    subst hsplit
    cases htokens
    exact hno

end MessageCatalog.Plural
