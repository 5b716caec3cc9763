/-
  MessageCatalog.Proofs.Plural.Grammar
  ────────────────────────────────
  **THE GRAMMAR OF PLURAL EXPRESSIONS.**

  `Derives c symbols e k` says that the symbols are an instance of the construct
  `c`, that `e` is its tree, and that it nests `k` levels deep.  The grammar is
  stratified as in C:

      conditional  ::=  level 6  |  level 6 ? conditional : conditional
      level (j+1)  ::=  level j  |  level (j+1) op level j
      level 0      ::=  operand
      operand      ::=  primary  |  ! operand  |  - operand  |  + operand
      primary      ::=  number  |  n  |  ( conditional )

  Level 1 holds the operators that bind tightest and level 6 the loosest; each
  is left recursive, hence joins from the left.

  A reader collects a chain of operands and joins it afterwards.  The two main
  results say that this gives the trees of the grammar and no others:

      derives_fold          the tree of a chain is derived at level 6
      chain_of_derives      what is derived at a level is the tree of its chain
-/
import MessageCatalog.Plural.Parser

namespace MessageCatalog.Plural

/-! ## §1. Derivations. -/

/-- The operators of a level: multiplicative, additive, relational, equality,
`&&`, `||`. -/
def operatorsOf : (level : Nat) → List BinaryOp
  | 1 => [.mul, .div, .rem]
  | 2 => [.add, .sub]
  | 3 => [.lt, .le, .gt, .ge]
  | 4 => [.eq, .ne]
  | 5 => [.and]
  | 6 => [.or]
  | _ => []

/-- The symbol that a unary operator is written as. -/
def UnaryOp.symbol : UnaryOp → Symbol
  | .not => .not
  | .neg => .operator .sub
  | .plus => .operator .add

/-- The constructs of the grammar. -/
inductive Construct where
  | primary
  | operand
  /-- Operands joined by operators of the levels up to `j`. -/
  | level (j : Nat)
  | conditional

/-- The derivations of the grammar, with the tree and the depth of nesting: each
parenthesis, unary operand and branch of a conditional is one level deeper than
what it stands in. -/
inductive Derives : Construct → List Symbol → Expr → Nat → Prop where
  | number (value : Int64) : Derives .primary [.number value] (.literal value) 1
  | n : Derives .primary [.n] .n 1
  | parenthesis {ts : List Symbol} {e : Expr} {k : Nat} :
      Derives .conditional ts e k →
      Derives .primary (.openParen :: (ts ++ [.closeParen])) e (k + 1)
  | primary {ts : List Symbol} {e : Expr} {k : Nat} :
      Derives .primary ts e k → Derives .operand ts e k
  | unary (op : UnaryOp) {ts : List Symbol} {e : Expr} {k : Nat} :
      Derives .operand ts e k → Derives .operand (op.symbol :: ts) (.unary op e) (k + 1)
  | operand {ts : List Symbol} {e : Expr} {k : Nat} :
      Derives .operand ts e k → Derives (.level 0) ts e k
  | tighter {j : Nat} {ts : List Symbol} {e : Expr} {k : Nat} :
      Derives (.level j) ts e k → Derives (.level (j + 1)) ts e k
  | binary {j : Nat} {op : BinaryOp} (hop : op ∈ operatorsOf (j + 1))
      {ts us : List Symbol} {a b : Expr} {k l : Nat} :
      Derives (.level (j + 1)) ts a k → Derives (.level j) us b l →
      Derives (.level (j + 1)) (ts ++ .operator op :: us) (.binary op a b) (max k l)
  | plain {ts : List Symbol} {e : Expr} {k : Nat} :
      Derives (.level 6) ts e k → Derives .conditional ts e k
  | branching {cs ts es : List Symbol} {c t e : Expr} {k l m : Nat} :
      Derives (.level 6) cs c k → Derives .conditional ts t l → Derives .conditional es e m →
      Derives .conditional (cs ++ .question :: (ts ++ .colon :: es)) (.conditional c t e)
        (max k (max (l + 1) (m + 1)))

/-- Nothing nests less than one level deep. -/
theorem Derives.one_le {c : Construct} {ts : List Symbol} {e : Expr} {k : Nat}
    (h : Derives c ts e k) : 1 ≤ k := by
  induction h with
  | number | n => exact Nat.le_refl 1
  | parenthesis | unary => omega
  | primary _ ih | operand _ ih | tighter _ ih | plain _ ih => exact ih
  | binary _ _ _ ih => omega
  | branching _ _ _ ih => omega

/-- Nothing is derived without symbols. -/
theorem Derives.ne_nil {c : Construct} {ts : List Symbol} {e : Expr} {k : Nat}
    (h : Derives c ts e k) : ts ≠ [] := by
  induction h with
  | primary _ ih | operand _ ih | tighter _ ih | plain _ ih => exact ih
  | number | n | parenthesis | unary | binary | branching => simp

/-- Level `j + 1` holds the operators of precedence `6 - j`. -/
theorem mem_operatorsOf_iff {j : Nat} {op : BinaryOp} :
    op ∈ operatorsOf (j + 1) ↔ op.precedence = 6 - j := by
  match j with
  | 0 | 1 | 2 | 3 | 4 | 5 => cases op <;> decide
  | j + 6 =>
      have hpos : 0 < op.precedence := by cases op <;> decide
      have hzero : 6 - (j + 6) = 0 := by omega
      rw [hzero, operatorsOf]
      · simp only [List.not_mem_nil, false_iff]
        omega
      all_goals omega

/-! ## §2. Chains. -/

/-- Operators, each with an instance of level `j` after it. -/
inductive Tail (j : Nat) : List Symbol → List (BinaryOp × Expr) → Nat → Prop where
  | nil : Tail j [] [] 0
  | cons {op : BinaryOp} {ts us : List Symbol} {e : Expr} {more : List (BinaryOp × Expr)}
      {k l : Nat} :
      Derives (.level j) ts e k → Tail j us more l →
      Tail j (.operator op :: (ts ++ us)) ((op, e) :: more) (max k l)

/-- The symbols spell a chain of instances of level `j`. -/
def Spells (j : Nat) (ts : List Symbol) (chain : Chain) (k : Nat) : Prop :=
  ∃ first rest l m, ts = first ++ rest ∧ k = max l m
    ∧ Derives (.level j) first chain.1 l ∧ Tail j rest chain.2 m

/-- An instance of a level is a chain of its own. -/
theorem spells_single {j : Nat} {ts : List Symbol} {e : Expr} {k : Nat}
    (h : Derives (.level j) ts e k) : Spells j ts (e, []) k :=
  ⟨ts, [], k, 0, (List.append_nil ts).symm, (Nat.max_zero k).symm, h, .nil⟩

/-- A chain of one is an instance of its level. -/
theorem derives_of_spells {j : Nat} {ts : List Symbol} {e : Expr} {k : Nat}
    (h : Spells j ts (e, []) k) : Derives (.level j) ts e k := by
  obtain ⟨first, rest, l, m, rfl, rfl, hfirst, hrest⟩ := h
  cases hrest
  rw [List.append_nil, Nat.max_zero]
  exact hfirst

/-- Two tails one after the other. -/
theorem Tail.append {j : Nat} {ts us : List Symbol} {xs ys : List (BinaryOp × Expr)} {k l : Nat}
    (hx : Tail j ts xs k) (hy : Tail j us ys l) : Tail j (ts ++ us) (xs ++ ys) (max k l) := by
  induction hx with
  | nil => simpa using hy
  | cons he _ ih =>
      rw [List.cons_append, List.cons_append, List.append_assoc, Nat.max_assoc]
      exact .cons he ih

/-- Two chains joined by an operator. -/
theorem Spells.append {j : Nat} {op : BinaryOp} {ts us : List Symbol} {c d : Chain} {k l : Nat}
    (hc : Spells j ts c k) (hd : Spells j us d l) :
    Spells j (ts ++ .operator op :: us) (c.1, c.2 ++ (op, d.1) :: d.2) (max k l) := by
  obtain ⟨cf, cr, ck, cm, rfl, rfl, hcf, hcr⟩ := hc
  obtain ⟨df, dr, dk, dm, rfl, rfl, hdf, hdr⟩ := hd
  exact ⟨cf, cr ++ .operator op :: (df ++ dr), ck, max cm (max dk dm),
    List.append_assoc .., Nat.max_assoc .., hcf, hcr.append (.cons hdf hdr)⟩

/-! ## §3. Joining one level. -/

theorem foldLevel_nil (p : Nat) (e : Expr) : foldLevel p e [] = (e, []) := rfl

theorem foldLevel_cons_of_eq {p : Nat} {op : BinaryOp} (h : op.precedence = p) (e r : Expr)
    (rest : List (BinaryOp × Expr)) :
    foldLevel p e ((op, r) :: rest) = foldLevel p (.binary op e r) rest := by
  rw [foldLevel, if_pos h]

theorem foldLevel_cons_of_ne {p : Nat} {op : BinaryOp} (h : op.precedence ≠ p) (e r : Expr)
    (rest : List (BinaryOp × Expr)) :
    foldLevel p e ((op, r) :: rest)
      = (e, (op, (foldLevel p r rest).1) :: (foldLevel p r rest).2) := by
  rw [foldLevel, if_neg h]

/-- Joining the operators of a level turns a chain of the level below into one of
that level.  What has been joined so far is the first instance. -/
theorem spells_foldLevel {j : Nat} {us : List Symbol} {more : List (BinaryOp × Expr)} {m : Nat}
    (hmore : Tail j us more m) :
    ∀ {ts : List Symbol} {e : Expr} {l : Nat}, Derives (.level (j + 1)) ts e l →
      Spells (j + 1) (ts ++ us) (foldLevel (6 - j) e more) (max l m) := by
  induction hmore with
  | nil =>
      intro ts e l he
      rw [List.append_nil, Nat.max_zero]
      exact spells_single he
  | @cons op rs us r more k l hr _ ih =>
      intro ts e l' he
      have hsplit : ts ++ .operator op :: (rs ++ us) = (ts ++ .operator op :: rs) ++ us := by
        simp
      by_cases hop : op.precedence = 6 - j
      · -- an operator of the level makes the first instance longer
        rw [foldLevel_cons_of_eq hop, hsplit, ← Nat.max_assoc]
        exact ih (.binary (mem_operatorsOf_iff.2 hop) he hr)
      · -- any other one ends it, and a new instance begins behind the operator
        rw [foldLevel_cons_of_ne hop]
        obtain ⟨first, rest, a, b, hus, hab, hfirst, hrest⟩ := ih (.tighter hr)
        refine ⟨ts, .operator op :: (first ++ rest), l', max a b, ?_, ?_, he, .cons hfirst hrest⟩
        · rw [hus]
        · rw [hab]

/-- Joining a level leaves no operator of it. -/
theorem precedence_foldLevel (p : Nat) (e : Expr) (more : List (BinaryOp × Expr)) :
    ∀ pair ∈ (foldLevel p e more).2, pair.1.precedence ≠ p ∧ pair.1 ∈ more.map Prod.fst := by
  induction more generalizing e with
  | nil => simp [foldLevel]
  | cons first more ih =>
      obtain ⟨op, r⟩ := first
      intro pair hpair
      by_cases hop : op.precedence = p
      · rw [foldLevel_cons_of_eq hop] at hpair
        obtain ⟨hne, hmem⟩ := ih _ pair hpair
        exact ⟨hne, List.mem_cons_of_mem _ hmem⟩
      · rw [foldLevel_cons_of_ne hop] at hpair
        rcases List.mem_cons.1 hpair with rfl | hpair
        · exact ⟨hop, List.mem_cons_self⟩
        · obtain ⟨hne, hmem⟩ := ih _ pair hpair
          exact ⟨hne, List.mem_cons_of_mem _ hmem⟩

/-- An operator of another level splits the joining of a level in two. -/
theorem foldLevel_append {p : Nat} {op : BinaryOp} (hop : op.precedence ≠ p) (r : Expr)
    (ys : List (BinaryOp × Expr)) (e : Expr) (xs : List (BinaryOp × Expr)) :
    foldLevel p e (xs ++ (op, r) :: ys)
      = ((foldLevel p e xs).1,
         (foldLevel p e xs).2 ++ (op, (foldLevel p r ys).1) :: (foldLevel p r ys).2) := by
  induction xs generalizing e with
  | nil =>
      show foldLevel p e ((op, r) :: ys) = _
      rw [foldLevel_cons_of_ne hop]
      rfl
  | cons x xs ih =>
      obtain ⟨op', r'⟩ := x
      by_cases hop' : op'.precedence = p
      · rw [List.cons_append, foldLevel_cons_of_eq hop', foldLevel_cons_of_eq hop', ih]
      · rw [List.cons_append, foldLevel_cons_of_ne hop', foldLevel_cons_of_ne hop', ih]
        rfl

/-- A chain that a level joins completely, and one operator of the level more. -/
theorem foldLevel_snoc {p : Nat} {op : BinaryOp} (hop : op.precedence = p) (b : Expr)
    {e a : Expr} {xs : List (BinaryOp × Expr)} (h : foldLevel p e xs = (a, [])) :
    foldLevel p e (xs ++ [(op, b)]) = (.binary op a b, []) := by
  induction xs generalizing e with
  | nil =>
      have hea : e = a := congrArg Prod.fst h
      rw [List.nil_append, foldLevel_cons_of_eq hop, foldLevel_nil, hea]
  | cons x xs ih =>
      obtain ⟨op', r'⟩ := x
      by_cases hop' : op'.precedence = p
      · rw [foldLevel_cons_of_eq hop'] at h
        rw [List.cons_append, foldLevel_cons_of_eq hop']
        exact ih h
      · -- an operator of another level would be left over
        rw [foldLevel_cons_of_ne hop'] at h
        cases h

/-! ## §4. Joining all levels. -/

/-- A chain with the operators of the first `j` levels joined. -/
def Chain.joined (chain : Chain) : (j : Nat) → Chain
  | 0 => chain
  | j + 1 => foldLevel (6 - j) (chain.joined j).1 (chain.joined j).2

theorem Chain.fold_eq_joined (chain : Chain) : chain.fold = (chain.joined 6).1 := rfl

theorem spells_joined {ts : List Symbol} {chain : Chain} {k : Nat} (h : Spells 0 ts chain k)
    (j : Nat) : Spells j ts (chain.joined j) k := by
  induction j with
  | zero => exact h
  | succ j ih =>
      obtain ⟨first, rest, l, m, rfl, rfl, hfirst, hrest⟩ := ih
      exact spells_foldLevel hrest (.tighter hfirst)

/-- The operators that are left bind more loosely than all that were joined. -/
theorem precedence_joined (chain : Chain) (j : Nat) :
    ∀ pair ∈ (chain.joined j).2, pair.1.precedence ≤ 6 - j := by
  induction j with
  | zero =>
      intro pair _
      cases pair.1 <;> decide
  | succ j ih =>
      intro pair hpair
      obtain ⟨hne, hmem⟩ := precedence_foldLevel _ _ _ pair hpair
      obtain ⟨old, hold, heq⟩ := List.mem_map.1 hmem
      have hle := ih old hold
      rw [heq] at hle
      omega

/-- **The tree of a chain is derived from its symbols.** -/
theorem derives_fold {ts : List Symbol} {chain : Chain} {k : Nat} (h : Spells 0 ts chain k) :
    Derives (.level 6) ts chain.fold k := by
  -- after six levels an operator that is left would have no precedence at all
  have hrest : (chain.joined 6).2 = [] := by
    rw [List.eq_nil_iff_forall_not_mem]
    intro pair hpair
    have hpos : 0 < pair.1.precedence := by cases pair.1 <;> decide
    have hle := precedence_joined chain 6 pair hpair
    omega
  have hspells : Spells 6 ts ((chain.joined 6).1, (chain.joined 6).2) k := spells_joined h 6
  rw [hrest] at hspells
  exact derives_of_spells hspells

/-- Joining splits at an operator that is looser than the joined levels. -/
theorem joined_append {op : BinaryOp} (c d : Chain) (j : Nat) (hop : op.precedence ≤ 6 - j) :
    Chain.joined (c.1, c.2 ++ (op, d.1) :: d.2) j
      = ((c.joined j).1, (c.joined j).2 ++ (op, (d.joined j).1) :: (d.joined j).2) := by
  induction j with
  | zero => rfl
  | succ j ih =>
      -- `6 - j` stops at 0, which is no precedence
      have hpos : 0 < op.precedence := by cases op <;> decide
      rw [Chain.joined, ih (by omega), foldLevel_append (by omega)]
      rfl

/-- **What is derived at a level is the tree of its chain of operands.** -/
theorem chain_of_derives {j : Nat} {ts : List Symbol} {e : Expr} {k : Nat}
    (h : Derives (.level j) ts e k) :
    ∃ chain, Spells 0 ts chain k ∧ chain.joined j = (e, []) := by
  -- on the derivation, whose level goes down: the construct is generalized first
  generalize hc : Construct.level j = c at h
  induction h generalizing j with
  | operand he =>
      cases hc
      exact ⟨(_, []), spells_single (.operand he), rfl⟩
  | tighter _ ih =>
      cases hc
      obtain ⟨chain, hspells, hjoined⟩ := ih rfl
      exact ⟨chain, hspells, by rw [Chain.joined, hjoined, foldLevel_nil]⟩
  | binary hop _ _ iha ihb =>
      cases hc
      obtain ⟨c, hc, hcj⟩ := iha rfl
      obtain ⟨d, hd, hdj⟩ := ihb rfl
      have hprec := mem_operatorsOf_iff.1 hop
      -- below the level the joined chain splits at `op`; the level itself then adds `op` last
      refine ⟨_, hc.append hd, ?_⟩
      rw [Chain.joined] at hcj
      rw [Chain.joined, joined_append c d _ (Nat.le_of_eq hprec), hdj]
      exact foldLevel_snoc hprec _ hcj
  | number | n | parenthesis | primary | unary | plain | branching => cases hc

end MessageCatalog.Plural
