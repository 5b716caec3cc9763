/-
  MessageCatalog.Proofs.Plural.Exact
  ────────────────────────────────
  **64-BIT VALUES AGAINST EXACT INTEGERS.**

  A plural expression has a value over the unbounded integers, where nothing
  overflows: `Expr.exact`.  On the way to it some subexpressions are evaluated
  and others are not; `Expr.evaluated` lists those that are, each one after its
  operands, from left to right.

      evaluated subexpressions all succeed  →  eval gives the exact value
      one of them does not                  →  eval gives the fault of the first

  A subexpression succeeds when its exact value fits 64 signed bits, its divisor
  is not zero, and it is not the remainder of the least number by -1.
-/
import MessageCatalog.Plural.Expr

namespace MessageCatalog.Plural

/-! ## §1. Exact values. -/

/-- The exact value of a unary operation. -/
def UnaryOp.exact : UnaryOp → Int → Int
  | .not, x => (decide (x = 0)).toInt
  | .neg, x => -x
  | .plus, x => x

/-- The exact value of a binary operation; quotients are rounded towards zero.
Where the divisor is zero the number given here stands for nothing. -/
def BinaryOp.exact : BinaryOp → Int → Int → Int
  | .or, x, y => (decide (x ≠ 0 ∨ y ≠ 0)).toInt
  | .and, x, y => (decide (x ≠ 0 ∧ y ≠ 0)).toInt
  | .eq, x, y => (decide (x = y)).toInt
  | .ne, x, y => (decide (x ≠ y)).toInt
  | .lt, x, y => (decide (x < y)).toInt
  | .le, x, y => (decide (x ≤ y)).toInt
  | .gt, x, y => (decide (x > y)).toInt
  | .ge, x, y => (decide (x ≥ y)).toInt
  | .add, x, y => x + y
  | .sub, x, y => x - y
  | .mul, x, y => x * y
  | .div, x, y => x.tdiv y
  | .rem, x, y => x.tmod y

/-- The value of an expression over the unbounded integers. -/
def Expr.exact (n : Int) : Expr → Int
  | .n => n
  | .literal value => value.toInt
  | .unary op a => op.exact (a.exact n)
  | .binary op a b => op.exact (a.exact n) (b.exact n)
  | .conditional c t e => if c.exact n ≠ 0 then t.exact n else e.exact n

/-! ## §2. What is evaluated. -/

/-- Whether the first operand of `&&` or `||` leaves nothing to ask. -/
def BinaryOp.decidedBy (op : BinaryOp) (x : Int) : Bool :=
  (op == .and && x == 0) || (op == .or && x != 0)

/-- The subexpressions that are evaluated, in the order in which their values
become known. -/
def Expr.evaluated (n : Int) : Expr → List Expr
  | .n => [.n]
  | .literal value => [.literal value]
  | .unary op a => a.evaluated n ++ [.unary op a]
  | .binary op a b =>
      a.evaluated n ++ (if op.decidedBy (a.exact n) then [] else b.evaluated n)
        ++ [.binary op a b]
  | .conditional c t e =>
      c.evaluated n ++ (if c.exact n ≠ 0 then t.evaluated n else e.evaluated n)
        ++ [.conditional c t e]

/-- The outermost operation divides by zero. -/
def Expr.DividesByZero (n : Int) : Expr → Prop
  | .binary op _ b => (op = .div ∨ op = .rem) ∧ b.exact n = 0
  | _ => False

/-- The outermost operation is the remainder of the least number by -1. -/
def Expr.RemainderOverflows (n : Int) : Expr → Prop
  | .binary op a b => op = .rem ∧ a.exact n = -0x8000000000000000 ∧ b.exact n = -1
  | _ => False

instance (n : Int) : (s : Expr) → Decidable (s.DividesByZero n)
  | .binary .. => inferInstanceAs (Decidable (_ ∧ _))
  | .n | .literal .. | .unary .. | .conditional .. => instDecidableFalse

instance (n : Int) : (s : Expr) → Decidable (s.RemainderOverflows n)
  | .binary .. => inferInstanceAs (Decidable (_ ∧ _))
  | .n | .literal .. | .unary .. | .conditional .. => instDecidableFalse

/-- The outermost operation has a 64-bit result. -/
def Expr.Succeeds (n : Int) (s : Expr) : Prop :=
  Representable (s.exact n) ∧ ¬s.DividesByZero n ∧ ¬s.RemainderOverflows n

instance (n : Int) (s : Expr) : Decidable (s.Succeeds n) :=
  inferInstanceAs (Decidable (_ ∧ _))

/-- The fault of an operation without a result. -/
def Expr.faultOf (n : Int) (s : Expr) : Fault :=
  if s.DividesByZero n then .divisionByZero else .overflow

/-- The fault of an operation, if it has one. -/
def Expr.fault? (n : Int) (s : Expr) : Option Fault :=
  if s.Succeeds n then none else some (s.faultOf n)

theorem Expr.fault?_eq_none_iff {n : Int} {s : Expr} : s.fault? n = none ↔ s.Succeeds n := by
  unfold Expr.fault?
  split <;> simp [*]

theorem Expr.fault?_eq_some_iff {n : Int} {s : Expr} {fault : Fault} :
    s.fault? n = some fault ↔ ¬s.Succeeds n ∧ fault = s.faultOf n := by
  unfold Expr.fault?
  split <;> simp [*, eq_comm]

/-- An expression is itself among what is evaluated of it. -/
theorem Expr.mem_evaluated_self (n : Int) (e : Expr) : e ∈ e.evaluated n := by
  cases e <;> simp [Expr.evaluated]

/-- The outcome that a first fault, or an exact value without one, amounts to. -/
def outcome : Option Fault → Int → Except Fault Int64
  | some fault, _ => .error fault
  | none, v => .ok (Int64.ofInt v)

/-! ## §3. Single operations. -/

theorem representable_toInt (a : Int64) : Representable a.toInt :=
  ⟨a.le_toInt, a.toInt_lt⟩

theorem Representable.toInt_ofInt {v : Int} (h : Representable v) : (Int64.ofInt v).toInt = v :=
  Int64.toInt_ofInt_of_le h.1 h.2

/-- Comparing a 64-bit value with zero is comparing its integer with zero. -/
theorem toInt_eq_zero_iff {a : Int64} : a.toInt = 0 ↔ a = 0 := by
  rw [← Int64.toInt_inj]
  rfl

/-- Only the least number by -1 has a quotient that does not fit. -/
theorem representable_tdiv_iff {x y : Int} (hx : Representable x) (hy0 : y ≠ 0) :
    Representable (x.tdiv y) ↔ ¬(x = -0x8000000000000000 ∧ y = -1) := by
  unfold Representable at hx ⊢
  -- by 1 and by -1 the quotient is x or -x; by anything else it is at most half of x
  rcases (show y = 1 ∨ y = -1 ∨ 2 ≤ y.natAbs by omega) with rfl | rfl | hy
  · rw [Int.tdiv_one]
    omega
  · rw [Int.tdiv_neg, Int.tdiv_one]
    omega
  · have habs : (x.tdiv y).natAbs ≤ x.natAbs / 2 := by
      rw [Int.natAbs_tdiv]
      exact Nat.div_le_div_left hy (by omega)
    omega

/-- A truth value fits. -/
theorem ofExact_truth (b : Bool) : ofExact b.toInt = .ok (ofTruth b) := by
  cases b <;> rfl

theorem ofExact_toInt (a : Int64) : ofExact a.toInt = .ok a := by
  rw [ofExact, if_pos (representable_toInt a), Int64.ofInt_toInt]

/-- The result of a unary operation. -/
theorem UnaryOp.apply_eq (op : UnaryOp) (a : Int64) : op.apply a = ofExact (op.exact a.toInt) := by
  cases op with
  | not =>
      have hzero : (a == 0) = decide (a.toInt = 0) := by
        rw [Bool.eq_iff_iff, beq_iff_eq, decide_eq_true_eq, toInt_eq_zero_iff]
      rw [UnaryOp.apply, UnaryOp.exact, ofExact_truth, hzero]
  | neg => rfl
  | plus => exact (ofExact_toInt a).symm

/-- The result of a binary operation that is no division. -/
theorem BinaryOp.apply_eq {op : BinaryOp} (hdiv : op ≠ .div) (hrem : op ≠ .rem) (a b : Int64) :
    op.apply a b = ofExact (op.exact a.toInt b.toInt) := by
  cases op with
  | div => exact absurd rfl hdiv
  | rem => exact absurd rfl hrem
  | add | sub | mul => rfl
  | or | and | eq | ne | lt | le | gt | ge =>
      -- truth values always fit, so only the conditions are to be compared
      simp only [BinaryOp.apply, BinaryOp.exact, ofExact_truth, Except.ok.injEq]
      congr 1
      rw [Bool.eq_iff_iff]
      simp [toInt_eq_zero_iff, Int64.toInt_inj, Int64.lt_iff_toInt_lt, Int64.le_iff_toInt_le]

/-- The quotient of two 64-bit values. -/
theorem BinaryOp.div_apply_eq {a b : Int64} (hb : b.toInt ≠ 0) :
    BinaryOp.div.apply a b = ofExact (a.toInt.tdiv b.toInt) := by
  have hb' : b ≠ 0 := fun h => hb (toInt_eq_zero_iff.2 h)
  rw [BinaryOp.apply, if_neg hb']

/-- The remainder of two 64-bit values. -/
theorem BinaryOp.rem_apply_eq {a b : Int64} (hb : b.toInt ≠ 0) :
    BinaryOp.rem.apply a b
      = if a.toInt = -0x8000000000000000 ∧ b.toInt = -1 then .error .overflow
        else ofExact (a.toInt.tmod b.toInt) := by
  have hb' : b ≠ 0 := fun h => hb (toInt_eq_zero_iff.2 h)
  have hquot := representable_tdiv_iff (representable_toInt a) hb
  rw [BinaryOp.apply, if_neg hb']
  by_cases hleast : a.toInt = -0x8000000000000000 ∧ b.toInt = -1
  · rw [ofExact, if_neg fun h => hquot.1 h hleast, if_pos hleast]
    rfl
  · rw [ofExact, if_pos (hquot.2 hleast), if_neg hleast]
    rfl

/-! ## §4. Whole expressions. -/

/-- Where no division goes wrong, an operation fails only by not fitting. -/
theorem Expr.outcome_eq_ofExact {n : Int} {s : Expr} (hzero : ¬s.DividesByZero n)
    (hrem : ¬s.RemainderOverflows n) :
    outcome (s.fault? n) (s.exact n) = ofExact (s.exact n) := by
  unfold Expr.fault? Expr.faultOf ofExact
  by_cases hfit : Representable (s.exact n)
  · rw [if_pos ⟨hfit, hzero, hrem⟩, if_pos hfit]
    rfl
  · rw [if_neg fun h => hfit h.1, if_neg hzero, if_neg hfit]
    rfl

/-- An operation that divides by zero reports it. -/
theorem Expr.outcome_of_dividesByZero {n : Int} {s : Expr} (h : s.DividesByZero n) :
    outcome (s.fault? n) (s.exact n) = .error .divisionByZero := by
  rw [Expr.fault?, if_neg fun hs => hs.2.1 h, Expr.faultOf, if_pos h]
  rfl

/-- The remainder of the least number by -1 is refused. -/
theorem Expr.outcome_of_remainderOverflows {n : Int} {s : Expr} (hzero : ¬s.DividesByZero n)
    (h : s.RemainderOverflows n) : outcome (s.fault? n) (s.exact n) = .error .overflow := by
  rw [Expr.fault?, if_neg fun hs => hs.2.2 h, Expr.faultOf, if_neg hzero]
  rfl

/-- The result of a unary operation whose operand has its exact value. -/
theorem Expr.unary_apply_eq_outcome {n : Int} {op : UnaryOp} {a : Expr} {v : Int64}
    (hv : v.toInt = a.exact n) :
    op.apply v = outcome ((Expr.unary op a).fault? n) ((Expr.unary op a).exact n) := by
  rw [Expr.outcome_eq_ofExact id id, UnaryOp.apply_eq, hv]
  rfl

/-- The result of a binary operation whose operands have their exact values. -/
theorem Expr.binary_apply_eq_outcome {n : Int} {op : BinaryOp} {a b : Expr} {l r : Int64}
    (hl : l.toInt = a.exact n) (hr : r.toInt = b.exact n) :
    op.apply l r = outcome ((Expr.binary op a b).fault? n) ((Expr.binary op a b).exact n) := by
  -- the cases in the order in which the evaluator asks for them
  by_cases hz : (Expr.binary op a b).DividesByZero n
  · rw [Expr.outcome_of_dividesByZero hz]
    obtain ⟨rfl | rfl, hb⟩ := hz
    all_goals
      have hr0 : r = 0 := toInt_eq_zero_iff.1 (hr.trans hb)
      rw [BinaryOp.apply, if_pos hr0]
  · by_cases ho : (Expr.binary op a b).RemainderOverflows n
    · rw [Expr.outcome_of_remainderOverflows hz ho]
      obtain ⟨rfl, ha, hb⟩ := ho
      rw [BinaryOp.rem_apply_eq (by omega), if_pos ⟨hl.trans ha, hr.trans hb⟩]
    · rw [Expr.outcome_eq_ofExact hz ho]
      show op.apply l r = ofExact (op.exact (a.exact n) (b.exact n))
      rw [← hl, ← hr]
      have hr0 : op = .div ∨ op = .rem → r.toInt ≠ 0 := fun h h0 => hz ⟨h, hr.symm.trans h0⟩
      by_cases hdiv : op = .div
      · subst hdiv
        exact BinaryOp.div_apply_eq (hr0 (.inl rfl))
      · by_cases hrem : op = .rem
        · subst hrem
          have hleast : ¬(l.toInt = -0x8000000000000000 ∧ r.toInt = -1) := fun h =>
            ho ⟨rfl, hl.symm.trans h.1, hr.symm.trans h.2⟩
          rw [BinaryOp.rem_apply_eq (hr0 (.inr rfl)), if_neg hleast]
          rfl
        · exact BinaryOp.apply_eq hdiv hrem l r

/-- Only `&&` and `||` are settled by their first operand. -/
theorem BinaryOp.eq_of_decidedBy {op : BinaryOp} {x : Int} (h : op.decidedBy x = true) :
    (op = .and ∧ x = 0) ∨ (op = .or ∧ x ≠ 0) := by
  simpa [BinaryOp.decidedBy] using h

/-- The result of an operation that its first operand settles. -/
theorem Expr.settled_apply_eq_outcome {n : Int} {op : BinaryOp} {a b : Expr} {l : Int64}
    (hl : l.toInt = a.exact n) (hop : op.decidedBy (a.exact n) = true) :
    op.apply l 0 = outcome ((Expr.binary op a b).fault? n) ((Expr.binary op a b).exact n) := by
  -- the second operand plays no part, so 0 may stand for it
  have hvalue : op.exact (a.exact n) 0 = op.exact (a.exact n) (b.exact n) := by
    rcases BinaryOp.eq_of_decidedBy hop with ⟨rfl, hx⟩ | ⟨rfl, hx⟩ <;> simp [BinaryOp.exact, hx]
  have hdiv : op ≠ .div ∧ op ≠ .rem := by
    rcases BinaryOp.eq_of_decidedBy hop with ⟨rfl, -⟩ | ⟨rfl, -⟩ <;> decide
  have hzero : ¬(Expr.binary op a b).DividesByZero n := fun ⟨h, _⟩ => h.elim hdiv.1 hdiv.2
  have hrem : ¬(Expr.binary op a b).RemainderOverflows n := fun ⟨h, _⟩ => hdiv.2 h
  rw [Expr.outcome_eq_ofExact hzero hrem, BinaryOp.apply_eq hdiv.1 hdiv.2, hl]
  exact congrArg ofExact hvalue

/-- A binary operation reports the fault of its first operand. -/
theorem Expr.eval_binary_of_error {n : Int64} {op : BinaryOp} {a b : Expr} {fault : Fault}
    (ha : a.eval n = .error fault) : (Expr.binary op a b).eval n = .error fault := by
  cases op <;> simp only [Expr.eval, ha] <;> rfl

/-- Evaluating a binary operation asks for the second operand unless the first one
settles it. -/
theorem Expr.eval_binary_of_ok {n l : Int64} {op : BinaryOp} {a b : Expr}
    (ha : a.eval n = .ok l) :
    (Expr.binary op a b).eval n
      = if op.decidedBy l.toInt then op.apply l 0 else (b.eval n).bind (op.apply l) := by
  have hl : l.toInt ≠ 0 ↔ l ≠ 0 := not_congr toInt_eq_zero_iff
  cases op with
  | and =>
      rw [Expr.eval, ha]
      show (if l = 0 then .ok 0 else (b.eval n).bind fun r => .ok (ofTruth (r != 0))) = _
      by_cases h0 : l = 0
      · subst h0
        rfl
      · have happly : BinaryOp.and.apply l = fun r => .ok (ofTruth (r != 0)) := by
          funext r
          rw [BinaryOp.apply, bne_iff_ne.2 h0, Bool.true_and]
        rw [if_neg h0, if_neg (by simp [BinaryOp.decidedBy, hl.2 h0]), happly]
  | or =>
      rw [Expr.eval, ha]
      show (if l ≠ 0 then .ok 1 else (b.eval n).bind fun r => .ok (ofTruth (r != 0))) = _
      by_cases h0 : l = 0
      · subst h0
        rfl
      · rw [if_pos h0, if_pos (by simp [BinaryOp.decidedBy, hl.2 h0])]
        rw [BinaryOp.apply, bne_iff_ne.2 h0, Bool.true_or]
        rfl
  | eq | ne | lt | le | gt | ge | add | sub | mul | div | rem =>
      rw [Expr.eval, ha]
      · rfl
      -- the general equation of `eval` is for operators other than `&&` and `||`
      all_goals exact fun h => nomatch h

/-- An exact value whose evaluation meets no fault is the integer of its 64-bit value. -/
theorem Expr.toInt_ofInt_exact {n : Int} {e : Expr}
    (h : (e.evaluated n).findSome? (Expr.fault? n) = none) :
    (Int64.ofInt (e.exact n)).toInt = e.exact n := by
  have hself := List.findSome?_eq_none_iff.1 h e (e.mem_evaluated_self n)
  exact (Expr.fault?_eq_none_iff.1 hself).1.toInt_ofInt

/-- A conditional has the outcome of the branch that it takes. -/
theorem Expr.outcome_branch {n : Int} {c t e branch : Expr}
    (hvalue : (Expr.conditional c t e).exact n = branch.exact n) :
    outcome (((branch.evaluated n).findSome? (Expr.fault? n)).or
        ((Expr.conditional c t e).fault? n)) ((Expr.conditional c t e).exact n)
      = outcome ((branch.evaluated n).findSome? (Expr.fault? n)) (branch.exact n) := by
  cases hb : (branch.evaluated n).findSome? (Expr.fault? n) with
  | some fault => rfl
  | none =>
      have hself := List.findSome?_eq_none_iff.1 hb branch (branch.mem_evaluated_self n)
      have hfit : Representable ((Expr.conditional c t e).exact n) :=
        hvalue ▸ (Expr.fault?_eq_none_iff.1 hself).1
      rw [Expr.fault?_eq_none_iff.2 ⟨hfit, id, id⟩, hvalue]
      rfl

/-- **The value or the fault of an expression**, read off the subexpressions that
are evaluated. -/
theorem Expr.eval_eq_outcome (n : Int64) (e : Expr) :
    e.eval n
      = outcome ((e.evaluated n.toInt).findSome? (Expr.fault? n.toInt)) (e.exact n.toInt) := by
  -- on the tree: a list of evaluated subexpressions is the lists of the operands and then
  -- the whole, so its first fault is an operand's fault or, without one, the whole's own
  induction e with
  | n =>
      have hs : Expr.n.fault? n.toInt = none :=
        Expr.fault?_eq_none_iff.2 ⟨representable_toInt n, id, id⟩
      show Except.ok n = outcome ([Expr.n].findSome? _) n.toInt
      rw [List.findSome?_singleton, hs, outcome, Int64.ofInt_toInt]
  | literal value =>
      have hs : (Expr.literal value).fault? n.toInt = none :=
        Expr.fault?_eq_none_iff.2 ⟨representable_toInt value, id, id⟩
      show Except.ok value = outcome ([Expr.literal value].findSome? _) value.toInt
      rw [List.findSome?_singleton, hs, outcome, Int64.ofInt_toInt]
  | unary op a iha =>
      rw [Expr.evaluated, List.findSome?_append, List.findSome?_singleton, Expr.eval, iha]
      cases ha : (a.evaluated n.toInt).findSome? (Expr.fault? n.toInt) with
      | some fault => rfl
      | none => exact Expr.unary_apply_eq_outcome (Expr.toInt_ofInt_exact ha)
  | binary op a b iha ihb =>
      rw [Expr.evaluated, List.findSome?_append, List.findSome?_append, List.findSome?_singleton]
      cases ha : (a.evaluated n.toInt).findSome? (Expr.fault? n.toInt) with
      | some fault =>
          rw [ha] at iha
          exact Expr.eval_binary_of_error iha
      | none =>
          rw [ha] at iha
          have hl := Expr.toInt_ofInt_exact ha
          -- the first operand is exact, so both sides decide alike about the second one
          rw [Expr.eval_binary_of_ok iha, hl]
          by_cases hop : op.decidedBy (a.exact n.toInt) = true
          · rw [if_pos hop, if_pos hop]
            exact Expr.settled_apply_eq_outcome hl hop
          · rw [if_neg hop, if_neg hop, ihb]
            cases hb : (b.evaluated n.toInt).findSome? (Expr.fault? n.toInt) with
            | some fault => rfl
            | none => exact Expr.binary_apply_eq_outcome hl (Expr.toInt_ofInt_exact hb)
  | conditional c t e ihc iht ihe =>
      rw [Expr.evaluated, List.findSome?_append, List.findSome?_append, List.findSome?_singleton,
        Expr.eval, ihc]
      cases hc : (c.evaluated n.toInt).findSome? (Expr.fault? n.toInt) with
      | some fault => rfl
      | none =>
          -- the condition is exact, so both sides take the same branch
          have hcond : Int64.ofInt (c.exact n.toInt) ≠ 0 ↔ c.exact n.toInt ≠ 0 := by
            rw [Ne, ← toInt_eq_zero_iff, Expr.toInt_ofInt_exact hc]
          show (if Int64.ofInt (c.exact n.toInt) ≠ 0 then t.eval n else e.eval n) = _
          by_cases h0 : c.exact n.toInt ≠ 0
          · rw [if_pos (hcond.2 h0), if_pos h0, iht]
            exact (Expr.outcome_branch (if_pos h0)).symm
          · rw [if_neg (mt hcond.1 h0), if_neg h0, ihe]
            exact (Expr.outcome_branch (if_neg h0)).symm

/-! ## §5. Agreement. -/

/-- There is a value exactly when no subexpression has a fault. -/
theorem Expr.eval_eq_ok_iff {e : Expr} {n v : Int64} :
    e.eval n = .ok v ↔
      e.exact n.toInt = v.toInt ∧ ∀ s ∈ e.evaluated n.toInt, s.Succeeds n.toInt := by
  have hall : (e.evaluated n.toInt).findSome? (Expr.fault? n.toInt) = none ↔
      ∀ s ∈ e.evaluated n.toInt, s.Succeeds n.toInt := by
    simp only [List.findSome?_eq_none_iff, Expr.fault?_eq_none_iff]
  rw [Expr.eval_eq_outcome, ← hall]
  cases hf : (e.evaluated n.toInt).findSome? (Expr.fault? n.toInt) with
  | some fault => simp [outcome]
  | none =>
      rw [outcome, Except.ok.injEq, ← Int64.toInt_inj, Expr.toInt_ofInt_exact hf]
      simp

/-- The fault is that of the first subexpression that has one. -/
theorem Expr.eval_eq_error_iff {e : Expr} {n : Int64} {fault : Fault} :
    e.eval n = .error fault ↔
      ∃ before s after, e.evaluated n.toInt = before ++ s :: after
        ∧ (∀ t ∈ before, t.Succeeds n.toInt) ∧ ¬s.Succeeds n.toInt
        ∧ fault = s.faultOf n.toInt := by
  have hfirst : e.eval n = .error fault ↔
      (e.evaluated n.toInt).findSome? (Expr.fault? n.toInt) = some fault := by
    rw [Expr.eval_eq_outcome]
    cases (e.evaluated n.toInt).findSome? (Expr.fault? n.toInt) <;> simp [outcome]
  rw [hfirst, List.findSome?_eq_some_iff]
  constructor
  · intro h
    obtain ⟨before, s, after, hsplit, hs, hbefore⟩ := h
    obtain ⟨hfail, hfault⟩ := Expr.fault?_eq_some_iff.1 hs
    exact ⟨before, s, after, hsplit,
      fun t ht => Expr.fault?_eq_none_iff.1 (hbefore t ht), hfail, hfault⟩
  · intro h
    obtain ⟨before, s, after, hsplit, hbefore, hfail, hfault⟩ := h
    exact ⟨before, s, after, hsplit, Expr.fault?_eq_some_iff.2 ⟨hfail, hfault⟩,
      fun t ht => Expr.fault?_eq_none_iff.2 (hbefore t ht)⟩

/-- **Evaluation agrees with exact integer arithmetic.**  An expression has a
64-bit value exactly when all that is evaluated on the way succeeds, and it is
then the exact one; otherwise the fault is that of the first subexpression that
does not succeed. -/
theorem eval_agrees_with_exact (e : Expr) (n : Int64) :
    (∀ v, e.eval n = .ok v ↔
      e.exact n.toInt = v.toInt ∧ ∀ s ∈ e.evaluated n.toInt,
        Representable (s.exact n.toInt) ∧ ¬s.DividesByZero n.toInt
          ∧ ¬s.RemainderOverflows n.toInt)
    ∧ ∀ fault, e.eval n = .error fault ↔
      ∃ before s after, e.evaluated n.toInt = before ++ s :: after
        ∧ (∀ t ∈ before, t.Succeeds n.toInt) ∧ ¬s.Succeeds n.toInt
        ∧ fault = if s.DividesByZero n.toInt then .divisionByZero else .overflow :=
  ⟨fun _ => Expr.eval_eq_ok_iff, fun _ => Expr.eval_eq_error_iff⟩

end MessageCatalog.Plural
