/-
  MessageCatalog.Plural.Expr
  ────────────────────────────────
  **PLURAL EXPRESSIONS AND THEIR VALUES.**

  The `Plural-Forms` header of a catalog chooses a plural form by a C
  expression over the one quantity `n`.  An expression is a tree, and its value
  is a signed 64-bit number: every operation is worked out over the integers
  and its result is then required to fit, so nothing ever wraps around.

  `&&` and `||` look at their second operand only when the first one leaves the
  answer open, and a conditional evaluates only the branch it takes.  The fault
  reported is the one of the first operation that fails.
-/

namespace MessageCatalog.Plural

/-! ## §1. Trees. -/

/-- The binary operators. -/
inductive BinaryOp where
  | or
  | and
  | eq
  | ne
  | lt
  | le
  | gt
  | ge
  | add
  | sub
  | mul
  | div
  | rem
  deriving DecidableEq, Repr

/-- How tightly an operator binds, from `||` (1) to `*`, `/`, `%` (6). -/
def BinaryOp.precedence : BinaryOp → Nat
  | .or => 1
  | .and => 2
  | .eq | .ne => 3
  | .lt | .le | .gt | .ge => 4
  | .add | .sub => 5
  | .mul | .div | .rem => 6

/-- The spelling of an operator. -/
def BinaryOp.spelling : BinaryOp → String
  | .or => "||"
  | .and => "&&"
  | .eq => "=="
  | .ne => "!="
  | .lt => "<"
  | .le => "<="
  | .gt => ">"
  | .ge => ">="
  | .add => "+"
  | .sub => "-"
  | .mul => "*"
  | .div => "/"
  | .rem => "%"

/-- The unary operators. -/
inductive UnaryOp where
  | not
  | neg
  | plus
  deriving DecidableEq, Repr

/-- The spelling of an operator. -/
def UnaryOp.spelling : UnaryOp → String
  | .not => "!"
  | .neg => "-"
  | .plus => "+"

/-- A plural expression. -/
inductive Expr where
  /-- The quantity. -/
  | n
  | literal (value : Int64)
  | unary (op : UnaryOp) (operand : Expr)
  | binary (op : BinaryOp) (lhs rhs : Expr)
  | conditional (cond thenBranch elseBranch : Expr)
  deriving DecidableEq, Repr

/-! ## §2. Faults. -/

/-- Why a plural formula cannot be read or has no index to offer. -/
inductive Fault where
  /-- A header without a `plural=` clause. -/
  | missingPlural (header : String)
  /-- An expression without any token. -/
  | emptyExpression
  /-- An expression longer than the limit. -/
  | inputTooLarge (maxBytes : Nat)
  /-- A character that starts no token. -/
  | unexpectedChar (found : Char) (position : Nat)
  /-- A token where another one is needed. -/
  | unexpectedToken (expected found : String) (position : Nat)
  /-- The end where a token is needed. -/
  | unexpectedEnd (expected : String)
  /-- A literal that does not fit 64 signed bits. -/
  | invalidNumber (raw : String) (position : Nat)
  /-- Too many levels of nesting. -/
  | nestingTooDeep (maxDepth : Nat)
  | divisionByZero
  | overflow
  /-- A value below zero, which is the number of no plural form. -/
  | negativeIndex (value : Int64)
  deriving DecidableEq, Repr

/-- What is reported about a fault. -/
def Fault.message : Fault → String
  | .missingPlural header => "missing 'plural=' clause in '" ++ header ++ "'"
  | .emptyExpression => "empty plural expression"
  | .inputTooLarge maxBytes => "plural expression exceeds " ++ toString maxBytes ++ " bytes"
  | .unexpectedChar found position =>
      "unexpected character '" ++ String.singleton found ++ "' at byte " ++ toString position
  | .unexpectedToken expected found position =>
      "expected " ++ expected ++ " at byte " ++ toString position ++ ", found '" ++ found ++ "'"
  | .unexpectedEnd expected => "unexpected end of expression, expected " ++ expected
  | .invalidNumber raw position =>
      "invalid number '" ++ raw ++ "' at byte " ++ toString position
  | .nestingTooDeep maxDepth =>
      "plural expression nests deeper than " ++ toString maxDepth ++ " levels"
  | .divisionByZero => "division by zero"
  | .overflow => "arithmetic overflow"
  | .negativeIndex value => "negative plural index " ++ toString value.toInt

/-! ## §3. Values. -/

/-- The numbers of 64 signed bits, as integers. -/
def Representable (v : Int) : Prop :=
  -0x8000000000000000 ≤ v ∧ v < 0x8000000000000000

instance (v : Int) : Decidable (Representable v) :=
  inferInstanceAs (Decidable (_ ∧ _))

/-- An exact result as a 64-bit value, provided it fits. -/
def ofExact (v : Int) : Except Fault Int64 :=
  if Representable v then .ok (Int64.ofInt v) else .error .overflow

/-- 1 for true, 0 for false. -/
def ofTruth (b : Bool) : Int64 :=
  if b then 1 else 0

/-- The value of a unary operation. -/
def UnaryOp.apply : UnaryOp → Int64 → Except Fault Int64
  | .not, a => .ok (ofTruth (a == 0))
  | .neg, a => ofExact (-a.toInt)
  | .plus, a => .ok a

/-- The value of a binary operation on two values that are both known.  A
remainder is refused along with the quotient that does not fit. -/
def BinaryOp.apply (op : BinaryOp) (a b : Int64) : Except Fault Int64 :=
  match op with
  | .or => .ok (ofTruth (a != 0 || b != 0))
  | .and => .ok (ofTruth (a != 0 && b != 0))
  | .eq => .ok (ofTruth (a == b))
  | .ne => .ok (ofTruth (a != b))
  | .lt => .ok (ofTruth (decide (a < b)))
  | .le => .ok (ofTruth (decide (a ≤ b)))
  | .gt => .ok (ofTruth (decide (b < a)))
  | .ge => .ok (ofTruth (decide (b ≤ a)))
  | .add => ofExact (a.toInt + b.toInt)
  | .sub => ofExact (a.toInt - b.toInt)
  | .mul => ofExact (a.toInt * b.toInt)
  | .div => if b = 0 then .error .divisionByZero else ofExact (a.toInt.tdiv b.toInt)
  | .rem =>
      if b = 0 then .error .divisionByZero
      else do
        let _ ← ofExact (a.toInt.tdiv b.toInt)
        ofExact (a.toInt.tmod b.toInt)

/-- The value of an expression for the quantity `n`. -/
def Expr.eval (n : Int64) : Expr → Except Fault Int64
  | .n => .ok n
  | .literal value => .ok value
  | .unary op a => do op.apply (← a.eval n)
  | .binary .and a b => do
      if (← a.eval n) = 0 then .ok 0
      else .ok (ofTruth ((← b.eval n) != 0))
  | .binary .or a b => do
      if (← a.eval n) ≠ 0 then .ok 1
      else .ok (ofTruth ((← b.eval n) != 0))
  | .binary op a b => do
      let l ← a.eval n
      let r ← b.eval n
      op.apply l r
  | .conditional c t e => do
      if (← c.eval n) ≠ 0 then t.eval n else e.eval n

/-! ## §4. Trees as text. -/

/-- The tree with its operators in front, every operation in parentheses. -/
def Expr.toPrefixForm : Expr → String
  | .n => "n"
  | .literal value => toString value.toInt
  | .unary op a => "(" ++ op.spelling ++ " " ++ a.toPrefixForm ++ ")"
  | .binary op a b =>
      "(" ++ op.spelling ++ " " ++ a.toPrefixForm ++ " " ++ b.toPrefixForm ++ ")"
  | .conditional c t e =>
      "(? " ++ c.toPrefixForm ++ " " ++ t.toPrefixForm ++ " " ++ e.toPrefixForm ++ ")"

end MessageCatalog.Plural
