/-
  MessageCatalog.Plural.Parser
  ────────────────────────────────
  **FROM TOKENS TO TREES.**

  The grammar is that of C, from the loosest construct to the tightest:

      conditional  ::=  binary  |  binary ? conditional : conditional
      binary       ::=  operand { op operand }
      operand      ::=  ! operand  |  - operand  |  + operand  |  primary
      primary      ::=  number  |  n  |  ( conditional )

  Parentheses, unary operators and the branches of a conditional each open a
  new level of nesting, and there is a limit on the levels.  A level's parsers
  are therefore made from those of the next inner level (`within`), and the
  parsers of a whole expression are this construction repeated as often as
  nesting is allowed; beyond the last level every parser reports the nesting.

  A chain of operands and operators is read from left to right and folded
  afterwards, the tightest operators first (`Chain.fold`), each fold joining
  from the left.
-/
import MessageCatalog.Plural.Token

namespace MessageCatalog.Plural

/-! ## §1. Limits. -/

/-- The longest expression that is read, in bytes. -/
def maxExpressionBytes : Nat := 4096

/-- The deepest nesting of parentheses, unary operators and conditionals. -/
def maxNesting : Nat := 64

/-! ## §2. Chains of operands. -/

/-- A first operand and the operators and operands after it. -/
abbrev Chain := Expr × List (BinaryOp × Expr)

/-- Joins, from the left, all neighbours whose operator has precedence `p`. -/
def foldLevel (p : Nat) : Expr → List (BinaryOp × Expr) → Chain
  | e, [] => (e, [])
  | e, (op, r) :: rest =>
      if op.precedence = p then foldLevel p (.binary op e r) rest
      else
        let (r', rest') := foldLevel p r rest
        (e, (op, r') :: rest')

/-- The tree of a chain: all levels joined, the tightest first. -/
def Chain.fold (chain : Chain) : Expr :=
  let level (c : Chain) (p : Nat) : Chain := foldLevel p c.1 c.2
  ([6, 5, 4, 3, 2, 1].foldl level chain).1

/-! ## §3. One level of nesting. -/

/-- The outcome of reading a part of the tokens: the tree and the tokens left. -/
abbrev Reading := Except Fault (Expr × List Token)

/-- The parsers that may be entered at one level of nesting. -/
structure Level where
  operand : List Token → Reading
  conditional : List Token → Reading

/-- Beyond the last level nothing is read. -/
def Level.tooDeep : Level where
  operand _ := .error (.nestingTooDeep maxNesting)
  conditional _ := .error (.nestingTooDeep maxNesting)

/-- Takes the symbol `wanted`, which `expected` describes, off the tokens. -/
def expect (wanted : Symbol) (expected : String) : List Token → Except Fault (List Token)
  | [] => .error (.unexpectedEnd expected)
  | token :: rest =>
      if token.symbol = wanted then .ok rest
      else .error (.unexpectedToken expected token.symbol.spelling token.position)

/-- What can start an operand, as reports put it. -/
def operandStart : String := "a number, 'n' or '('"

/-- A literal, the quantity, or a conditional in parentheses. -/
def Level.primary (inner : Level) : List Token → Reading
  | [] => .error (.unexpectedEnd operandStart)
  | token :: rest =>
      match token.symbol with
      | .number value => .ok (.literal value, rest)
      | .n => .ok (.n, rest)
      | .openParen => do
          let (e, rest) ← inner.conditional rest
          let rest ← expect .closeParen "')'" rest
          .ok (e, rest)
      | other => .error (.unexpectedToken operandStart other.spelling token.position)

/-- The unary operator that a symbol is in front of an operand. -/
def Symbol.unary? : Symbol → Option UnaryOp
  | .not => some .not
  | .operator .sub => some .neg
  | .operator .add => some .plus
  | _ => none

/-- An operand, which may open with a unary operator. -/
def Level.unary (inner : Level) : List Token → Reading
  | [] => inner.primary []
  | token :: rest =>
      match token.symbol.unary? with
      | some op => do
          let (e, rest) ← inner.operand rest
          .ok (.unary op e, rest)
      | none => inner.primary (token :: rest)

/-- The operators and operands that follow a first operand.  Every round takes
two tokens at least, so `rounds` may be the number of tokens. -/
def Level.chainTail (inner : Level) :
    (rounds : Nat) → List Token → Except Fault (List (BinaryOp × Expr) × List Token)
  | rounds + 1, ⟨.operator op, _⟩ :: rest => do
      let (e, rest) ← inner.unary rest
      let (more, rest) ← inner.chainTail rounds rest
      .ok ((op, e) :: more, rest)
  | _, tokens => .ok ([], tokens)

/-- Operands joined by binary operators. -/
def Level.binary (inner : Level) (tokens : List Token) : Reading := do
  let (first, rest) ← inner.unary tokens
  let (more, rest) ← inner.chainTail rest.length rest
  .ok (Chain.fold (first, more), rest)

/-- A binary expression, which may be the condition of a conditional. -/
def Level.whole (inner : Level) (tokens : List Token) : Reading := do
  let (cond, rest) ← inner.binary tokens
  match rest with
  | ⟨.question, _⟩ :: rest => do
      let (thenBranch, rest) ← inner.conditional rest
      let rest ← expect .colon "':'" rest
      let (elseBranch, rest) ← inner.conditional rest
      .ok (.conditional cond thenBranch elseBranch, rest)
  | rest => .ok (cond, rest)

/-- The parsers of a level, given those of the level inside it. -/
def Level.within (inner : Level) : Level where
  operand := inner.unary
  conditional := inner.whole

/-- The parsers when `levels` more levels of nesting may be entered. -/
def Level.ofDepth : (levels : Nat) → Level
  | 0 => .tooDeep
  | levels + 1 => (Level.ofDepth levels).within

/-! ## §4. Whole expressions. -/

/-- The tree of a list of tokens, all of which it has to use. -/
def Expr.ofTokens (tokens : List Token) : Except Fault Expr := do
  let (e, rest) ← (Level.ofDepth maxNesting).conditional tokens
  match rest with
  | [] => .ok e
  | token :: _ =>
      .error (.unexpectedToken "end of expression" token.symbol.spelling token.position)

/-- Reads a bare expression such as `(n != 1)`. -/
def Expr.parse (text : String) : Except Fault Expr :=
  if text.utf8ByteSize > maxExpressionBytes then
    .error (.inputTooLarge maxExpressionBytes)
  else do
    let tokens ← tokenize text
    if tokens.isEmpty then .error .emptyExpression
    else Expr.ofTokens tokens

example : (Expr.parse "1 + n * 2").map Expr.toPrefixForm = .ok "(+ 1 (* n 2))" := by rfl

end MessageCatalog.Plural
