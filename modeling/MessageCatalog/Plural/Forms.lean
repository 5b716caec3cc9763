/-
  MessageCatalog.Plural.Forms
  ────────────────────────────────
  **THE `Plural-Forms` HEADER.**

  The header is a list of clauses `key=value` closed by semicolons.  The clause
  `plural` holds the expression, `nplurals` the number of forms; keys are read
  without the blanks around them, other clauses are ignored, and of two clauses
  with one key the later counts.  The value of the expression for a quantity is
  the index of the plural form.
-/
import MessageCatalog.Plural.Parser
import MessageCatalog.Text.Blank
import MessageCatalog.Text.Search

namespace MessageCatalog.Plural

open MessageCatalog.Text

/-! ## §1. Clauses. -/

/-- The key and the value of a clause `key=value`. -/
def clause? (cs : List Char) : Option (List Char × List Char) :=
  cutAt? ['='] cs

/-- What the clauses read so far have set. -/
structure Clauses where
  nplurals : Option Nat := none
  expression : Option Expr := none
  deriving DecidableEq, Repr

/-- One more clause. -/
def Clauses.read (seen : Clauses) (cs : List Char) : Except Fault Clauses :=
  match clause? cs with
  | none => .ok seen
  | some (key, value) =>
      if trim key = "nplurals".toList then
        .ok { seen with nplurals := (readWord (trim value)).toOption }
      else if trim key = "plural".toList then do
        let e ← Expr.parse (String.ofList value)
        .ok { seen with expression := some e }
      else .ok seen

/-! ## §2. Headers. -/

/-- A parsed `Plural-Forms` header. -/
structure Forms where
  /-- The declared number of forms, when there is a numeric one. -/
  nplurals : Option Nat
  expression : Expr
  deriving DecidableEq, Repr

/-- Reads `nplurals=K; plural=EXPR;`. -/
def Forms.parse (header : String) : Except Fault Forms := do
  let clauses := pieces (· == ';') header.toList
  let seen ← clauses.foldlM Clauses.read {}
  match seen.expression with
  | none => .error (.missingPlural header)
  | some e => .ok ⟨seen.nplurals, e⟩

/-- The index that an expression selects for the quantity `n`. -/
def Expr.index (e : Expr) (n : Nat) : Except Fault Nat :=
  if n ≤ maxSigned then do
    let value ← e.eval (Int64.ofInt n)
    if value < 0 then .error (.negativeIndex value)
    else .ok value.toInt.toNat
  else .error .overflow

/-- The index of the plural form for the quantity `n`. -/
def Forms.index (f : Forms) (n : Nat) : Except Fault Nat :=
  f.expression.index n

/-! ## §3. Formulas. -/

/-- Whether a formula is a header and not a bare expression. -/
def isHeader (formula : String) : Bool :=
  contains "plural=".toList formula.toList || contains "plural =".toList formula.toList

/-- The index that a header, or a bare expression, selects for `n`. -/
def evaluate (formula : String) (n : Nat) : Except Fault Nat :=
  if isHeader formula then do (← Forms.parse formula).index n
  else do (← Expr.parse formula).index n

/-- The number that follows `nplurals=` in a header whose expression is not
looked at. -/
def declaredCount? (header : String) : Option Nat := do
  let rest ← after? "nplurals=".toList header.toList
  (readWord ((trimStart rest).takeWhile Char.isDigit)).toOption

end MessageCatalog.Plural
