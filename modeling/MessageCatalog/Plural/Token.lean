/-
  MessageCatalog.Plural.Token
  ────────────────────────────────
  **THE TOKENS OF A PLURAL EXPRESSION.**

  A token is a symbol together with the byte at which it starts in the text.
  All symbols are spelled in ASCII, one or two characters each but for
  literals, which are runs of digits as long as they go.  Between tokens only
  the five blanks of ASCII are skipped.
-/
import MessageCatalog.Plural.Expr
import MessageCatalog.Text.Number

namespace MessageCatalog.Plural

open MessageCatalog.Text

/-! ## §1. Symbols. -/

/-- What a token can be. -/
inductive Symbol where
  | number (value : Int64)
  | n
  | openParen
  | closeParen
  | question
  | colon
  | not
  | operator (op : BinaryOp)
  deriving DecidableEq, Repr

/-- The spelling of a symbol. -/
def Symbol.spelling : Symbol → String
  | .number value => toString value.toInt
  | .n => "n"
  | .openParen => "("
  | .closeParen => ")"
  | .question => "?"
  | .colon => ":"
  | .not => "!"
  | .operator op => op.spelling

/-- A symbol and the byte of the text at which it starts. -/
structure Token where
  symbol : Symbol
  position : Nat
  deriving DecidableEq, Repr

/-! ## §2. One token. -/

/-- The blanks between tokens: space, tab, line feed, carriage return, form feed. -/
def isSpace (c : Char) : Bool :=
  c == ' ' || c == '\t' || c == '\n' || c == '\r' || c == '\x0c'

/-- The longest operator or sign at the start of the text, with its length. -/
def sign? : List Char → Option (Symbol × Nat)
  | 'n' :: _ => some (.n, 1)
  | '(' :: _ => some (.openParen, 1)
  | ')' :: _ => some (.closeParen, 1)
  | '?' :: _ => some (.question, 1)
  | ':' :: _ => some (.colon, 1)
  | '|' :: '|' :: _ => some (.operator .or, 2)
  | '&' :: '&' :: _ => some (.operator .and, 2)
  | '=' :: '=' :: _ => some (.operator .eq, 2)
  | '!' :: '=' :: _ => some (.operator .ne, 2)
  | '<' :: '=' :: _ => some (.operator .le, 2)
  | '>' :: '=' :: _ => some (.operator .ge, 2)
  | '!' :: _ => some (.not, 1)
  | '<' :: _ => some (.operator .lt, 1)
  | '>' :: _ => some (.operator .gt, 1)
  | '+' :: _ => some (.operator .add, 1)
  | '-' :: _ => some (.operator .sub, 1)
  | '*' :: _ => some (.operator .mul, 1)
  | '/' :: _ => some (.operator .div, 1)
  | '%' :: _ => some (.operator .rem, 1)
  | _ => none

/-- The symbol that the text `c :: cs` starts with and its length, for a text
whose first character, at byte `position`, is no blank. -/
def symbolAt (position : Nat) (c : Char) (cs : List Char) : Except Fault (Symbol × Nat) :=
  if c.isDigit then
    let run := (c :: cs).takeWhile Char.isDigit
    if digitsValue run ≤ maxSigned then
      .ok (.number (Int64.ofInt (digitsValue run)), run.length)
    else .error (.invalidNumber (String.ofList run) position)
  else
    match sign? (c :: cs) with
    | some found => .ok found
    | none => .error (.unexpectedChar c position)

/-! ## §3. All tokens. -/

/-- The tokens of a text that starts at byte `position`, when its first `skip`
characters belong to a token already read. -/
def scan : (position skip : Nat) → List Char → Except Fault (List Token)
  | _, _, [] => .ok []
  | position, skip + 1, c :: cs => scan (position + c.utf8Size) skip cs
  | position, 0, c :: cs =>
      if isSpace c then scan (position + 1) 0 cs
      else
        match symbolAt position c cs with
        | .error fault => .error fault
        | .ok (symbol, width) =>
            match scan (position + c.utf8Size) (width - 1) cs with
            | .error fault => .error fault
            | .ok tokens => .ok (⟨symbol, position⟩ :: tokens)

/-- The tokens of a text, from the left. -/
def tokenize (text : String) : Except Fault (List Token) :=
  scan 0 0 text.toList

example : tokenize " n>=10" = .ok [⟨.n, 1⟩, ⟨.operator .ge, 2⟩, ⟨.number 10, 4⟩] := rfl
example : tokenize "n = 1" = .error (.unexpectedChar '=' 2) := rfl

end MessageCatalog.Plural
