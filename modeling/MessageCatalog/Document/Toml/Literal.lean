/-
  MessageCatalog.Document.Toml.Literal
  ────────────────────────────────
  **STRINGS AND NUMBERS OF A TOML DOCUMENT.**

  A string stands in double quotes, with escapes, or in single quotes, as it
  is; three quotes instead of one let it go on over lines.  All other values
  are words: truth values, integers of 64 bits in four bases, moments, and
  numbers with a point, which no setting has and whose value is not kept.
-/
import MessageCatalog.Decimal.Reader
import MessageCatalog.Document.Toml.Moment

namespace MessageCatalog.Toml

open MessageCatalog.Decimal
open MessageCatalog.Text

/-! ## §1. Characters. -/

/-- A blank within a line. -/
def isGap (c : Char) : Bool :=
  c == ' ' || c == '\t'

/-- What follows the blanks of a line. -/
def skipGap (cs : List Char) : List Char :=
  cs.dropWhile isGap

/-- A character that can stand in a string or a comment. -/
def isTextChar (c : Char) : Bool :=
  c == '\t' || ' ' ≤ c && c != '\x7f'

/-- What follows a line break at the start of the text. -/
def afterBreak? : List Char → Option (List Char)
  | '\n' :: cs => some cs
  | '\r' :: '\n' :: cs => some cs
  | _ => none

/-! ## §2. Strings on one line. -/

/-- What a letter stands for after a backslash. -/
def escape? (c : Char) : Option Char :=
  match c with
  | 'b' => some '\x08'
  | 't' => some '\t'
  | 'n' => some '\n'
  | 'f' => some '\x0c'
  | 'r' => some '\r'
  | '"' => some '"'
  | '\\' => some '\\'
  | _ => none

/-- With one more character in front, if there is one. -/
def withChar (c? : Option Char) (rest? : Option (List Char × List Char)) :
    Option (List Char × List Char) := do
  let c ← c?
  let (run, rest) ← rest?
  some (c :: run, rest)

/-- A string after its double quote, up to the closing one. -/
def basic : List Char → Option (List Char × List Char)
  | [] => none
  | '"' :: cs => some ([], cs)
  | '\\' :: 'u' :: a :: b :: c :: d :: cs => withChar (charOfHex? [a, b, c, d]) (basic cs)
  | '\\' :: 'U' :: a :: b :: c :: d :: e :: f :: g :: h :: cs =>
      withChar (charOfHex? [a, b, c, d, e, f, g, h]) (basic cs)
  | '\\' :: c :: cs => withChar (escape? c) (basic cs)
  | c :: cs => if isTextChar c then withChar (some c) (basic cs) else none

/-- A string after its single quote, up to the closing one. -/
def literal : List Char → Option (List Char × List Char)
  | [] => none
  | '\'' :: cs => some ([], cs)
  | c :: cs => if isTextChar c then withChar (some c) (literal cs) else none

/-! ## §3. Strings over several lines. -/

/-- Whether a backslash stands at the end of its line. -/
def endsLine (cs : List Char) : Bool :=
  (afterBreak? (skipGap cs)).isSome

/-- A string after its three double quotes, up to the closing three; two more
quotes in front of those are part of it.  `joining` skips the blanks and line
breaks after a backslash at the end of a line. -/
def basicLines : (joining : Bool) → List Char → Option (List Char × List Char)
  | _, [] => none
  | _, '"' :: '"' :: '"' :: '"' :: '"' :: cs => some (['"', '"'], cs)
  | _, '"' :: '"' :: '"' :: '"' :: cs => some (['"'], cs)
  | _, '"' :: '"' :: '"' :: cs => some ([], cs)
  | _, '\\' :: 'u' :: a :: b :: c :: d :: cs =>
      withChar (charOfHex? [a, b, c, d]) (basicLines false cs)
  | _, '\\' :: 'U' :: a :: b :: c :: d :: e :: f :: g :: h :: cs =>
      withChar (charOfHex? [a, b, c, d, e, f, g, h]) (basicLines false cs)
  | _, '\\' :: c :: cs =>
      if endsLine (c :: cs) then basicLines true cs
      else withChar (escape? c) (basicLines false cs)
  | joining, '\r' :: '\n' :: cs =>
      if joining then basicLines true cs else withChar (some '\n') (basicLines false cs)
  | joining, c :: cs =>
      if joining && (isGap c || c == '\n') then basicLines true cs
      else if isTextChar c || c == '\n' then withChar (some c) (basicLines false cs)
      else none

/-- A string after its three single quotes, up to the closing three; two more
quotes in front of those are part of it. -/
def literalLines : List Char → Option (List Char × List Char)
  | [] => none
  | '\'' :: '\'' :: '\'' :: '\'' :: '\'' :: cs => some (['\'', '\''], cs)
  | '\'' :: '\'' :: '\'' :: '\'' :: cs => some (['\''], cs)
  | '\'' :: '\'' :: '\'' :: cs => some ([], cs)
  | '\r' :: '\n' :: cs => withChar (some '\n') (literalLines cs)
  | c :: cs => if isTextChar c || c == '\n' then withChar (some c) (literalLines cs) else none

/-- What follows a line break, if there is one. -/
def skipBreak (cs : List Char) : List Char :=
  (afterBreak? cs).getD cs

/-- A string, from its first quote. -/
def string? (cs : List Char) : Option (String × List Char) :=
  let read? := match cs with
    | '"' :: '"' :: '"' :: cs => basicLines false (skipBreak cs)
    | '"' :: cs => basic cs
    | '\'' :: '\'' :: '\'' :: cs => literalLines (skipBreak cs)
    | '\'' :: cs => literal cs
    | _ => none
  read?.map fun (run, rest) => (String.ofList run, rest)

/-! ## §4. Words. -/

/-- The digits of a number, without the single underscores between them. -/
def withoutUnderscores? : List Char → Option (List Char)
  | [] => none
  | [c] => if c == '_' then none else some [c]
  | c :: '_' :: d :: cs =>
      if c == '_' || d == '_' then none
      else (withoutUnderscores? (d :: cs)).map (c :: ·)
  | c :: d :: cs => if c == '_' then none else (withoutUnderscores? (d :: cs)).map (c :: ·)

/-- A number in a base of which the digits are given. -/
def magnitude? (base : Nat) (cs : List Char) : Option Nat := do
  readInBase? base (← withoutUnderscores? cs)

/-- A decimal number; no digit stands after a zero in front. -/
def decimal? (cs : List Char) : Option Nat :=
  match cs with
  | '0' :: _ :: _ => none
  | cs => magnitude? 10 cs

/-- An integer of 64 bits. -/
def integer? (cs : List Char) : Option Int :=
  match cs with
  | '-' :: cs => (decimal? cs).bind fun n => if n ≤ maxSigned + 1 then some (-n) else none
  | '+' :: cs => (decimal? cs).bind fun n => if n ≤ maxSigned then some n else none
  | cs =>
      let n? := match Tree.basedDigits? cs with
        | some (base, digits) => magnitude? base digits
        | none => decimal? cs
      n?.bind fun n => if n ≤ maxSigned then some n else none

/-- The text without a sign in front. -/
def unsigned : List Char → List Char
  | '+' :: cs => cs
  | '-' :: cs => cs
  | cs => cs

/-- Whether a word is a number with a point or an exponent, or one of the words
for those.  A number too large to be told from infinity is refused, unless it is
less than zero. -/
def isReal (word : List Char) : Bool :=
  let cs := unsigned word
  let (mantissa, exponent) := cs.span fun c => c != 'e' && c != 'E'
  let (whole, fraction) := mantissa.span (· != '.')
  let isWhole := (decimal? whole).isSome
  let isFraction := fraction.isEmpty || (magnitude? 10 (fraction.drop 1)).isSome
  let isExponent := exponent.isEmpty || (magnitude? 10 (unsigned (exponent.drop 1))).isSome
  cs == "inf".toList || cs == "nan".toList
    || isWhole && isFraction && isExponent && !(fraction.isEmpty && exponent.isEmpty)
      && Binary64.read? (word.filter (· != '_')) != some (.infinite false)

/-- A character of a word. -/
def isWordChar (c : Char) : Bool :=
  c.isAlphanum || c == '_' || c == '+' || c == '-' || c == '.' || c == ':'

/-- The word at the start of a text, and the rest.  A blank between a date and a
time belongs to the word. -/
def takeWord (cs : List Char) : List Char × List Char :=
  let (word, rest) := cs.span isWordChar
  match rest with
  | ' ' :: d :: more =>
      if (day? word).any (·.2.isEmpty) && d.isDigit then
        let (time, rest) := (d :: more).span isWordChar
        (word ++ ' ' :: time, rest)
      else (word, rest)
  | rest => (word, rest)

/-- The value that a word spells. -/
def word? (cs : List Char) : Option Tree :=
  if cs = "true".toList then some (.truth true)
  else if cs = "false".toList then some (.truth false)
  else
    match integer? cs with
    | some n => some (.integer n)
    | none => if isReal cs then some .other else (Moment.read? cs).map Moment.toTree

example : integer? "1_000".toList = some 1000 := by decide
example : integer? "1__0".toList = none := by decide
example : integer? "007".toList = none := by decide
example : integer? "9223372036854775808".toList = none := by decide
example : isReal "1.0".toList = true := by decide
example : isReal "1.".toList = false := by decide

end MessageCatalog.Toml
