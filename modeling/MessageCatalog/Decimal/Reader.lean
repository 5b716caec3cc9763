/-
  MessageCatalog.Decimal.Reader
  ────────────────────────────────
  **READING FLOATING POINT NUMBERS.**

      number    ::=  [sign] ( digits [. [digits]] | . digits ) [exponent]
                  |  [sign] ( inf | infinity | nan )         in any case
      exponent  ::=  ( e | E ) [sign] digits

  The number read is the one nearest to the decimal value.
-/
import MessageCatalog.Decimal.Binary64
import MessageCatalog.Text.Number

namespace MessageCatalog.Decimal

open MessageCatalog.Text

/-! ## §1. Parts. -/

/-- A sign, if there is one: whether it is a minus, and the text after it. -/
def takeSign : List Char → Bool × List Char
  | '-' :: cs => (true, cs)
  | '+' :: cs => (false, cs)
  | cs => (false, cs)

/-- The value of an exponent part, 0 when the text ends in front of it. -/
def exponentPart? : List Char → Option Int
  | [] => some 0
  | c :: cs =>
      if c = 'e' ∨ c = 'E' then
        let (negative, ds) := takeSign cs
        if ds.isEmpty || !ds.all Char.isDigit then none
        else some (if negative then -(digitsValue ds : Int) else digitsValue ds)
      else none

/-- The number nearest to `d · 10 ^ k`.  Beyond four hundred digits before or
after the point nothing is left to be worked out. -/
def ofDecimal (negative : Bool) (d : Nat) (k : Int) : Binary64 :=
  let top := (digits d).length + k
  if d = 0 ∨ top < -400 then .finite negative 0 minExponent
  else if top > 400 then .infinite negative
  else .nearest negative (d * tenTo k.toNat) (tenTo (-k).toNat)

/-- Digits, a point among them or not, and an exponent. -/
def readMagnitude? (negative : Bool) (cs : List Char) : Option Binary64 := do
  let whole := cs.takeWhile Char.isDigit
  let rest := cs.dropWhile Char.isDigit
  let (places, rest) := match rest with
    | '.' :: rest => (rest.takeWhile Char.isDigit, rest.dropWhile Char.isDigit)
    | rest => ([], rest)
  if whole.isEmpty && places.isEmpty then none
  else do
    let e ← exponentPart? rest
    some (ofDecimal negative (digitsValue (whole ++ places)) (e - places.length))

/-! ## §2. Numbers. -/

/-- The number that a text spells. -/
def Binary64.read? (cs : List Char) : Option Binary64 :=
  let (negative, magnitude) := takeSign cs
  let word := magnitude.map Char.toLower
  if word = "inf".toList ∨ word = "infinity".toList then some (.infinite negative)
  else if word = "nan".toList then some .nan
  else readMagnitude? negative magnitude

end MessageCatalog.Decimal
