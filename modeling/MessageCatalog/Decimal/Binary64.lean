/-
  MessageCatalog.Decimal.Binary64
  ────────────────────────────────
  **BINARY FLOATING POINT NUMBERS OF 64 BITS, AS EXACT VALUES.**

  A finite number is `± mantissa · 2 ^ exponent`.  Those that 64 bits can hold
  have a mantissa below 2^53 and an exponent of at least -1074, and a mantissa
  of at least 2^52 unless the exponent is the least one; this is the form that
  `Binary64.nearest` gives.  All work on them is exact arithmetic on natural
  numbers, with one rounding where it is asked for: to the nearest, and of two
  equally near to the even one.
-/

namespace MessageCatalog.Decimal

/-! ## §1. Powers, and rounding a quotient. -/

/-- A power of two. -/
def twoTo (k : Nat) : Nat :=
  Nat.pow 2 k

/-- A power of ten. -/
def tenTo (k : Nat) : Nat :=
  Nat.pow 10 k

/-- `num / den` rounded to the nearest natural number, a half to the even one. -/
def roundEven (num den : Nat) : Nat :=
  let q := num / den
  let r := num % den
  if 2 * r < den then q else if den < 2 * r then q + 1 else q + q % 2

/-! ## §2. Numbers. -/

/-- A floating point number. -/
inductive Binary64 where
  | nan
  | infinite (negative : Bool)
  | finite (negative : Bool) (mantissa : Nat) (exponent : Int)
  deriving DecidableEq, Repr

/-- The least exponent of 64 bits. -/
def minExponent : Int := -1074

/-- The greatest exponent of 64 bits. -/
def maxExponent : Int := 971

/-- The number nearest to `num / den`. -/
def Binary64.nearest (negative : Bool) (num den : Nat) : Binary64 :=
  let estimate : Int := Nat.log2 num - Nat.log2 den
  let low := max (estimate - 53) minExponent
  let quotientAt (e : Int) : Nat × Nat := (num * twoTo (-e).toNat, den * twoTo e.toNat)
  let e := if (quotientAt low).1 / (quotientAt low).2 < twoTo 53 then low else low + 1
  let m := roundEven (quotientAt e).1 (quotientAt e).2
  let (m, e) := if m = twoTo 53 then (twoTo 52, e + 1) else (m, e)
  if e > maxExponent then .infinite negative else .finite negative m e

/-- The number nearest to an integer. -/
def Binary64.ofInt (n : Int) : Binary64 :=
  .nearest (decide (n < 0)) n.natAbs 1

/-- Whether the number is less than zero. -/
def Binary64.isBelowZero : Binary64 → Bool
  | .nan => false
  | .infinite negative => negative
  | .finite negative mantissa _ => negative && mantissa != 0

/-- The 64-bit integer nearest to the number on the way to zero; the largest or
smallest one beyond the ends, 0 for what is no number. -/
def Binary64.toInt64 : Binary64 → Int64
  | .nan => 0
  | .infinite negative => if negative then Int64.minValue else Int64.maxValue
  | .finite negative mantissa exponent =>
      let whole := mantissa * twoTo exponent.toNat / twoTo (-exponent).toNat
      if negative then Int64.ofInt (-(min whole (twoTo 63) : Nat))
      else Int64.ofInt (min whole (twoTo 63 - 1) : Nat)

end MessageCatalog.Decimal
