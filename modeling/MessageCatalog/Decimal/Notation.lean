/-
  MessageCatalog.Decimal.Notation
  ────────────────────────────────
  **DECIMAL TEXT OF EXACT VALUES.**

  A positive value is a quotient `num / den`.  Its decimal text is a whole
  number `d` on a grid of tenths, hundredths or tens: `d · 10 ^ k`.  There are
  three ways to choose it:

      fixed        the grid of a given number of places
      scientific   the grid with a given number of digits after the first
      shortest     the coarsest grid with a value that still reads back

  The first two round to the nearest value of the grid, a half to the even one.
  The shortest form takes the nearer of the two neighbours on the grid, and the
  upper one if both are equally near.
-/
import MessageCatalog.Decimal.Binary64
import MessageCatalog.Text.Number

namespace MessageCatalog.Decimal

open MessageCatalog.Text

/-! ## §1. Placing the point. -/

/-- The digits of `d`, filled up with zeros on the left to at least `least`. -/
def paddedDigits (least d : Nat) : List Char :=
  let ds := digits d
  List.replicate (least - ds.length) '0' ++ ds

/-- The text of `d / 10 ^ places`, with a point only if there are places. -/
def withPlaces (places d : Nat) : List Char :=
  if places = 0 then digits d
  else
    let ds := paddedDigits (places + 1) d
    ds.take (ds.length - places) ++ '.' :: ds.drop (ds.length - places)

/-- The text of `d · 10 ^ k` without an exponent. -/
def positional (d : Nat) (k : Int) : List Char :=
  if 0 ≤ k then digits (d * tenTo k.toNat) else withPlaces (-k).toNat d

/-! ## §2. Grids. -/

/-- The exponent of the leading decimal digit of `num / den`, for a positive
quotient. -/
def magnitude (num den : Nat) : Int :=
  if den ≤ num then ((digits (num / den)).length : Int) - 1
  else
    let j := (digits (den / num)).length - 1
    if num * tenTo j = den then -j else -j - 1

/-- `num / den` as a multiple of `10 ^ k`, a quotient again. -/
def onGrid (k : Int) (num den : Nat) : Nat × Nat :=
  (num * tenTo (-k).toNat, den * tenTo k.toNat)

/-- `num / den` with a fixed number of places. -/
def fixed (places num den : Nat) : List Char :=
  withPlaces places (roundEven (num * tenTo places) den)

/-- One digit, `places` more after the point, and the exponent. -/
def scientific (places num den : Nat) : List Char :=
  let e := if num = 0 then 0 else magnitude num den
  let (gridNum, gridDen) := onGrid (e - places) num den
  let d := roundEven gridNum gridDen
  let (d, e) := if d = tenTo (places + 1) then (tenTo places, e + 1) else (d, e)
  let ds := paddedDigits (places + 1) d
  ds.take 1 ++ (if places = 0 then [] else '.' :: ds.drop 1) ++ 'e' :: decimal e

/-! ## §3. The shortest text. -/

/-- The value on the grid of `10 ^ k` that reads back as `mantissa · 2 ^ exponent`.
A value reads back when it lies between the middles to the two neighbouring
numbers, the middles themselves included if the mantissa is even. -/
def readsBackOn (mantissa : Nat) (exponent : Int) (k : Int) : Option Nat :=
  let scale (quarters : Nat) : Nat :=
    quarters * twoTo (exponent - 2).toNat * tenTo (-k).toNat
  let unit := twoTo (2 - exponent).toNat * tenTo k.toNat
  let value := scale (4 * mantissa)
  let low := scale (4 * mantissa - if mantissa = twoTo 52 then 1 else 2)
  let high := scale (4 * mantissa + 2)
  let inside (v : Nat) : Bool :=
    if mantissa % 2 = 0 then low ≤ v && v ≤ high else low < v && v < high
  let d := value / unit
  match inside (d * unit), inside ((d + 1) * unit) with
  | false, false => none
  | true, false => some d
  | false, true => some (d + 1)
  | true, true => if 2 * (value % unit) < unit then some d else some (d + 1)

/-- The shortest decimal value that reads back as `mantissa · 2 ^ exponent`, as a
whole number and its power of ten.  Seventeen digits are always enough. -/
def shortest (mantissa : Nat) (exponent : Int) : Nat × Int :=
  if mantissa = 0 then (0, 0)
  else
    let top := magnitude (mantissa * twoTo exponent.toNat) (twoTo (-exponent).toNat)
    let found := (List.range 17).findSome? fun (n : Nat) =>
      (readsBackOn mantissa exponent (top - n)).map fun d => (d, top - n)
    match found with
    | some (d, k) => if d % 10 = 0 then (d / 10, k + 1) else (d, k)
    | none => (mantissa * twoTo exponent.toNat, 0)

/-! ## §4. Texts of numbers. -/

/-- A text with a minus sign in front if it belongs to a negative number. -/
def signed (negative : Bool) (text : List Char) : List Char :=
  if negative then '-' :: text else text

/-- The text of a number whose magnitude is written by `write`. -/
def Binary64.text (write : Nat → Int → List Char) : Binary64 → List Char
  | .nan => "NaN".toList
  | .infinite negative => signed negative "inf".toList
  | .finite negative mantissa exponent => signed negative (write mantissa exponent)

/-- The number with a fixed number of places. -/
def Binary64.toFixed (places : Nat) (x : Binary64) : List Char :=
  x.text fun m e => fixed places (m * twoTo e.toNat) (twoTo (-e).toNat)

/-- The number with an exponent of ten. -/
def Binary64.toScientific (places : Nat) (x : Binary64) : List Char :=
  x.text fun m e => scientific places (m * twoTo e.toNat) (twoTo (-e).toNat)

/-- The fewest digits that read back, never with an exponent. -/
def Binary64.toShortest (x : Binary64) : List Char :=
  x.text fun m e => positional (shortest m e).1 (shortest m e).2

example : (Binary64.nearest false 1 10).toShortest = "0.1".toList := by decide +kernel
example : (Binary64.nearest false 5 2).toFixed 0 = "2".toList := by decide +kernel
example : (Binary64.nearest false 12345 10).toScientific 2 = "1.23e3".toList := by decide +kernel

end MessageCatalog.Decimal
