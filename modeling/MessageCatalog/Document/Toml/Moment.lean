/-
  MessageCatalog.Document.Toml.Moment
  ────────────────────────────────
  **DATES AND TIMES.**

      moment  ::=  date [ ( T | t | blank ) time [offset] ]  |  time
      date    ::=  year - month - day
      time    ::=  hour : minute : second [. digits]
      offset  ::=  Z | z | ( + | - ) hour : minute

  All parts have two digits, the year four.  Only days that there are can be
  written, and times of day, in which a minute may have one more second.  No
  setting is a moment.  Where a table is asked for, a moment is one with a
  single field, which has its text.
-/
import MessageCatalog.Document.Tree
import MessageCatalog.Text.Search

namespace MessageCatalog.Toml

open MessageCatalog.Text

/-! ## §1. Parts. -/

/-- A day of a year. -/
structure Day where
  year : Nat
  month : Nat
  day : Nat
  deriving DecidableEq, Repr

/-- A time of day, with the digits of a fraction of the second. -/
structure DayTime where
  hour : Nat
  minute : Nat
  second : Nat
  fraction : List Char := []
  deriving DecidableEq, Repr

/-- A distance from the zero meridian. -/
inductive Offset where
  | zero
  | time (isWest : Bool) (hour minute : Nat)
  deriving DecidableEq, Repr

/-- A day, a time of day, or both. -/
structure Moment where
  day : Option Day := none
  time : Option DayTime := none
  offset : Option Offset := none
  deriving DecidableEq, Repr

/-- Whether a year has one more day. -/
def isLeap (year : Nat) : Bool :=
  year % 4 == 0 && (year % 100 != 0 || year % 400 == 0)

/-- The number of days of a month. -/
def daysOf (year month : Nat) : Nat :=
  match month with
  | 2 => if isLeap year then 29 else 28
  | 4 | 6 | 9 | 11 => 30
  | _ => 31

/-! ## §2. Reading. -/

/-- A number of `count` digits, within the given bounds. -/
def digitGroup? (count low high : Nat) (cs : List Char) : Option (Nat × List Char) :=
  let group := cs.take count
  let value := digitsValue group
  if group.length = count ∧ group.all Char.isDigit ∧ low ≤ value ∧ value ≤ high then
    some (value, cs.drop count)
  else none

/-- A day. -/
def day? (cs : List Char) : Option (Day × List Char) := do
  let (year, cs) ← digitGroup? 4 0 9999 cs
  let (month, cs) ← digitGroup? 2 1 12 (← afterHead? ['-'] cs)
  let (day, cs) ← digitGroup? 2 1 (daysOf year month) (← afterHead? ['-'] cs)
  some (⟨year, month, day⟩, cs)

/-- An hour and a minute. -/
def hourMinute? (cs : List Char) : Option (Nat × Nat × List Char) := do
  let (hour, cs) ← digitGroup? 2 0 23 cs
  let (minute, cs) ← digitGroup? 2 0 59 (← afterHead? [':'] cs)
  some (hour, minute, cs)

/-- A time of day. -/
def dayTime? (cs : List Char) : Option (DayTime × List Char) := do
  let (hour, minute, cs) ← hourMinute? cs
  let (second, cs) ← digitGroup? 2 0 60 (← afterHead? [':'] cs)
  match cs with
  | '.' :: cs =>
      let (fraction, rest) := cs.span Char.isDigit
      if fraction.isEmpty then none else some (⟨hour, minute, second, fraction⟩, rest)
  | cs => some (⟨hour, minute, second, []⟩, cs)

/-- A distance from the zero meridian that goes on to the end, or none. -/
def offset? : List Char → Option (Option Offset)
  | [] => some none
  | c :: cs =>
      if c == 'Z' || c == 'z' then if cs.isEmpty then some (some .zero) else none
      else if c == '+' || c == '-' then
        match hourMinute? cs with
        | some (hour, minute, []) => some (some (.time (c == '-') hour minute))
        | _ => none
      else none

/-- The moment that a word spells. -/
def Moment.read? (cs : List Char) : Option Moment :=
  match dayTime? cs with
  | some (time, rest) => if rest.isEmpty then some { time } else none
  | none => do
      let (day, rest) ← day? cs
      match rest with
      | [] => some { day }
      | c :: rest =>
          if c != 'T' && c != 't' && c != ' ' then none
          let (time, rest) ← dayTime? rest
          some { day, time, offset := ← offset? rest }

/-! ## §3. Writing. -/

/-- The text of a day. -/
def Day.text (d : Day) : String :=
  zeroPadded 4 d.year ++ "-" ++ zeroPadded 2 d.month ++ "-" ++ zeroPadded 2 d.day

/-- The digits of a fraction of the second that are kept: the first nine, without the
zeros at their end. -/
def keptFraction (fraction : List Char) : List Char :=
  ((fraction.take 9).reverse.dropWhile (· == '0')).reverse

/-- The text of a time of day. -/
def DayTime.text (t : DayTime) : String :=
  let kept := keptFraction t.fraction
  zeroPadded 2 t.hour ++ ":" ++ zeroPadded 2 t.minute ++ ":" ++ zeroPadded 2 t.second
    ++ if kept.isEmpty then "" else "." ++ String.ofList kept

/-- The text of a distance from the zero meridian.  At the meridian itself a sign is
always a plus. -/
def Offset.text : Offset → String
  | .zero => "Z"
  | .time isWest hour minute =>
      let isMinus := isWest && (hour != 0 || minute != 0)
      (if isMinus then "-" else "+") ++ zeroPadded 2 hour ++ ":" ++ zeroPadded 2 minute

/-- The text of a moment. -/
def Moment.text (m : Moment) : String :=
  let between := if m.day.isSome && m.time.isSome then "T" else ""
  (m.day.map Day.text).getD "" ++ between ++ (m.time.map DayTime.text).getD ""
    ++ (m.offset.map Offset.text).getD ""

/-- A moment as a value: a table with its text as the only field. -/
def Moment.toTree (m : Moment) : Tree :=
  .table [("$__toml_private_datetime", .text m.text)]

example : ((Moment.read? "1979-05-27 07:32:00.5000-00:00".toList).map Moment.text)
    = some "1979-05-27T07:32:00.5+00:00" := by decide
example : Moment.read? "1979-02-29".toList = none := by decide
example : Moment.read? "23:59:60".toList = some { time := some ⟨23, 59, 60, []⟩ } := by decide

end MessageCatalog.Toml
