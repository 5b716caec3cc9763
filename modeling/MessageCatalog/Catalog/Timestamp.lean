/-
  MessageCatalog.Catalog.Timestamp
  ────────────────────────────────
  **THE TIME AT WHICH A CATALOG IS WRITTEN.**

  An exported catalog carries the civil time of the export in two places: its
  header to the minute and with the offset from UTC, and the banner of the text
  form to the second.
-/
import MessageCatalog.Text.Number

namespace MessageCatalog

open MessageCatalog.Text

/-- A civil time and its offset from UTC in seconds. -/
structure Timestamp where
  year : Int
  month : Nat
  day : Nat
  hour : Nat
  minute : Nat
  second : Nat
  utcOffset : Int
  deriving DecidableEq, Repr

/-- The year with at least four digits, and with a sign when it is not among
those that four digits can write. -/
def Timestamp.yearText (t : Timestamp) : String :=
  if t.year < 0 then "-" ++ zeroPadded 4 t.year.natAbs
  else if 9999 < t.year then "+" ++ zeroPadded 4 t.year.natAbs
  else zeroPadded 4 t.year.natAbs

/-- The date, `2024-03-01`. -/
def Timestamp.date (t : Timestamp) : String :=
  t.yearText ++ "-" ++ zeroPadded 2 t.month ++ "-" ++ zeroPadded 2 t.day

/-- The offset from UTC, `+0545`, to the nearest minute. -/
def Timestamp.offsetText (t : Timestamp) : String :=
  let minutes := (t.utcOffset.natAbs + 30) / 60
  (if t.utcOffset < 0 then "-" else "+") ++ zeroPadded 2 (minutes / 60)
    ++ zeroPadded 2 (minutes % 60)

/-- The value of the revision header, `2024-01-01 12:00+0100`. -/
def Timestamp.revision (t : Timestamp) : String :=
  t.date ++ " " ++ zeroPadded 2 t.hour ++ ":" ++ zeroPadded 2 t.minute ++ t.offsetText

/-- The stamp in the banner, `2024-01-01 12:00:30`. -/
def Timestamp.created (t : Timestamp) : String :=
  t.date ++ " " ++ zeroPadded 2 t.hour ++ ":" ++ zeroPadded 2 t.minute ++ ":"
    ++ zeroPadded 2 t.second

end MessageCatalog
