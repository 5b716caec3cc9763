/-
  MessageCatalog.Text.Blank
  ────────────────────────────────
  **WHITE SPACE AND TRIMMING.**

  A character is blank when Unicode gives it the `White_Space` property.
  Identifiers, languages and messages count as blank when nothing else is in
  them, and the clauses of a header are read with their outer blanks removed.
  All functions work on lists of characters; the ones on `String` are wrappers.
-/

namespace MessageCatalog.Text

/-! ## §1. The property. -/

/-- The Unicode `White_Space` property. -/
def isBlankChar (c : Char) : Bool :=
  let v := c.val
  (0x09 ≤ v && v ≤ 0x0D) || v == 0x20 || v == 0x85 || v == 0xA0 || v == 0x1680
    || (0x2000 ≤ v && v ≤ 0x200A) || v == 0x2028 || v == 0x2029 || v == 0x202F
    || v == 0x205F || v == 0x3000

/-- No character of `s` is anything but white space. -/
def isBlank (s : String) : Bool :=
  s.toList.all isBlankChar

example : isBlank "" = true := by decide
example : isBlankChar '\u200b' = false := by decide

/-! ## §2. Trimming. -/

/-- The characters from the first one that is not blank. -/
def trimStart (cs : List Char) : List Char :=
  cs.dropWhile isBlankChar

/-- The characters up to the last one that is not blank. -/
def trimEnd (cs : List Char) : List Char :=
  (cs.reverse.dropWhile isBlankChar).reverse

/-- The characters without blanks at either end. -/
def trim (cs : List Char) : List Char :=
  trimEnd (trimStart cs)

theorem trimStart_cons_of_blank {c : Char} {cs : List Char}
    (h : isBlankChar c = true) : trimStart (c :: cs) = trimStart cs := by
  simp [trimStart, h]

theorem trimStart_cons_of_not_blank {c : Char} {cs : List Char}
    (h : isBlankChar c = false) : trimStart (c :: cs) = c :: cs := by
  simp [trimStart, h]

/-- Trimming leaves nothing exactly of a text that is blank throughout. -/
theorem trimStart_eq_nil_iff (cs : List Char) :
    trimStart cs = [] ↔ cs.all isBlankChar = true := by
  induction cs with
  | nil => simp [trimStart]
  | cons c cs ih =>
      cases h : isBlankChar c with
      | true => simp [trimStart_cons_of_blank h, ih, h]
      | false => simp [trimStart_cons_of_not_blank h, h]

end MessageCatalog.Text
