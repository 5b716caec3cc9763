/-
  MessageCatalog.Document.Yaml.Block
  ────────────────────────────────
  **SCALARS ON LINES OF THEIR OWN.**

  After a bar or an angle the lines below, which are deeper, are a scalar as they
  stand.  Behind the bar their breaks are kept; behind the angle a single break
  between two lines that start with no blank counts as a space.  How deep the
  lines are is given by a digit or seen from the first of them, and a sign says
  which breaks at the end are kept.
-/
import MessageCatalog.Document.Yaml.Scalar

namespace MessageCatalog.Yaml

/-! ## §1. The line of the sign. -/

/-- Which breaks at the end of a scalar are kept: none, the first or all. -/
inductive Ending where
  | strip
  | clip
  | keep
  deriving DecidableEq, Repr

/-- The sign that says which breaks are kept. -/
def ending? (gs : List Glyph) : Option Ending :=
  match char? gs with
  | some '-' => some .strip
  | some '+' => some .keep
  | _ => none

/-- How much deeper the lines are, as a digit that is not zero, and the row after
it; zero stands for no digit. -/
def deeper? (gs : List Glyph) : Option (Nat × List Glyph) :=
  match gs with
  | [] => some (0, [])
  | g :: rest =>
      if g.char == '0' then none
      else if g.char.isDigit then some (g.char.toNat - '0'.toNat, rest)
      else some (0, gs)

/-- The sign and the digit, in either order, and the row from the next line on. -/
def blockHeader? (gs : List Glyph) : Option (Ending × Nat × List Glyph) := do
  let (ending, increment, gs) ← match ending? gs with
    | some ending => do
        let (increment, gs) ← deeper? (gs.drop 1)
        some (ending, increment, gs)
    | none => do
        let (increment, gs) ← deeper? gs
        match ending? gs with
        | some ending => some (ending, increment, gs.drop 1)
        | none => some (Ending.clip, increment, gs)
  let gs ← restOfLine? gs
  some (ending, increment, gs.drop 1)

/-! ## §2. The lines. -/

/-- The breaks of empty lines, and the row from the first character on that is
neither a break nor a space in front of the lines, with the deepest column that
was seen.  Where the depth is not known it is zero.  No tab can stand in front of
the lines. -/
def emptyLines? (depth : Nat) : (deepest : Nat) → List Glyph →
    Option (List Char × Nat × List Glyph)
  | deepest, [] => some ([], deepest, [])
  | deepest, g :: gs =>
      let isShallow := depth == 0 || g.column < depth
      let deepest := max deepest g.column
      if isShallow && g.char == ' ' then emptyLines? depth (max deepest (g.column + 1)) gs
      else if isShallow && g.char == '\t' then none
      else if isBreak g.char then prepend [g.char] (emptyLines? depth deepest gs)
      else some ([], deepest, g :: gs)

/-- What has been read of a scalar on lines: the break of the line before, the
breaks of the empty lines after it, and whether it started with a blank. -/
structure LinesBefore where
  last : List Char := []
  empty : List Char
  startsBlank : Bool := false

/-- What a scalar has between the lines before and a line that starts with a blank
or not. -/
def LinesBefore.gap (before : LinesBefore) (isFolded startsBlank : Bool) : List Char :=
  if isFolded && before.last == ['\n'] && !before.startsBlank && !startsBlank then
    if before.empty.isEmpty then [' '] else before.empty
  else before.last ++ before.empty

/-- The lines of a scalar, all of one depth, and what stands before and at its
end.  `fuel` bounds their number. -/
def blockLines? (isFolded : Bool) (depth : Nat) :
    (fuel : Nat) → LinesBefore → List Glyph → Option (List Char × LinesBefore × List Glyph)
  | 0, _, _ => none
  | fuel + 1, before, gs =>
      match gs with
      | [] => some ([], before, [])
      | g :: _ =>
          if g.column ≠ depth then some ([], before, gs) else do
          let startsBlank := isBlank g.char
          let line := gs.takeWhile fun g => !isBreak g.char
          let after := gs.dropWhile fun g => !isBreak g.char
          let (empty, _, rest) ← emptyLines? depth 0 (after.drop 1)
          let next : LinesBefore := ⟨(char? after).toList, empty, startsBlank⟩
          prepend (before.gap isFolded startsBlank ++ line.map Glyph.char)
            (blockLines? isFolded depth fuel next rest)

/-- A scalar after its bar or angle, within something that is less deep than
`least`, and the row after it. -/
def blockScalar? (isFolded : Bool) (least : Nat) (gs : List Glyph) :
    Option (List Char × List Glyph) := do
  let (ending, increment, gs) ← blockHeader? gs
  let given := if increment = 0 then 0 else least - 1 + increment
  let (empty, deepest, gs) ← emptyLines? given 0 gs
  let depth := if given = 0 then max 1 (max least deepest) else given
  let before : LinesBefore := { empty }
  let (text, last, rest) ← blockLines? isFolded depth (gs.length + 1) before gs
  let tail := match ending with
    | .strip => []
    | .clip => last.last
    | .keep => last.last ++ last.empty
  some (text ++ tail, rest)

example : (blockScalar? false 1 (glyphsOf "\n  a\n\n  b\n".toList)).map Prod.fst
    = some "a\n\nb\n".toList := by decide
example : (blockScalar? true 1 (glyphsOf "-\n  a\n  b\n\n  c\n".toList)).map Prod.fst
    = some "a b\nc".toList := by decide

end MessageCatalog.Yaml
