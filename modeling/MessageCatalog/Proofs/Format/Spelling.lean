/-
  MessageCatalog.Proofs.Format.Spelling
  ────────────────────────────────
  **TEXTS THAT SPELL AN INTEGER.**

  A text stands for the integer that it starts with, so a template is meant to come out the same
  whether it is given an integer or its decimal text.  An argument is seen by the conversions that
  select it and by nothing else (`render_congr`), and each of these sees it as a text or as an
  integer.  As a text the two are the same.  As an integer they are the same up to one number:

      9223372036854775807     read back
      -9223372036854775807    read back
      -9223372036854775808    read as 0: its digits are read before its sign counts, and alone they
                              do not fit the word

  So a template may be given the text of any other integer in the place of the integer.
-/
import MessageCatalog.Proofs.Format.Integers
import MessageCatalog.Proofs.Text.Blank

namespace MessageCatalog.Format

open MessageCatalog.Text MessageCatalog.Decimal

/-! ## §1. Reading an integer back. -/

theorem takeWhile_digits (n : Nat) : (digits n).takeWhile Char.isDigit = digits n :=
  List.takeWhile_eq_self_iff.2 fun _ hc => isDigit_of_mem_digits hc

theorem trimStart_digits (n : Nat) : trimStart (digits n) = digits n :=
  trimStart_eq_self fun _ hc => isBlankChar_of_isDigit (isDigit_of_mem_digits hc)

theorem leadingInteger_digits (n : Nat) :
    leadingInteger (digits n) = if n ≤ maxSigned then Int64.ofInt n else 0 := by
  unfold leadingInteger
  simp only [trimStart_digits, takeSign_of_spells (spells_digits n), takeWhile_digits,
    readMagnitude_digits]
  by_cases hfits : n ≤ maxSigned
  · simp only [if_pos hfits, Bool.false_eq_true, if_false]
  · simp only [if_neg hfits]

theorem leadingInteger_minus_digits (n : Nat) :
    leadingInteger ('-' :: digits n) = if n ≤ maxSigned then Int64.ofInt (-n) else 0 := by
  have htrim : trimStart ('-' :: digits n) = '-' :: digits n :=
    trimStart_cons_of_not_blank (by decide)
  unfold leadingInteger
  simp only [htrim, takeSign, takeWhile_digits, readMagnitude_digits]
  by_cases hfits : n ≤ maxSigned
  · simp only [if_pos hfits, if_true]
  · simp only [if_neg hfits]

/-- **The least integer is the only one that is not read back from its text.** -/
theorem leadingInteger_decimal (v : Int64) :
    leadingInteger (decimal v.toInt) = if v = Int64.minValue then 0 else v := by
  have hleast : v = Int64.minValue ↔ v.toInt = -2 ^ 63 := by
    rw [← Int64.toInt_inj, Int64.toInt_minValue]
  have hlow := v.le_toInt
  have hhigh := v.toInt_lt
  have hmax : maxSigned = 2 ^ 63 - 1 := by decide
  unfold decimal
  split
  next hneg =>
    -- the magnitude of a negative number fits but for the least one
    rw [leadingInteger_minus_digits, show -(v.toInt.natAbs : Int) = v.toInt by omega,
      Int64.ofInt_toInt]
    by_cases hv : v = Int64.minValue
    · rw [if_pos hv, if_neg (by rw [hleast] at hv; omega)]
    · rw [if_neg hv, if_pos (by rw [hleast] at hv; omega)]
  next hpos =>
    rw [leadingInteger_digits, show (v.toInt.natAbs : Int) = v.toInt by omega,
      Int64.ofInt_toInt, if_pos (by omega), if_neg (by rw [hleast]; omega)]

/-! ## §2. What a conversion sees. -/

/-- The letters of the conversions that write a real. -/
def realLetters : List Char := "fFeE".toList

/-- The decimal text of an integer, as an argument. -/
def spelled (v : Int64) : Argument :=
  .text (String.ofList (decimal v.toInt))

theorem asText_spelled (v : Int64) : (spelled v).asText = (Argument.integer v).asText :=
  String.toList_ofList

theorem asInteger_spelled (v : Int64) :
    (spelled v).asInteger = if v = Int64.minValue then 0 else v := by
  have htext : (spelled v).asInteger = leadingInteger (spelled v).asText := rfl
  rw [htext, asText_spelled]
  exact leadingInteger_decimal v

section Convert

variable {c : Conversion} {arg arg' : Argument}

/-- `%s` sees the text. -/
theorem convert_congr_asText (h : c.letter = 's') (htext : arg.asText = arg'.asText) :
    c.convert arg = c.convert arg' := by
  unfold Conversion.convert
  simp only [h, htext]

/-- A conversion to anything but a text or a real sees the integer. -/
theorem convert_congr_asInteger (hs : c.letter ≠ 's') (hreal : c.letter ∉ realLetters)
    (hinteger : arg.asInteger = arg'.asInteger) : c.convert arg = c.convert arg' := by
  have hletters : ∀ letter ∈ realLetters, c.letter ≠ letter := by
    rintro letter hmem rfl
    exact hreal hmem
  unfold Conversion.convert
  simp only [hinteger]
  split
  next h => exact absurd h hs
  next => rfl
  next => rfl
  next => rfl
  next h => exact absurd h (hletters 'f' (by decide))
  next h => exact absurd h (hletters 'F' (by decide))
  next h => exact absurd h (hletters 'e' (by decide))
  next h => exact absurd h (hletters 'E' (by decide))
  all_goals
    rfl

/-- A conversion that writes no real cannot tell an integer from its text, the least one apart. -/
theorem convert_spelled {v : Int64} (hreal : c.letter ∉ realLetters)
    (h : v ≠ Int64.minValue ∨ c.letter = 's') : c.convert (spelled v) = c.convert (.integer v) := by
  by_cases hs : c.letter = 's'
  · exact convert_congr_asText hs (asText_spelled v)
  · have hv : v ≠ Int64.minValue := h.resolve_right hs
    refine convert_congr_asInteger hs hreal ?_
    rw [asInteger_spelled, if_neg hv]
    rfl

/-- The text of the least integer stands for 0. -/
theorem convert_spelled_least (hreal : c.letter ∉ realLetters) (hs : c.letter ≠ 's') :
    c.convert (spelled Int64.minValue) = c.convert (.integer 0) := by
  refine convert_congr_asInteger hs hreal ?_
  rw [asInteger_spelled, if_pos rfl]
  rfl

end Convert

/-! ## §3. What a template sees. -/

/-- The places of the arguments that the conversions take when `used` arguments have been taken in
order, counted from 0. -/
def selections : (used : Nat) → List Segment → List (Nat × Conversion)
  | _, [] => []
  | used, .conversion c :: rest =>
      (c.number.getD (used + 1) - 1, c)
        :: selections (if c.number.isSome then used else used + 1) rest
  | used, _ :: rest => selections used rest

/-- A conversion of the template takes the argument at a place. -/
def Takes (template : String) (place : Nat) (c : Conversion) : Prop :=
  (place, c) ∈ selections 0 (Template.read template.toList).1

theorem forall_takes_iff {template : String} {place : Nat} {p : Conversion → Prop} :
    (∀ c, Takes template place c → p c)
      ↔ ∀ taken ∈ selections 0 (Template.read template.toList).1, taken.1 = place → p taken.2 := by
  constructor
  · rintro h ⟨place', c⟩ htaken rfl
    exact h c htaken
  · intro h c htakes
    exact h (place, c) htakes rfl

/-- **Arguments count for what the conversions that take them make of them.** -/
theorem render_congr {args args' : List Argument} {used : Nat} {segments : List Segment}
    (h : ∀ place c, (place, c) ∈ selections used segments →
      args[place]?.map c.convert = args'[place]?.map c.convert) :
    render args used segments = render args' used segments := by
  induction segments generalizing used with
  | nil => rfl
  | cons segment rest ih =>
      cases segment with
      | literal c => rw [render_literal, render_literal, ih h]
      | percent => rw [render_percent, render_percent, ih h]
      | conversion c =>
          -- the first selection is that of this conversion, the others are those of the rest
          have hfirst := h _ c List.mem_cons_self
          have hrest := ih fun place c' hc' => h place c' (List.mem_cons_of_mem _ hc')
          rw [render, render]
          simp only [hrest]
          cases harg : args[c.number.getD (used + 1) - 1]? with
          | none =>
              rw [harg, Option.map_none, eq_comm, Option.map_eq_none_iff] at hfirst
              simp only [hfirst]
          | some arg =>
              rw [harg, Option.map_some, eq_comm, Option.map_eq_some_iff] at hfirst
              obtain ⟨arg', harg', hconvert⟩ := hfirst
              simp only [harg', hconvert]

theorem sprintf_congr {template : String} {args args' : List Argument}
    (h : ∀ place c, Takes template place c →
      args[place]?.map c.convert = args'[place]?.map c.convert) :
    sprintf template args = sprintf template args' := by
  unfold sprintf Template.render
  rw [render_congr h]

/-- Another argument in one place counts for the conversions that take this place. -/
theorem sprintf_set {template : String} {args : List Argument} {place : Nat} {arg arg' : Argument}
    (harg : args[place]? = some arg')
    (h : ∀ c, Takes template place c → c.convert arg = c.convert arg') :
    sprintf template (args.set place arg) = sprintf template args := by
  refine sprintf_congr fun other c htakes => ?_
  rw [List.getElem?_set]
  split
  next heq =>
    subst heq
    obtain ⟨hlt, -⟩ := List.getElem?_eq_some_iff.1 harg
    rw [if_pos hlt, harg, Option.map_some, Option.map_some, h c htakes]
  next => rfl

/-! ## §4. Integers and their texts. -/

/-- **A template comes out the same for an integer and for its decimal text**, where no conversion
takes it as a real: for every integer but the least one, and for this one too where it is only
taken as a text.  Where it is only taken as a number, the text of the least integer comes out as 0
does. -/
theorem sprintf_spelled {template : String} {args : List Argument} {place : Nat} {v : Int64}
    (harg : args[place]? = some (.integer v))
    (hreal : ∀ c, Takes template place c → c.letter ∉ realLetters) :
    ((v ≠ Int64.minValue ∨ ∀ c, Takes template place c → c.letter = 's') →
        sprintf template (args.set place (spelled v)) = sprintf template args)
      ∧ ((∀ c, Takes template place c → c.letter ≠ 's') → v = Int64.minValue →
        sprintf template (args.set place (spelled v))
          = sprintf template (args.set place (.integer 0))) := by
  refine ⟨fun h => ?_, fun hs hv => ?_⟩
  · refine sprintf_set harg fun c htakes => convert_spelled (hreal c htakes) ?_
    exact h.imp id fun htext => htext c htakes
  · -- the template is compared with that for 0 in the same place
    obtain ⟨hlt, -⟩ := List.getElem?_eq_some_iff.1 harg
    have hzero : (args.set place (.integer 0))[place]? = some (.integer 0) :=
      List.getElem?_set_self hlt
    have hconvert : ∀ c, Takes template place c →
        c.convert (spelled v) = c.convert (.integer 0) := by
      intro c htakes
      rw [hv, convert_spelled_least (hreal c htakes) (hs c htakes)]
    have hset := sprintf_set hzero hconvert
    rwa [List.set_set] at hset

/-- A negative number three times, and the least integer as a number. -/
theorem sprintf_spelled_thrice :
    sprintf "%1$s %1$x %1$05d" [.text "-42"] = .ok "-42 ffffffffffffffd6 -0042"
      ∧ sprintf "%1$s %1$x %1$05d" [.integer (-42)] = .ok "-42 ffffffffffffffd6 -0042"
      ∧ sprintf "%+d" [.text "-9223372036854775808"] = sprintf "%+d" [.integer 0] := by
  have hthrice : sprintf "%1$s %1$x %1$05d" [.integer (-42)] = .ok "-42 ffffffffffffffd6 -0042" :=
    by rfl
  have hspelled : spelled (-42) = .text "-42" := by rfl
  have hleast : spelled Int64.minValue = .text "-9223372036854775808" := by rfl
  have hfirst := (@sprintf_spelled "%1$s %1$x %1$05d" [.integer (-42)] 0 (-42) rfl
    (forall_takes_iff.2 (by decide))).1 (.inl (by decide))
  have hsecond := (@sprintf_spelled "%+d" [.integer Int64.minValue] 0 Int64.minValue rfl
    (forall_takes_iff.2 (by decide))).2 (forall_takes_iff.2 (by decide)) rfl
  rw [hspelled, hthrice] at hfirst
  rw [hleast] at hsecond
  exact ⟨hfirst, hthrice, hsecond⟩

/-- The least integer and its text, of which only 0 is left. -/
theorem sprintf_least_spelled :
    spelled Int64.minValue = .text "-9223372036854775808"
      ∧ sprintf "%d" [.integer Int64.minValue] = .ok "-9223372036854775808"
      ∧ sprintf "%d" [.text "-9223372036854775808"] = .ok "0" := by
  refine ⟨by rfl, by rfl, by rfl⟩

end MessageCatalog.Format
