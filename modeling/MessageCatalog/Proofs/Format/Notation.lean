/-
  MessageCatalog.Proofs.Format.Notation
  ────────────────────────────────
  **TEMPLATES AS THEY ARE WRITTEN.**

  A template is written part by part: text without percent signs, `%%`, and conversions in the
  form

      % [number $] {flag} [width] [. [precision]] letter

  Nothing stands between the parts, so the reader has to see from the characters alone where each
  of them ends.  It does: whatever follows a part, reading gives back what the part means and goes
  on behind it (`read_part`).

      digits that `$` follows        the number       only if they are the first thing
      `0` in front of other digits   a flag           a width has no leading zero
      any character behind a quote   a flag           also a percent sign or a digit
-/
import Mathlib.Data.Bool.AllAny
import MessageCatalog.Format.Template
import MessageCatalog.Proofs.Steps

namespace MessageCatalog.Format

open MessageCatalog.Text

/-! ## §1. The parts. -/

/-- A flag as it is written. -/
inductive Mark where
  | minus
  | plus
  | zero
  | space
  /-- A quote and any character. -/
  | quoted (c : Char)
  deriving DecidableEq, Repr

def Mark.text : Mark → List Char
  | .minus => ['-']
  | .plus => ['+']
  | .zero => ['0']
  | .space => [' ']
  | .quoted c => ['\'', c]

/-- What a flag means. -/
def Mark.flag : Mark → Flag
  | .minus => .left
  | .plus => .plus
  | .zero => .fill '0'
  | .space => .fill ' '
  | .quoted c => .fill c

/-- The letters that conversions end with. -/
def conversionLetters : List Char := "sdiufFeExXobc".toList

/-- A conversion as it is written, digit by digit.  The digits of the width may be none. -/
structure Directive where
  number : Option (List Char)
  marks : List Mark
  width : List Char
  precision : Option (List Char)
  letter : Char
  isDigit_number : ∀ ds ∈ number, ds.all Char.isDigit = true
  number_pos : ∀ ds ∈ number, 1 ≤ digitsValue ds
  isDigit_width : width.all Char.isDigit = true
  no_leading_zero : width.head? ≠ some '0'
  width_le : digitsValue width ≤ maxFieldWidth
  isDigit_precision : ∀ ds ∈ precision, ds.all Char.isDigit = true
  precision_le : ∀ ds ∈ precision, digitsValue ds ≤ maxFieldWidth
  letter_mem : letter ∈ conversionLetters

namespace Directive

def numberText (d : Directive) : List Char :=
  match d.number with
  | none => []
  | some ds => ds ++ ['$']

def precisionText (d : Directive) : List Char :=
  match d.precision with
  | none => []
  | some ds => '.' :: ds

/-- What is written behind the percent sign. -/
def body (d : Directive) : List Char :=
  d.numberText ++ (d.marks.flatMap Mark.text ++ (d.width ++ (d.precisionText ++ [d.letter])))

def text (d : Directive) : List Char :=
  '%' :: d.body

/-- What a conversion means.  A number that exceeds 64 bits counts as the largest one. -/
def conversion (d : Directive) : Conversion :=
  { number := d.number.map fun ds => min (digitsValue ds) maxWord
    flags := d.marks.map Mark.flag
    width := digitsValue d.width
    precision := d.precision.map digitsValue
    letter := d.letter }

end Directive

/-- A part of a template as it is written. -/
inductive Part where
  | literal (text : List Char) (free : '%' ∉ text)
  | percent
  | directive (d : Directive)

def Part.text : Part → List Char
  | .literal text _ => text
  | .percent => ['%', '%']
  | .directive d => d.text

/-- What a part is read as. -/
def Part.segments : Part → List Segment
  | .literal text _ => text.map .literal
  | .percent => [.percent]
  | .directive d => [.conversion d.conversion]

/-- The text of a template that is written in these parts. -/
def source (parts : List Part) : List Char :=
  parts.flatMap Part.text

/-! ## §2. Reading a conversion. -/

/-- The characters that flags start with. -/
def flagStarts : List Char := ['-', '+', '0', ' ', '\'']

theorem takeDigits_append {ds cs : List Char} (hds : ds.all Char.isDigit = true)
    (hcs : ∀ c ∈ cs.head?, c.isDigit = false) : takeDigits (ds ++ cs) = (ds, cs) := by
  rw [List.all_eq_true] at hds
  unfold takeDigits
  rw [List.takeWhile_append_of_pos hds, List.dropWhile_append_of_pos hds]
  cases cs with
  | nil => simp
  | cons c cs =>
      have hc : c.isDigit = false := hcs c rfl
      simp [hc]

/-- A character that can stand behind the width. -/
structure Closes (c : Char) : Prop where
  not_digit : c.isDigit = false
  ne_dollar : c ≠ '$'
  not_flag : c ∉ flagStarts

theorem closes_point : Closes '.' := ⟨by decide, by decide, by decide⟩

theorem closes_of_mem {c : Char} (h : c ∈ conversionLetters) : Closes c := by
  have hall : ∀ c ∈ conversionLetters, c.isDigit = false ∧ c ≠ '$' ∧ c ∉ flagStarts :=
    List.all_iff_forall_prop.1 (by decide)
  obtain ⟨hdigit, hdollar, hflag⟩ := hall c h
  exact ⟨hdigit, hdollar, hflag⟩

theorem readSize_append {ds cs : List Char} (hds : ds.all Char.isDigit = true)
    (hcs : ∀ c ∈ cs.head?, c.isDigit = false) (hle : digitsValue ds ≤ maxFieldWidth) :
    readSize (ds ++ cs) = .ok (digitsValue ds, cs) := by
  unfold readSize
  rw [takeDigits_append hds hcs]
  exact if_pos hle

theorem readFlags_of_not_mem {c : Char} (h : c ∉ flagStarts) (cs : List Char) :
    readFlags (c :: cs) = .ok ([], c :: cs) := by
  unfold readFlags
  split
  all_goals
    simp_all [flagStarts]

theorem readFlags_mark {cs rest : List Char} {flags : List Flag} (mark : Mark)
    (h : readFlags cs = .ok (flags, rest)) :
    readFlags (mark.text ++ cs) = .ok (mark.flag :: flags, rest) := by
  cases mark with
  | minus =>
      show (readFlags cs >>= fun read => .ok (Flag.left :: read.1, read.2)) = _
      rw [h, ok_bind]
      rfl
  | plus =>
      show (readFlags cs >>= fun read => .ok (Flag.plus :: read.1, read.2)) = _
      rw [h, ok_bind]
      rfl
  | zero =>
      show (readFlags cs >>= fun read => .ok (Flag.fill '0' :: read.1, read.2)) = _
      rw [h, ok_bind]
      rfl
  | space =>
      show (readFlags cs >>= fun read => .ok (Flag.fill ' ' :: read.1, read.2)) = _
      rw [h, ok_bind]
      rfl
  | quoted c =>
      show (readFlags cs >>= fun read => .ok (Flag.fill c :: read.1, read.2)) = _
      rw [h, ok_bind]
      rfl

theorem readFlags_append (marks : List Mark) {c : Char} (h : c ∉ flagStarts) (cs : List Char) :
    readFlags (marks.flatMap Mark.text ++ c :: cs) = .ok (marks.map Mark.flag, c :: cs) := by
  induction marks with
  | nil => exact readFlags_of_not_mem h cs
  | cons mark marks ih =>
      rw [List.flatMap_cons, List.append_assoc]
      exact readFlags_mark mark ih

theorem readNumber_of_number {ds : List Char} (hds : ds.all Char.isDigit = true)
    (hpos : 1 ≤ digitsValue ds) (cs : List Char) :
    readNumber (ds ++ '$' :: cs) = .ok (some (min (digitsValue ds) maxWord), cs) := by
  unfold readNumber
  have hdollar : ∀ c ∈ ('$' :: cs).head?, c.isDigit = false := by
    rintro c ⟨⟩
    decide
  rw [takeDigits_append hds hdollar]
  cases ds with
  | nil => exact absurd hpos (by decide)
  | cons d ds => exact if_neg (by omega)

/-- Digits are no number unless `$` follows them. -/
theorem readNumber_of_ne_dollar {cs : List Char}
    (h : (cs.dropWhile Char.isDigit).head? ≠ some '$') : readNumber cs = .ok (none, cs) := by
  unfold readNumber takeDigits
  split
  next hrun =>
    rw [Prod.mk.injEq] at hrun
    rw [hrun.2] at h
    exact absurd rfl h
  next => rfl

/-- No `$` follows the digits that flags may start with. -/
theorem head?_dropWhile_marks (marks : List Mark) {cs : List Char}
    (h : (cs.dropWhile Char.isDigit).head? ≠ some '$') :
    ((marks.flatMap Mark.text ++ cs).dropWhile Char.isDigit).head? ≠ some '$' := by
  induction marks with
  | nil => exact h
  | cons mark marks ih =>
      rw [List.flatMap_cons, List.append_assoc]
      cases mark with
      | zero => exact ih
      | minus | plus | space | quoted c => simp [Mark.text]

theorem readPrecision_none {c : Char} (h : c ≠ '.') (cs : List Char) :
    readPrecision (c :: cs) = .ok (none, c :: cs) := by
  unfold readPrecision
  split
  next heq =>
    cases heq
    exact absurd rfl h
  next => rfl

/-- A character that is nothing else is read as the letter, whichever it is. -/
theorem readConversion_letter {c : Char} (h : Closes c) (hpoint : c ≠ '.') (cs : List Char) :
    readConversion (c :: cs) = .ok (⟨none, [], 0, none, c⟩, cs) := by
  have hnumber : readNumber (c :: cs) = .ok (none, c :: cs) := by
    refine readNumber_of_ne_dollar ?_
    simp [h.not_digit, h.ne_dollar]
  have hwidth : readSize ([] ++ c :: cs) = .ok (digitsValue [], c :: cs) := by
    refine readSize_append rfl ?_ (Nat.zero_le _)
    rintro d ⟨⟩
    exact h.not_digit
  unfold readConversion
  rw [hnumber, ok_bind]
  simp only
  rw [readFlags_of_not_mem h.not_flag, ok_bind]
  simp only
  rw [List.nil_append] at hwidth
  rw [hwidth, ok_bind]
  simp only
  rw [readPrecision_none hpoint, ok_bind]
  rfl

namespace Directive

theorem closes_head_precision (d : Directive) (cs : List Char) :
    ∃ c more, d.precisionText ++ d.letter :: cs = c :: more ∧ Closes c := by
  unfold precisionText
  split
  next => exact ⟨d.letter, cs, rfl, closes_of_mem d.letter_mem⟩
  next ds _ => exact ⟨'.', ds ++ d.letter :: cs, rfl, closes_point⟩

theorem readPrecision_append (d : Directive) (cs : List Char) :
    readPrecision (d.precisionText ++ d.letter :: cs)
      = .ok (d.precision.map digitsValue, d.letter :: cs) := by
  unfold precisionText
  split
  next hnone =>
    rw [hnone]
    have hpoint : d.letter ≠ '.' := by
      have hall : ∀ c ∈ conversionLetters, c ≠ '.' := List.all_iff_forall_prop.1 (by decide)
      exact hall d.letter d.letter_mem
    exact readPrecision_none hpoint cs
  next ds hsome =>
    have hletter : ∀ c ∈ (d.letter :: cs).head?, c.isDigit = false := by
      rintro c ⟨⟩
      exact (closes_of_mem d.letter_mem).not_digit
    show (readSize (ds ++ d.letter :: cs) >>= fun read => .ok (some read.1, read.2)) = _
    rw [readSize_append (d.isDigit_precision ds hsome) hletter (d.precision_le ds hsome), ok_bind,
      hsome]
    rfl

theorem readSize_width (d : Directive) (cs : List Char) :
    readSize (d.width ++ (d.precisionText ++ d.letter :: cs))
      = .ok (digitsValue d.width, d.precisionText ++ d.letter :: cs) := by
  obtain ⟨c, more, hhead, hc⟩ := d.closes_head_precision cs
  refine readSize_append d.isDigit_width ?_ d.width_le
  rw [hhead]
  rintro c ⟨⟩
  exact hc.not_digit

theorem not_flag_head_width (d : Directive) (cs : List Char) :
    ∃ c more, d.width ++ (d.precisionText ++ d.letter :: cs) = c :: more ∧ c ∉ flagStarts := by
  cases hwidth : d.width with
  | nil =>
      obtain ⟨c, more, hhead, hc⟩ := d.closes_head_precision cs
      exact ⟨c, more, hhead, hc.not_flag⟩
  | cons c ds =>
      refine ⟨c, _, rfl, ?_⟩
      have hdigit : c.isDigit = true := List.all_eq_true.1 d.isDigit_width c (by simp [hwidth])
      have hzero : c ≠ '0' := by
        have hhead := d.no_leading_zero
        rw [hwidth] at hhead
        simpa using hhead
      -- of the characters that flags start with only the zero is a digit
      have honly : ∀ c ∈ flagStarts, c.isDigit = true → c = '0' :=
        List.all_iff_forall_prop.1 (by decide)
      exact fun hmem => hzero (honly c hmem hdigit)

theorem readFlags_marks (d : Directive) (cs : List Char) :
    readFlags (d.marks.flatMap Mark.text ++ (d.width ++ (d.precisionText ++ d.letter :: cs)))
      = .ok (d.marks.map Mark.flag, d.width ++ (d.precisionText ++ d.letter :: cs)) := by
  obtain ⟨c, more, hhead, hc⟩ := d.not_flag_head_width cs
  rw [hhead]
  exact readFlags_append d.marks hc more

theorem readNumber_append (d : Directive) (cs : List Char) :
    readNumber (d.numberText
        ++ (d.marks.flatMap Mark.text ++ (d.width ++ (d.precisionText ++ d.letter :: cs))))
      = .ok (d.conversion.number,
          d.marks.flatMap Mark.text ++ (d.width ++ (d.precisionText ++ d.letter :: cs))) := by
  unfold numberText
  split
  next hnone =>
    obtain ⟨c, more, hhead, hc⟩ := d.closes_head_precision cs
    have hnumber : d.conversion.number = none := by simp [conversion, hnone]
    rw [hnumber]
    refine readNumber_of_ne_dollar (head?_dropWhile_marks d.marks ?_)
    rw [List.dropWhile_append_of_pos (List.all_eq_true.1 d.isDigit_width), hhead]
    simp [hc.not_digit, hc.ne_dollar]
  next ds hsome =>
    have hnumber : d.conversion.number = some (min (digitsValue ds) maxWord) := by
      simp [conversion, hsome]
    rw [hnumber, List.append_assoc]
    exact readNumber_of_number (d.isDigit_number ds hsome) (d.number_pos ds hsome) _

/-- **A conversion is read as what it means**, whatever follows it. -/
theorem readConversion_append (d : Directive) (cs : List Char) :
    readConversion (d.body ++ cs) = .ok (d.conversion, cs) := by
  have hbody : d.body ++ cs = d.numberText
      ++ (d.marks.flatMap Mark.text ++ (d.width ++ (d.precisionText ++ d.letter :: cs))) := by
    simp [body]
  unfold readConversion
  rw [hbody, d.readNumber_append, ok_bind]
  simp only
  rw [d.readFlags_marks, ok_bind]
  simp only
  rw [d.readSize_width, ok_bind]
  simp only
  rw [d.readPrecision_append, ok_bind]
  rfl

/-- The percent sign that a conversion starts with is not the first one of two. -/
theorem head?_body (d : Directive) (cs : List Char) : (d.body ++ cs).head? ≠ some '%' := by
  intro hhead
  obtain ⟨more, hmore⟩ := List.head?_eq_some_iff.1 hhead
  have hread := d.readConversion_append cs
  -- a percent sign would be read as the letter
  rw [hmore, readConversion_letter ⟨by decide, by decide, by decide⟩ (by decide), Except.ok.injEq,
    Prod.mk.injEq] at hread
  have hletter : '%' = d.letter := congrArg Conversion.letter hread.1
  have hmem := d.letter_mem
  rw [← hletter] at hmem
  exact absurd hmem (by decide)

end Directive

/-! ## §3. Reading a template. -/

theorem readFrom_append (taken cs : List Char) :
    Template.readFrom taken.length (taken ++ cs) = Template.read cs := by
  induction taken with
  | nil => rfl
  | cons c taken ih => exact ih

theorem read_cons {c : Char} (h : c ≠ '%') (cs : List Char) :
    Template.read (c :: cs) = (Template.read cs).push (.literal c) :=
  if_pos h

theorem read_percent (cs : List Char) :
    Template.read ('%' :: '%' :: cs) = (Template.read cs).push .percent := rfl

theorem read_conversion {cs taken rest : List Char} {c : Conversion} (hcs : cs = taken ++ rest)
    (hhead : cs.head? ≠ some '%') (h : readConversion cs = .ok (c, rest)) :
    Template.read ('%' :: cs) = (Template.read rest).push (.conversion c) := by
  have hskip : cs.length - rest.length = taken.length := by
    rw [hcs, List.length_append, Nat.add_sub_cancel]
  unfold Template.read
  rw [Template.readFrom, if_neg (by simp), if_neg hhead, h]
  simp only
  rw [hskip, hcs, readFrom_append]
  rfl

/-- More segments in front. -/
def Template.prepend (segments : List Segment) (template : Template) : Template :=
  (segments ++ template.1, template.2)

theorem read_part (part : Part) (cs : List Char) :
    Template.read (part.text ++ cs) = (Template.read cs).prepend part.segments := by
  cases part with
  | literal text free =>
      induction text with
      | nil => rfl
      | cons c text ih =>
          rw [List.mem_cons, not_or] at free
          show Template.read (c :: (text ++ cs)) = _
          rw [read_cons (Ne.symm free.1)]
          exact congrArg _ (ih free.2)
  | percent => exact read_percent cs
  | directive d => exact read_conversion rfl (d.head?_body cs) (d.readConversion_append cs)

/-- **A template is read as what its parts mean.** -/
theorem read_source (parts : List Part) :
    Template.read (source parts) = (parts.flatMap Part.segments, none) := by
  induction parts with
  | nil => rfl
  | cons part parts ih =>
      show Template.read (part.text ++ source parts) = _
      rw [read_part, ih]
      rfl

end MessageCatalog.Format
