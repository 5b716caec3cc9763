/-
  MessageCatalog.Proofs.Format.Integers
  ────────────────────────────────
  **INTEGERS IN A FIELD.**

  An integer is written with or without a sign, in base 10, 16, 8 or 2, and its field is filled up
  with spaces or zeros on either side.  What is printed can still be read: between the spaces there
  is one number, and it is the argument.  The zeros are the point, since they belong to the number:

      %05d     zeros behind the sign        -0042
      %-05d    no zeros but spaces          -42
      %-05x    zeros behind the digits      2a000, which is another number (`pad_zeros_behind`)

  The law leaves out the last kind only.
-/
import Mathlib.Algebra.Group.Int.Defs
import MessageCatalog.Proofs.Format.Filling
import MessageCatalog.Proofs.Text.Number

namespace MessageCatalog.Format

open MessageCatalog.Text MessageCatalog.Decimal

/-! ## §1. Numbers with a sign. -/

/-- The integer that a text spells: a sign, if there is one, and at least one digit. -/
def readInteger? (base : Nat) (cs : List Char) : Option Int :=
  let (negative, ds) := takeSign cs
  (readInBase? base ds).map fun n => if negative then -(n : Int) else n

/-- A number as it is written in a base. -/
inductive Writes (base : Nat) : List Char → Int → Prop
  | bare {ds : List Char} {n : Nat} (spells : Spells base ds n) : Writes base ds n
  | plus {ds : List Char} {n : Nat} (spells : Spells base ds n) : Writes base ('+' :: ds) n
  | minus {ds : List Char} {n : Nat} (spells : Spells base ds n) : Writes base ('-' :: ds) (-n)

/-- A number is not taken for a sign. -/
theorem takeSign_of_spells {base n : Nat} {ds : List Char} (h : Spells base ds n) :
    takeSign ds = (false, ds) := by
  unfold takeSign
  split
  next => exact absurd List.mem_cons_self (h.not_mem (by decide))
  next => exact absurd List.mem_cons_self (h.not_mem (by decide))
  next => rfl

section Writes

variable {base : Nat} {cs : List Char} {z : Int}

/-- **What is written is read back.** -/
theorem Writes.readInteger?_eq (h : Writes base cs z) : readInteger? base cs = some z := by
  cases h with
  | bare spells =>
      unfold readInteger?
      rw [takeSign_of_spells spells]
      simp [spells.readInBase?_eq]
  | plus spells => simp [readInteger?, takeSign, spells.readInBase?_eq]
  | minus spells => simp [readInteger?, takeSign, spells.readInBase?_eq]

theorem Writes.space_not_mem (h : Writes base cs z) : ' ' ∉ cs := by
  cases h with
  | bare spells => exact spells.not_mem (by decide)
  | plus spells => simpa using spells.not_mem (by decide)
  | minus spells => simpa using spells.not_mem (by decide)

end Writes

/-! ## §2. The unpadded text. -/

/-- The letters of the conversions that write an integer. -/
def integerLetters : List Char := "diuxXob".toList

/-- The base that a conversion writes in. -/
def radix (letter : Char) : Nat :=
  match letter with
  | 'x' | 'X' => 16
  | 'o' => 8
  | 'b' => 2
  | _ => 10

/-- The number that a conversion shows: only `d` and `i` show negative ones. -/
def denoted (letter : Char) (v : Int64) : Int :=
  if letter = 'd' ∨ letter = 'i' then v.toInt else v.toInt % 2 ^ 64

theorem one_lt_radix (letter : Char) : 1 < radix letter := by
  unfold radix
  split
  all_goals
    decide

theorem radix_le (letter : Char) : radix letter ≤ 16 := by
  unfold radix
  split
  all_goals
    decide

theorem toNat_toUInt64 (v : Int64) : (v.toUInt64.toNat : Int) = v.toInt % 2 ^ 64 := by
  have hcond : v.toInt = if 2 * v.toUInt64.toNat < 2 ^ 64 then (v.toUInt64.toNat : Int)
      else (v.toUInt64.toNat : Int) - 2 ^ 64 := BitVec.toInt_eq_toNat_cond v.toBitVec
  have hlt : v.toUInt64.toNat < 2 ^ 64 := v.toUInt64.toBitVec.isLt
  split at hcond
  all_goals
    omega

/-- A digit has its value in either case. -/
theorem digitIn?_digitChar : ∀ base ≤ 16, ∀ d < base,
    digitIn? base (Nat.digitChar d) = some d
      ∧ digitIn? base (Nat.digitChar d).toUpper = some d := by
  decide

theorem spells_toDigits {base : Nat} (hbase : 1 < base) (hle : base ≤ 16) (n : Nat) :
    Spells base (Nat.toDigits base n) n := by
  have hspells := spells_map_toDigits hbase id (fun d hd => (digitIn?_digitChar base hle d hd).1) n
  rwa [List.map_id] at hspells

theorem spells_upper {base : Nat} (hbase : 1 < base) (hle : base ≤ 16) (n : Nat) :
    Spells base (upper (Nat.toDigits base n)) n :=
  spells_map_toDigits hbase Char.toUpper (fun d hd => (digitIn?_digitChar base hle d hd).2) n

theorem spells_digits (n : Nat) : Spells 10 (digits n) n :=
  spells_toDigits (by decide) (by decide) n

theorem writes_decimal (z : Int) : Writes 10 (decimal z) z := by
  unfold decimal
  split
  next hneg =>
    have hminus := Writes.minus (spells_digits z.natAbs)
    rwa [show -(z.natAbs : Int) = z by omega] at hminus
  next hpos =>
    have hbare := Writes.bare (spells_digits z.natAbs)
    rwa [show (z.natAbs : Int) = z by omega] at hbare

/-- A decimal number is the same with the sign that the conversion asks for. -/
theorem writes_withSign (c : Conversion) (v : Int64) :
    Writes 10 (c.withSign (decide (v < 0)) (decimal v.toInt)) v.toInt := by
  unfold Conversion.withSign
  split
  next hplus =>
    have hpos : 0 ≤ v.toInt := by
      simp only [Bool.and_eq_true, Bool.not_eq_true', decide_eq_false_iff_not,
        Int64.lt_iff_toInt_lt] at hplus
      simpa using hplus.2
    have hbare := Writes.plus (spells_digits v.toInt.natAbs)
    unfold decimal
    rw [if_neg (by omega)]
    rwa [show (v.toInt.natAbs : Int) = v.toInt by omega] at hbare
  next => exact writes_decimal v.toInt

/-- A conversion that shows no sign writes the two's complement. -/
theorem convert_unsigned {c : Conversion} (h : c.letter ∈ "uxXob".toList) (v : Int64) :
    ∃ body, c.convert (.integer v) = .ok body
      ∧ Spells (radix c.letter) body v.toUInt64.toNat := by
  obtain ⟨number, flags, width, precision, letter⟩ := c
  have hletter : letter ∈ ['u', 'x', 'X', 'o', 'b'] := h
  simp only [List.mem_cons, List.not_mem_nil, or_false] at hletter
  rcases hletter with rfl | rfl | rfl | rfl | rfl
  · exact ⟨_, rfl, spells_toDigits (one_lt_radix _) (radix_le _) _⟩
  · exact ⟨_, rfl, spells_toDigits (one_lt_radix _) (radix_le _) _⟩
  · exact ⟨_, rfl, spells_upper (one_lt_radix _) (radix_le _) _⟩
  · exact ⟨_, rfl, spells_toDigits (one_lt_radix _) (radix_le _) _⟩
  · exact ⟨_, rfl, spells_toDigits (one_lt_radix _) (radix_le _) _⟩

/-- **An integer conversion writes the number that it denotes**, and writes it without a sign
unless it is a decimal one. -/
theorem convert_integer {c : Conversion} (h : c.letter ∈ integerLetters) (v : Int64) :
    ∃ body, c.convert (.integer v) = .ok body
      ∧ Writes (radix c.letter) body (denoted c.letter v)
      ∧ (c.isNumeric = false → ∃ n : Nat, Spells (radix c.letter) body n
          ∧ denoted c.letter v = n) := by
  by_cases hsigned : c.letter = 'd' ∨ c.letter = 'i'
  · obtain ⟨number, flags, width, precision, letter⟩ := c
    have hwrites := writes_withSign ⟨number, flags, width, precision, letter⟩ v
    rcases hsigned with rfl | rfl
    · exact ⟨_, rfl, hwrites, fun hnumeric => nomatch hnumeric⟩
    · exact ⟨_, rfl, hwrites, fun hnumeric => nomatch hnumeric⟩
  · have hunsigned : ∀ letter ∈ integerLetters, ¬(letter = 'd' ∨ letter = 'i') →
        letter ∈ "uxXob".toList := List.all_iff_forall_prop.1 (by decide)
    obtain ⟨body, hbody, hspells⟩ := convert_unsigned (hunsigned _ h hsigned) v
    have hdenoted : denoted c.letter v = v.toUInt64.toNat := by
      rw [denoted, if_neg hsigned, toNat_toUInt64]
    refine ⟨body, hbody, ?_, fun _ => ⟨_, hspells, hdenoted⟩⟩
    rw [hdenoted]
    exact .bare hspells

/-! ## §3. The field. -/

/-- **A field is as wide as it is asked to be**, or as its text. -/
theorem length_pad (c : Conversion) (body : List Char) :
    (c.pad body).length = max c.width body.length := by
  unfold Conversion.pad
  extract_lets missing zeros
  clear_value zeros
  split
  next =>
    rw [List.length_append, List.length_replicate]
    omega
  next =>
    split
    all_goals
      simp only [missing, List.length_cons, List.length_append, List.length_replicate]
      omega

/-- What a search finds, or else falls back on. -/
theorem getD_findSome? {α β : Type} {f : α → Option β} {xs : List α} {y : β} {p : β → Prop}
    (hy : p y) (h : ∀ x ∈ xs, ∀ z ∈ f x, p z) : p ((xs.findSome? f).getD y) := by
  cases hfound : xs.findSome? f with
  | none => exact hy
  | some z =>
      obtain ⟨x, hx, hz⟩ := List.exists_of_findSome?_eq_some hfound
      exact h x hx z hz

/-- Only spaces or zeros fill a field up, as long as no character is quoted. -/
theorem fill_of_not_quoted {d : Directive} (h : ∀ c, .quoted c ∉ d.marks) :
    d.conversion.fill = ' ' ∨ d.conversion.fill = '0' := by
  refine getD_findSome? (p := fun c => c = ' ' ∨ c = '0') (Or.inl rfl) ?_
  intro flag hflag c hc
  obtain ⟨mark, hmark, rfl⟩ := List.mem_map.1 (List.mem_reverse.1 hflag)
  cases mark with
  | minus => cases hc
  | plus => cases hc
  | zero =>
      cases hc
      exact Or.inr rfl
  | space =>
      cases hc
      exact Or.inl rfl
  | quoted c' => exact absurd hmark (h c')

/-- **A field shows the number between spaces.**  Zeros stand only where they belong to it: behind
the sign of a decimal number, or in front of digits that have no sign. -/
theorem pad_writes {c : Conversion} {body : List Char} {base : Nat} {z : Int} (hbase : 1 < base)
    (h : Writes base body z) (hfill : c.fill = ' ' ∨ c.fill = '0')
    (hbare : c.isNumeric = false → ∃ n : Nat, Spells base body n ∧ z = n)
    (hleft : ¬(c.isNumeric = false ∧ c.isLeft = true ∧ c.fill = '0')) :
    ∃ before number behind, c.pad body
        = List.replicate before ' ' ++ (number ++ List.replicate behind ' ')
      ∧ Writes base number z := by
  unfold Conversion.pad
  extract_lets missing zeros
  have hzeros : c.fill = '0' → zeros = c.isNumeric := fun hzero => by simp [zeros, hzero]
  clear_value zeros
  split
  next hl =>
    have hspaces : (if zeros then ' ' else c.fill) = ' ' := by
      rcases hfill with hfill | hfill
      · simp [hfill]
      · cases hnumeric : c.isNumeric with
        | false => exact absurd ⟨hnumeric, hl, hfill⟩ hleft
        | true => simp [hzeros hfill, hnumeric]
    rw [hspaces]
    exact ⟨0, body, missing, rfl, h⟩
  next =>
    split
    next ds =>
      cases h with
      | bare spells => exact absurd (List.mem_cons_self ..) (spells.not_mem (by decide))
      | minus spells =>
          exact ⟨0, _, 0, by simp, .minus (spells.zeros hbase missing)⟩
    next ds =>
      cases h with
      | bare spells => exact absurd (List.mem_cons_self ..) (spells.not_mem (by decide))
      | plus spells =>
          exact ⟨0, _, 0, by simp, .plus (spells.zeros hbase missing)⟩
    next hminus hplus =>
      rcases hfill with hfill | hfill
      · rw [hfill]
        exact ⟨missing, body, 0, by simp, h⟩
      · -- without a sign in front the zeros belong to the digits
        have hspells : ∃ n : Nat, Spells base body n ∧ z = n := by
          cases hnumeric : c.isNumeric with
          | false => exact hbare hnumeric
          | true =>
              have htrue : zeros = true := (hzeros hfill).trans hnumeric
              cases h with
              | bare spells => exact ⟨_, spells, rfl⟩
              | plus spells => exact absurd rfl (hplus _ htrue)
              | minus spells => exact absurd rfl (hminus _ htrue)
        obtain ⟨n, spells, rfl⟩ := hspells
        rw [hfill]
        exact ⟨0, _, 0, by simp, .bare (spells.zeros hbase missing)⟩

/-- What is left out above cannot be put right: zeros behind the digits are digits. -/
theorem pad_zeros_behind {c : Conversion} {body : List Char} {base n : Nat} (hbase : 1 < base)
    (h : Spells base body n) (hnumeric : c.isNumeric = false) (hleft : c.isLeft = true)
    (hfill : c.fill = '0') : Spells base (c.pad body) (base ^ (c.width - body.length) * n) := by
  have hpad : c.pad body = body ++ List.replicate (c.width - body.length) '0' := by
    unfold Conversion.pad
    simp [hleft, hfill, hnumeric]
  rw [hpad]
  exact h.zeros_behind hbase _

theorem filter_of_between {number : List Char} (h : ' ' ∉ number) (before behind : Nat) :
    (List.replicate before ' ' ++ (number ++ List.replicate behind ' ')).filter (· ≠ ' ')
      = number := by
  have hnumber : number.filter (· ≠ ' ') = number := by
    rw [List.filter_eq_self]
    intro c hc
    have hne : c ≠ ' ' := by
      rintro rfl
      exact h hc
    simpa using hne
  simp only [List.filter_append, hnumber]
  simp

/-- A conversion alone is filled with the argument that it selects. -/
theorem sprintf_directive {d : Directive} {args : List Argument} {arg : Argument}
    {body : List Char} (harg : args[d.argument 0 - 1]? = some arg)
    (hbody : d.conversion.convert arg = .ok body) :
    sprintf (String.ofList d.text) args = .ok (String.ofList (d.conversion.pad body)) := by
  have hfills : Fills id args ([Part.directive d].map Part.item) [d.conversion.pad body] :=
    .snoc .nil (.directive harg hbody)
  have hsource : d.text = source [.directive d] := (List.append_nil _).symm
  rw [hsource, sprintf_ofList, render_read_source, render_of_fills hfills, List.flatten_singleton]
  rfl

/-- **An integer in a field is still the same integer.**  The field has the width that it is asked
to have, or that of the text; and with its spaces removed it is read back as what the conversion
denotes, unless zeros have been put behind the digits of a number in base 16, 8 or 2. -/
theorem sprintf_integer {d : Directive} {v : Int64} {args : List Argument}
    (hletter : d.letter ∈ integerLetters) (hmarks : ∀ c, .quoted c ∉ d.marks)
    (harg : args[d.argument 0 - 1]? = some (.integer v)) :
    ∃ body out, d.conversion.convert (.integer v) = .ok body
      ∧ sprintf (String.ofList d.text) args = .ok (String.ofList out)
      ∧ out.length = max (digitsValue d.width) body.length
      ∧ (¬(d.letter ∈ "xXob".toList ∧ d.conversion.isLeft = true ∧ d.conversion.fill = '0') →
          readInteger? (radix d.letter) (out.filter (· ≠ ' ')) = some (denoted d.letter v)) := by
  obtain ⟨body, hbody, hwrites, hbare⟩ := convert_integer (c := d.conversion) hletter v
  refine ⟨body, _, hbody, sprintf_directive harg hbody, length_pad _ _, ?_⟩
  intro hexcept
  have hletters : ∀ letter ∈ integerLetters, "diufFeE".toList.contains letter = false →
      letter ∈ "xXob".toList := List.all_iff_forall_prop.1 (by decide)
  obtain ⟨before, number, behind, hpad, hnumber⟩ :=
    pad_writes (one_lt_radix _) hwrites (fill_of_not_quoted hmarks) hbare
      fun ⟨hnumeric, hzeros⟩ => hexcept ⟨hletters _ hletter hnumeric, hzeros⟩
  rw [hpad, filter_of_between hnumber.space_not_mem]
  exact hnumber.readInteger?_eq

/-- Zeros behind a sign. -/
theorem sprintf_integer_five :
    sprintf "%05d" [.integer (-42)] = .ok "-0042"
      ∧ readInteger? 10 "-0042".toList = some (-42) := by
  have hselected : [Argument.integer (-42)][fiveWide.argument 0 - 1]?
      = some (.integer (-42)) := rfl
  have htext : sprintf "%05d" [.integer (-42)] = .ok "-0042" := by rfl
  obtain ⟨body, out, -, hout, -, hread⟩ :=
    sprintf_integer (d := fiveWide) (by decide) (by simp [fiveWide]) hselected
  have heq : String.ofList out = "-0042" := Except.ok.inj (hout.symm.trans htext)
  have hout : out = "-0042".toList := by rw [← heq, String.toList_ofList]
  rw [hout] at hread
  exact ⟨htext, hread (by decide)⟩

end MessageCatalog.Format
