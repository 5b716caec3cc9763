/-
  MessageCatalog.Proofs.Text.Number
  ────────────────────────────────
  **NUMERALS AND WHAT THEY SPELL.**

  The digits of a number in some base are read back as this number, in either case of the letters
  among them and with any number of zeros in front.  Where a word of limited size is read, they are
  read back unless the number exceeds the limit.
-/
import Mathlib.Algebra.Group.Nat.Defs
import MessageCatalog.Text.Hexadecimal
import MessageCatalog.Text.Number

namespace MessageCatalog.Text

/-! ## §1. Digit by digit. -/

/-- The value so far with one more digit. -/
def withDigit (base value : Nat) (c : Char) : Option Nat :=
  (digitIn? base c).map fun d => base * value + d

theorem readInBase?_eq {base : Nat} {cs : List Char} (h : cs ≠ []) :
    readInBase? base cs = cs.foldlM (withDigit base) 0 := by
  unfold readInBase?
  rw [if_neg (by simpa using h)]
  rfl

/-- **The digits of a number spell it**, also when each of them is written in another way that
has the same value. -/
theorem foldlM_map_toDigits {base : Nat} (hbase : 1 < base) {write : Char → Char}
    (hwrite : ∀ d < base, digitIn? base (write (Nat.digitChar d)) = some d) (n : Nat) :
    ((Nat.toDigits base n).map write).foldlM (withDigit base) 0 = some n := by
  induction n using Nat.strongRecOn with
  | ind n ih =>
      rw [Nat.toDigits_eq_if hbase]
      split
      next hlt => simp [withDigit, hwrite n hlt]
      next hle =>
        have hsmaller : n / base < n := Nat.div_lt_self (by omega) hbase
        have hlast := hwrite (n % base) (Nat.mod_lt n (by omega))
        rw [List.map_append, List.foldlM_append, ih _ hsmaller]
        simp [withDigit, hlast, Nat.div_add_mod]

theorem digitIn?_zero {base : Nat} (hbase : 1 < base) : digitIn? base '0' = some 0 :=
  if_pos (Nat.zero_lt_of_lt hbase)

/-- Zeros in front change nothing. -/
theorem foldlM_zeros {base : Nat} (hbase : 1 < base) (k : Nat) (cs : List Char) :
    (List.replicate k '0' ++ cs).foldlM (withDigit base) 0 = cs.foldlM (withDigit base) 0 := by
  have hzero : withDigit base 0 '0' = some 0 := by simp [withDigit, digitIn?_zero hbase]
  induction k with
  | zero => rfl
  | succ k ih =>
      rw [List.replicate_succ, List.cons_append, List.foldlM_cons, hzero]
      exact ih

/-- A text with a character that is no digit spells nothing. -/
theorem foldlM_eq_none {base : Nat} {c : Char} (hc : digitIn? base c = none) {cs : List Char}
    (h : c ∈ cs) (value : Nat) : cs.foldlM (withDigit base) value = none := by
  induction cs generalizing value with
  | nil => cases h
  | cons d cs ih =>
      rw [List.foldlM_cons]
      rcases List.mem_cons.1 h with rfl | h
      · simp [withDigit, hc]
      · cases hd : withDigit base value d with
        | none => rfl
        | some value' => exact ih h value'

/-! ## §2. Spelled numbers. -/

/-- The digits spell the number. -/
structure Spells (base : Nat) (ds : List Char) (n : Nat) : Prop where
  ne_nil : ds ≠ []
  value : ds.foldlM (withDigit base) 0 = some n

/-- What can stand around a number is no digit of it. -/
theorem digitIn?_eq_none (base : Nat) {c : Char} (h : c ∈ [' ', '+', '-']) :
    digitIn? base c = none := by
  simp only [List.mem_cons, List.not_mem_nil, or_false] at h
  rcases h with rfl | rfl | rfl
  all_goals
    exact if_neg (Nat.lt_irrefl base)

namespace Spells

variable {base : Nat} {ds : List Char} {n : Nat}

theorem readInBase?_eq (h : Spells base ds n) : readInBase? base ds = some n := by
  rw [Text.readInBase?_eq h.ne_nil, h.value]

/-- No space and no sign stands among the digits. -/
theorem not_mem (h : Spells base ds n) {c : Char} (hc : c ∈ [' ', '+', '-']) : c ∉ ds := by
  intro hmem
  have hvalue := h.value
  rw [foldlM_eq_none (digitIn?_eq_none base hc) hmem] at hvalue
  cases hvalue

theorem zeros (h : Spells base ds n) (hbase : 1 < base) (k : Nat) :
    Spells base (List.replicate k '0' ++ ds) n where
  ne_nil := by simp [h.ne_nil]
  value := by rw [foldlM_zeros hbase, h.value]

/-- Zeros behind the digits multiply the number by the base. -/
theorem zeros_behind (h : Spells base ds n) (hbase : 1 < base) (k : Nat) :
    Spells base (ds ++ List.replicate k '0') (base ^ k * n) := by
  refine ⟨by simp [h.ne_nil], ?_⟩
  induction k with
  | zero => simpa using h.value
  | succ k ih =>
      rw [List.replicate_succ', ← List.append_assoc, List.foldlM_append, ih, Nat.pow_succ,
        Nat.mul_right_comm, Nat.mul_comm _ base]
      simp [withDigit, digitIn?_zero hbase]

end Spells

/-- **A number is spelled by its digits**, also when each of them is written in another way that
has the same value. -/
theorem spells_map_toDigits {base : Nat} (hbase : 1 < base) (write : Char → Char)
    (hwrite : ∀ d < base, digitIn? base (write (Nat.digitChar d)) = some d) (n : Nat) :
    Spells base ((Nat.toDigits base n).map write) n where
  ne_nil := by simp [Nat.toDigits_ne_nil]
  value := foldlM_map_toDigits hbase hwrite n

/-! ## §3. Numbers up to a limit. -/

/-- More digits make the number no smaller. -/
theorem le_foldl_digits (cs : List Char) (value : Nat) :
    value ≤ cs.foldl (fun v c => 10 * v + digitValue c) value := by
  induction cs generalizing value with
  | nil => exact Nat.le_refl value
  | cons c cs ih =>
      have hmore := ih (10 * value + digitValue c)
      rw [List.foldl_cons]
      omega

/-- Digits are read from the left, yet it is the whole number that has to respect the limit. -/
theorem readDigits_of_digits {limit : Nat} {cs : List Char}
    (hcs : ∀ c ∈ cs, c.isDigit = true) {value : Nat} (hvalue : value ≤ limit) :
    readDigits limit value cs
      = if cs.foldl (fun v c => 10 * v + digitValue c) value ≤ limit
        then .ok (cs.foldl (fun v c => 10 * v + digitValue c) value) else .error .tooLarge := by
  induction cs generalizing value with
  | nil => rw [readDigits, List.foldl_nil, if_pos hvalue]
  | cons c cs ih =>
      rw [readDigits, if_pos (hcs c List.mem_cons_self), List.foldl_cons]
      split
      next hmore => exact ih (fun c' hc' => hcs c' (List.mem_cons_of_mem c hc')) hmore
      next hmore =>
        have hle := le_foldl_digits cs (10 * value + digitValue c)
        rw [if_neg (by omega)]

theorem readMagnitude_of_digits {limit : Nat} {cs : List Char} (hne : cs ≠ [])
    (hcs : ∀ c ∈ cs, c.isDigit = true) :
    readMagnitude limit cs
      = if digitsValue cs ≤ limit then .ok (digitsValue cs) else .error .tooLarge := by
  cases cs with
  | nil => exact absurd rfl hne
  | cons c cs => exact readDigits_of_digits hcs (Nat.zero_le limit)

theorem isDigit_of_mem_digits {n : Nat} {c : Char} (h : c ∈ digits n) : c.isDigit = true :=
  Nat.isDigit_of_mem_toDigits (by decide) (by decide) h

theorem digitsValue_digits (n : Nat) : digitsValue (digits n) = n :=
  Nat.ofDigitChars_toDigits (by decide) (by decide)

/-- A number is printed in its digits. -/
theorem toList_toString (n : Nat) : (toString n).toList = digits n := by
  rw [Nat.toString_eq_repr, Nat.repr_eq_ofList_toDigits, String.toList_ofList, digits]

theorem digits_ne_nil (n : Nat) : digits n ≠ [] :=
  Nat.toDigits_ne_nil

/-- **A number is read back from its digits** unless it exceeds the limit. -/
theorem readMagnitude_digits (limit n : Nat) :
    readMagnitude limit (digits n) = if n ≤ limit then .ok n else .error .tooLarge := by
  rw [readMagnitude_of_digits (digits_ne_nil n) fun _ hc => isDigit_of_mem_digits hc,
    digitsValue_digits]

end MessageCatalog.Text
