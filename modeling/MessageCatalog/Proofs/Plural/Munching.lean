/-
  MessageCatalog.Proofs.Plural.Munching
  ────────────────────────────────
  **THE TOKEN AT THE BEGINNING OF A TEXT.**

  What a text begins with, if it is no blank, is a token or it is none, and this does not depend on
  how tokens are looked for.  `Munches symbol lexeme rest` says that `lexeme` is the token when
  `rest` follows it, `Blocks position cs fault` that there is none, and why.

      symbolAt_cases         what is read is the token there, or what blocks is reported
      Munches.unique         a text begins with one token at most
      Munches.not_blocks     and where it begins with one, nothing blocks
      symbolAt_of_munches    so every token is found
      Written.munches        a symbol that is spelled in front of a blank is the token
-/
import Mathlib.Data.List.TakeWhile
import MessageCatalog.Plural.Token
import MessageCatalog.Proofs.Text.Number

namespace MessageCatalog.Plural

open MessageCatalog.Text

/-! ## §1. How symbols are written. -/

/-- A symbol that has one spelling only. -/
def Symbol.isSign : Symbol → Bool
  | .number _ => false
  | _ => true

/-- The ways to write a symbol: a number in any digits of this value, a sign as it is spelled. -/
inductive Symbol.Written : Symbol → List Char → Prop where
  | number {value : Int64} {run : List Char} :
      run ≠ [] → (∀ c ∈ run, c.isDigit = true) → value.toInt = digitsValue run →
      Written (.number value) run
  | sign {symbol : Symbol} : symbol.isSign = true → Written symbol symbol.spelling.toList

/-- The characters of signs. -/
def signChars : List Char := "n()?:|&=!<>+-*/%".toList

theorem spelling_ne_nil {symbol : Symbol} (h : symbol.isSign = true) :
    symbol.spelling.toList ≠ [] := by
  cases symbol with
  | number value => cases h
  | operator op => cases op <;> decide
  | n | openParen | closeParen | question | colon | not => decide

theorem mem_signChars {symbol : Symbol} (h : symbol.isSign = true) {c : Char}
    (hc : c ∈ symbol.spelling.toList) : c ∈ signChars := by
  have hall : symbol.spelling.toList.all signChars.contains = true := by
    cases symbol with
    | number value => cases h
    | operator op => cases op <;> rfl
    | n | openParen | closeParen | question | colon | not => rfl
  exact List.contains_iff_mem.1 (List.all_eq_true.1 hall c hc)

/-- The blanks between tokens. -/
def blankChars : List Char := [' ', '\t', '\n', '\r', '\x0c']

theorem mem_blankChars {c : Char} (h : isSpace c = true) : c ∈ blankChars := by
  simpa [isSpace, blankChars, or_assoc] using h

theorem isDigit_of_mem_signChars {c : Char} (h : c ∈ signChars) : c.isDigit = false := by
  have hall : (signChars.all fun d => !d.isDigit) = true := rfl
  simpa using List.all_eq_true.1 hall c h

theorem isSpace_of_mem_signChars {c : Char} (h : c ∈ signChars) : isSpace c = false := by
  have hall : (signChars.all fun d => !isSpace d) = true := rfl
  simpa using List.all_eq_true.1 hall c h

theorem isSpace_of_isDigit {c : Char} (h : c.isDigit = true) : isSpace c = false := by
  have hall : (blankChars.all fun d => !d.isDigit) = true := rfl
  cases hspace : isSpace c with
  | false => rfl
  | true =>
      have hno := List.all_eq_true.1 hall c (mem_blankChars hspace)
      rw [h] at hno
      cases hno

namespace Symbol.Written

variable {symbol : Symbol} {lexeme : List Char}

theorem ne_nil (h : symbol.Written lexeme) : lexeme ≠ [] := by
  cases h with
  | number hne _ _ => exact hne
  | sign hsign => exact spelling_ne_nil hsign

/-- A symbol is written in digits or in characters of signs. -/
theorem of_mem (h : symbol.Written lexeme) {c : Char} (hc : c ∈ lexeme) :
    c.isDigit = true ∨ c ∈ signChars := by
  cases h with
  | number _ hdigits _ => exact Or.inl (hdigits c hc)
  | sign hsign => exact Or.inr (mem_signChars hsign hc)

/-- No blank stands within a token. -/
theorem isSpace_eq_false (h : symbol.Written lexeme) {c : Char} (hc : c ∈ lexeme) :
    isSpace c = false := by
  rcases h.of_mem hc with hdigit | hsign
  · exact isSpace_of_isDigit hdigit
  · exact isSpace_of_mem_signChars hsign

end Symbol.Written

/-! ## §2. Signs. -/

/-- A sign that is found stands there. -/
theorem exists_of_sign? {cs : List Char} {symbol : Symbol} {width : Nat}
    (h : sign? cs = some (symbol, width)) :
    symbol.isSign = true ∧ ∃ rest, cs = symbol.spelling.toList ++ rest
      ∧ width = symbol.spelling.toList.length := by
  unfold sign? at h
  split at h
  all_goals
    cases h
  -- one case is left for each sign
  all_goals
    exact ⟨rfl, _, rfl, rfl⟩

/-- Signs that an equals sign makes longer are found with it or without it. -/
theorem exists_sign?_of_lengthened {c : Char} (hc : c ∈ ['!', '<', '>']) (rest : List Char) :
    ∃ found width, sign? (c :: rest) = some (found, width) ∧ 1 ≤ width := by
  have hsome : (sign? (c :: rest)).isSome = true := by
    simp only [List.mem_cons, List.not_mem_nil, or_false] at hc
    rcases hc with rfl | rfl | rfl
    all_goals
      cases rest with
      | nil => rfl
      | cons d rest =>
          by_cases hd : d = '='
          · rw [hd]
            rfl
          · simp [sign?, hd]
  obtain ⟨⟨found, width⟩, hfound⟩ := Option.isSome_iff_exists.1 hsome
  obtain ⟨hsign, -, -, rfl⟩ := exists_of_sign? hfound
  exact ⟨found, _, hfound, List.length_pos_iff.2 (spelling_ne_nil hsign)⟩

/-- Where a sign stands, one that is at least as long is found. -/
theorem exists_sign?_of_spelling {symbol : Symbol} (h : symbol.isSign = true) (rest : List Char) :
    ∃ found width, sign? (symbol.spelling.toList ++ rest) = some (found, width)
      ∧ symbol.spelling.toList.length ≤ width := by
  cases symbol with
  | number value => cases h
  | n | openParen | closeParen | question | colon => exact ⟨_, _, rfl, Nat.le_refl 1⟩
  | not => exact exists_sign?_of_lengthened (c := '!') (by decide) rest
  | operator op =>
      cases op with
      | or | and | eq | ne | le | ge => exact ⟨_, _, rfl, Nat.le_refl 2⟩
      | add | sub | mul | div | rem => exact ⟨_, _, rfl, Nat.le_refl 1⟩
      | lt => exact exists_sign?_of_lengthened (c := '<') (by decide) rest
      | gt => exact exists_sign?_of_lengthened (c := '>') (by decide) rest

theorem spelling_injective {symbol other : Symbol} (h : symbol.isSign = true)
    (h' : other.isSign = true) (heq : symbol.spelling.toList = other.spelling.toList) :
    symbol = other := by
  have hfound : ∀ s : Symbol, s.isSign = true →
      sign? s.spelling.toList = some (s, s.spelling.toList.length) := by
    intro s hs
    cases s with
    | number value => cases hs
    | operator op => cases op <;> rfl
    | n | openParen | closeParen | question | colon | not => rfl
  have hboth := hfound other h'
  rw [← heq, hfound symbol h] at hboth
  exact congrArg Prod.fst (Option.some.inj hboth)

/-! ## §3. The token at the beginning of a text. -/

/-- All the digits that stand in front of `rest`, at least one. -/
structure DigitRun (run rest : List Char) : Prop where
  ne_nil : run ≠ []
  digits : ∀ c ∈ run, c.isDigit = true
  maximal : ∀ c ∈ rest.head?, c.isDigit = false

/-- In front of `rest`, the lexeme is the token: it is a way to write the symbol, and nothing longer
that stands there is a way to write any.  A number takes all the digits. -/
structure Munches (symbol : Symbol) (lexeme rest : List Char) : Prop where
  written : symbol.Written lexeme
  longest {other : Symbol} {longer : List Char} :
    other.Written longer → longer <+: lexeme ++ rest → longer.length ≤ lexeme.length
  run {value : Int64} : symbol = .number value → DigitRun lexeme rest

/-- What stands at byte `position` is no token: no way to write a symbol starts with the character
there, or all the digits that stand there make a number that is too large. -/
inductive Blocks (position : Nat) : List Char → Fault → Prop where
  | char {c : Char} {cs : List Char} :
      isSpace c = false →
      (∀ (symbol : Symbol) (lexeme : List Char), symbol.Written lexeme → ¬ lexeme <+: c :: cs) →
      Blocks position (c :: cs) (.unexpectedChar c position)
  | number {run rest : List Char} :
      DigitRun run rest → maxSigned < digitsValue run →
      Blocks position (run ++ rest) (.invalidNumber (String.ofList run) position)

theorem DigitRun.takeWhile_eq {run rest : List Char} (h : DigitRun run rest) :
    (run ++ rest).takeWhile Char.isDigit = run := by
  rw [List.takeWhile_append_of_pos h.digits]
  cases rest with
  | nil => simp
  | cons c rest =>
      have hc : c.isDigit = false := h.maximal c rfl
      rw [List.takeWhile_cons_of_neg (by simp [hc]), List.append_nil]

theorem digitRun_takeWhile {c : Char} (hc : c.isDigit = true) (cs : List Char) :
    DigitRun ((c :: cs).takeWhile Char.isDigit) ((c :: cs).dropWhile Char.isDigit) where
  ne_nil := by simp [List.takeWhile_cons_of_pos hc]
  digits := fun _ hd => List.mem_takeWhile_imp hd
  maximal := by
    intro d hd
    have hhead := List.head?_dropWhile_not Char.isDigit (c :: cs)
    rw [Option.mem_def.1 hd] at hhead
    exact hhead

/-- Digits that stand at the beginning of a text belong to the run. -/
theorem DigitRun.length_le {run rest ds : List Char} (h : DigitRun run rest)
    (hds : ∀ c ∈ ds, c.isDigit = true) (hbegins : ds <+: run ++ rest) :
    ds.length ≤ run.length := by
  obtain ⟨more, hmore⟩ := hbegins
  rw [← h.takeWhile_eq, ← hmore, List.takeWhile_append_of_pos hds, List.length_append]
  omega

/-- Behind a digit that comes first, only digits belong to a way to write a symbol. -/
theorem isDigit_of_written {symbol : Symbol} {lexeme cs : List Char} {c : Char}
    (h : symbol.Written lexeme) (hbegins : lexeme <+: c :: cs) (hc : c.isDigit = true) :
    ∀ d ∈ lexeme, d.isDigit = true := by
  cases h with
  | number _ hdigits _ => exact hdigits
  | sign hsign =>
      -- a sign would start with the digit
      obtain ⟨d, ds, hlexeme⟩ := List.exists_cons_of_ne_nil (spelling_ne_nil hsign)
      have hd : d ∈ signChars := mem_signChars hsign (by rw [hlexeme]; exact List.mem_cons_self)
      rw [hlexeme, List.cons_prefix_cons] at hbegins
      rw [← hbegins.1, isDigit_of_mem_signChars hd] at hc
      cases hc

/-- Where the first character is no digit, only a sign can stand, and it is not longer than the one
that is found. -/
theorem exists_sign?_of_written {symbol : Symbol} {lexeme cs : List Char} {c : Char}
    (h : symbol.Written lexeme) (hbegins : lexeme <+: c :: cs) (hc : c.isDigit = false) :
    ∃ found width, sign? (c :: cs) = some (found, width) ∧ lexeme.length ≤ width := by
  cases h with
  | number hne hdigits _ =>
      -- a number would start with a digit
      obtain ⟨d, ds, rfl⟩ := List.exists_cons_of_ne_nil hne
      rw [List.cons_prefix_cons] at hbegins
      rw [← hbegins.1, hdigits d List.mem_cons_self] at hc
      cases hc
  | sign hsign =>
      obtain ⟨rest, hrest⟩ := hbegins
      rw [← hrest]
      exact exists_sign?_of_spelling hsign rest

theorem munches_of_run {run rest : List Char} (h : DigitRun run rest)
    (hfits : digitsValue run ≤ maxSigned) :
    Munches (.number (Int64.ofInt (digitsValue run))) run rest where
  written := by
    refine .number h.ne_nil h.digits ?_
    have hmax : maxSigned = 2 ^ 63 - 1 := by decide
    exact Int64.toInt_ofInt_of_le (by omega) (by omega)
  longest := by
    intro other longer hlonger hbegins
    obtain ⟨c, run, rfl⟩ := List.exists_cons_of_ne_nil h.ne_nil
    exact h.length_le (isDigit_of_written hlonger hbegins (h.digits c List.mem_cons_self)) hbegins
  run := fun _ => h

theorem munches_of_sign? {c : Char} {cs : List Char} {symbol : Symbol} {width : Nat}
    (hc : c.isDigit = false) (h : sign? (c :: cs) = some (symbol, width)) :
    ∃ rest, c :: cs = symbol.spelling.toList ++ rest ∧ width = symbol.spelling.toList.length
      ∧ Munches symbol symbol.spelling.toList rest := by
  obtain ⟨hsign, rest, hrest, hwidth⟩ := exists_of_sign? h
  refine ⟨rest, hrest, hwidth, .sign hsign, ?_, ?_⟩
  · intro other longer hlonger hbegins
    rw [← hrest] at hbegins
    obtain ⟨found, width', hfound, hle⟩ := exists_sign?_of_written hlonger hbegins hc
    rw [h] at hfound
    cases hfound
    rw [← hwidth]
    exact hle
  · rintro value rfl
    cases hsign

/-- **What is read at the beginning of a text** is the token there, or what stands there is no
token and this is reported. -/
theorem symbolAt_cases (position : Nat) {c : Char} (hc : isSpace c = false) (cs : List Char) :
    (∃ symbol lexeme rest, c :: cs = lexeme ++ rest ∧ Munches symbol lexeme rest
        ∧ symbolAt position c cs = .ok (symbol, lexeme.length))
      ∨ ∃ fault, Blocks position (c :: cs) fault ∧ symbolAt position c cs = .error fault := by
  cases hdigit : c.isDigit with
  | true =>
      have hrun := digitRun_takeWhile hdigit cs
      have hsplit := List.takeWhile_append_dropWhile (p := Char.isDigit) (l := c :: cs)
      unfold symbolAt
      simp only [hdigit, if_true]
      by_cases hfits : digitsValue ((c :: cs).takeWhile Char.isDigit) ≤ maxSigned
      · exact Or.inl ⟨_, _, _, hsplit.symm, munches_of_run hrun hfits, if_pos hfits⟩
      · have hblocks : Blocks position _ _ := .number hrun (Nat.lt_of_not_le hfits)
        rw [hsplit] at hblocks
        exact Or.inr ⟨_, hblocks, if_neg hfits⟩
  | false =>
      unfold symbolAt
      simp only [hdigit, Bool.false_eq_true, if_false]
      cases hsign : sign? (c :: cs) with
      | some found =>
          obtain ⟨symbol, width⟩ := found
          obtain ⟨rest, hrest, rfl, hmunches⟩ := munches_of_sign? hdigit hsign
          exact Or.inl ⟨symbol, _, rest, hrest, hmunches, rfl⟩
      | none =>
          refine Or.inr ⟨_, .char hc ?_, rfl⟩
          -- a token would be a sign, and it would have been found
          intro symbol lexeme hwritten hbegins
          obtain ⟨found, width, hfound, -⟩ := exists_sign?_of_written hwritten hbegins hdigit
          rw [hsign] at hfound
          cases hfound

/-! ## §4. No two tokens at one place. -/

/-- A sign has a character that is no digit. -/
theorem not_digits_of_spelling {symbol : Symbol} (h : symbol.isSign = true) :
    ¬ ∀ c ∈ symbol.spelling.toList, c.isDigit = true := by
  intro hdigits
  obtain ⟨c, hc⟩ := List.exists_mem_of_ne_nil _ (spelling_ne_nil h)
  have hdigit := hdigits c hc
  rw [isDigit_of_mem_signChars (mem_signChars h hc)] at hdigit
  cases hdigit

/-- Digits write a number, and it is known. -/
theorem Symbol.Written.eq_number {symbol : Symbol} {run : List Char} (h : symbol.Written run)
    (hdigits : ∀ c ∈ run, c.isDigit = true) :
    ∃ value, symbol = .number value ∧ value.toInt = digitsValue run := by
  cases h with
  | number _ _ hvalue => exact ⟨_, rfl, hvalue⟩
  | sign hsign => exact absurd hdigits (not_digits_of_spelling hsign)

/-- What writes a symbol writes no other. -/
theorem Symbol.Written.unique {symbol other : Symbol} {lexeme : List Char}
    (h : symbol.Written lexeme) (h' : other.Written lexeme) : symbol = other := by
  cases h with
  | number _ hdigits hvalue =>
      obtain ⟨value, rfl, hvalue'⟩ := h'.eq_number hdigits
      rw [Int64.toInt_inj.1 (hvalue.trans hvalue'.symm)]
  | sign hsign =>
      generalize hlexeme : symbol.spelling.toList = lexeme at h'
      cases h' with
      | number _ hdigits _ =>
          rw [← hlexeme] at hdigits
          exact absurd hdigits (not_digits_of_spelling hsign)
      | sign hsign' => exact spelling_injective hsign hsign' hlexeme

/-- **A text begins with one token at most.** -/
theorem Munches.unique {symbol symbol' : Symbol} {lexeme lexeme' rest rest' : List Char}
    (h : Munches symbol lexeme rest) (h' : Munches symbol' lexeme' rest')
    (heq : lexeme ++ rest = lexeme' ++ rest') : symbol = symbol' ∧ lexeme = lexeme' := by
  have hle : lexeme.length ≤ lexeme'.length :=
    h'.longest h.written (by rw [← heq]; exact List.prefix_append _ _)
  have hge : lexeme'.length ≤ lexeme.length :=
    h.longest h'.written (by rw [heq]; exact List.prefix_append _ _)
  obtain ⟨rfl, -⟩ := List.append_inj heq (Nat.le_antisymm hle hge)
  exact ⟨h.written.unique h'.written, rfl⟩

/-- A text that begins with a token is not blocked. -/
theorem Munches.not_blocks {symbol : Symbol} {lexeme rest : List Char}
    (h : Munches symbol lexeme rest) {position : Nat} {fault : Fault} :
    ¬ Blocks position (lexeme ++ rest) fault := by
  intro hblocks
  generalize hcs : lexeme ++ rest = cs at hblocks
  have hbegins : lexeme <+: cs := by
    rw [← hcs]
    exact List.prefix_append lexeme rest
  cases hblocks with
  | char _ hno => exact hno symbol lexeme h.written hbegins
  | @number run behind hrun hlarge =>
      -- the token is all of the run, so that it would be the number that does not fit
      obtain ⟨c, run', hcons⟩ := List.exists_cons_of_ne_nil hrun.ne_nil
      have hc : c.isDigit = true := hrun.digits c (by rw [hcons]; exact List.mem_cons_self)
      rw [hcons] at hbegins
      obtain ⟨value, rfl, hvalue⟩ := h.written.eq_number (isDigit_of_written h.written hbegins hc)
      have hrun' := (h.run rfl).takeWhile_eq
      rw [hcs, hrun.takeWhile_eq] at hrun'
      have hmax : maxSigned = 2 ^ 63 - 1 := by decide
      have hlt := value.toInt_lt
      rw [← hrun'] at hvalue
      omega

/-- Every token is found. -/
theorem symbolAt_of_munches {symbol : Symbol} {lexeme rest cs : List Char} {c : Char}
    (h : Munches symbol lexeme rest) (hcs : c :: cs = lexeme ++ rest) (position : Nat) :
    symbolAt position c cs = .ok (symbol, lexeme.length) := by
  have hc : isSpace c = false := by
    obtain ⟨d, ds, hlexeme⟩ := List.exists_cons_of_ne_nil h.written.ne_nil
    rw [hlexeme, List.cons_append, List.cons.injEq] at hcs
    exact h.written.isSpace_eq_false (by rw [hlexeme, hcs.1]; exact List.mem_cons_self)
  -- what is read is a token there too, and there are no two
  rcases symbolAt_cases position hc cs with
    ⟨symbol', lexeme', rest', hsplit, hmunches, hread⟩ | ⟨fault, hblocks, -⟩
  · obtain ⟨rfl, rfl⟩ := hmunches.unique h (hsplit.symm.trans hcs)
    exact hread
  · rw [hcs] at hblocks
    exact absurd hblocks h.not_blocks

/-- A token stays the token when less follows it. -/
theorem Munches.cut {symbol : Symbol} {lexeme front rest : List Char}
    (h : Munches symbol lexeme (front ++ rest)) : Munches symbol lexeme front where
  written := h.written
  longest := by
    intro other longer hlonger hbegins
    refine h.longest hlonger (hbegins.trans ?_)
    rw [← List.append_assoc]
    exact List.prefix_append _ _
  run := by
    intro value hvalue
    obtain ⟨hne, hdigits, hmaximal⟩ := h.run hvalue
    refine ⟨hne, hdigits, ?_⟩
    cases front with
    | nil => simp
    | cons c front => exact hmaximal

/-! ## §5. Symbols as they are spelled. -/

/-- A symbol that is no number below zero. -/
def Symbol.IsNonnegative (symbol : Symbol) : Prop :=
  ∀ value, symbol = .number value → 0 ≤ value

/-- A symbol is written as it is spelled, unless it is a number below zero. -/
theorem Symbol.written_spelling {symbol : Symbol} (h : symbol.IsNonnegative) :
    symbol.Written symbol.spelling.toList := by
  cases hsign : symbol.isSign with
  | true => exact .sign hsign
  | false =>
      cases symbol with
      | number value =>
          obtain ⟨n, hn⟩ := Int.eq_ofNat_of_zero_le (Int64.le_iff_toInt_le.1 (h value rfl))
          have hspelling : (Symbol.number value).spelling.toList = digits n := by
            change (toString value.toInt).toList = digits n
            rw [hn]
            exact toList_toString n
          rw [hspelling]
          refine .number (digits_ne_nil n) (fun c hc => isDigit_of_mem_digits hc) ?_
          rw [digitsValue_digits, hn]
      | n | openParen | closeParen | question | colon | not | operator op => cases hsign

/-- In front of a blank, or at the end, a symbol that is written is the token. -/
theorem Symbol.Written.munches {symbol : Symbol} {lexeme rest : List Char}
    (h : symbol.Written lexeme) (hrest : ∀ c ∈ rest.head?, isSpace c = true) :
    Munches symbol lexeme rest where
  written := h
  longest := by
    intro other longer hlonger hbegins
    apply Nat.le_of_not_lt
    intro hlt
    -- something longer would go on with the blank
    obtain ⟨more, rfl⟩ : lexeme <+: longer :=
      List.prefix_of_prefix_length_le (List.prefix_append _ _) hbegins (Nat.le_of_lt hlt)
    rw [List.prefix_append_right_inj] at hbegins
    cases more with
    | nil => simp at hlt
    | cons c more =>
        obtain ⟨behind, rfl⟩ := hbegins
        have hspace : isSpace c = true := hrest c rfl
        rw [hlonger.isSpace_eq_false (by simp)] at hspace
        cases hspace
  run := by
    rintro value rfl
    cases h with
    | number hne hdigits _ =>
        refine ⟨hne, hdigits, fun c hc => ?_⟩
        have hspace := hrest c hc
        cases hdigit : c.isDigit with
        | false => rfl
        | true =>
            rw [isSpace_of_isDigit hdigit] at hspace
            cases hspace
    | sign hsign => cases hsign

end MessageCatalog.Plural
