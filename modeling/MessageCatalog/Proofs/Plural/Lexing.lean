/-
  MessageCatalog.Proofs.Plural.Lexing
  ────────────────────────────────
  **A TEXT AND ITS TOKENS.**

  A text is read from the left: blanks are passed over, tokens are taken, and the first place that
  has neither ends it.  `Lexes position front rest tokens` says that the tokens are read off `front`
  with `rest` in sight, since how far a token goes depends on what follows it.

      Lexes.scan_eq            the scan takes what can be read and goes on with the rest
      exists_lexes             a text can be read to its end, or up to what blocks
      scan_eq_ok_iff           so the tokens of a text are those that are read off it
      exists_blocks_of_scan    and a text that is refused is read up to the place reported

  Positions are counted in bytes.  A text is seen as its bytes in `Tokenized`: where tokens stand,
  that they do not overlap, and that there are only blanks between them.
-/
import MessageCatalog.Proofs.Plural.Munching
import MessageCatalog.Proofs.Text.Utf8

namespace MessageCatalog.Plural

open MessageCatalog.Text

/-! ## §1. The tokens in front of a text. -/

/-- From byte `position` on, the tokens are read off the characters `front` when `rest` follows
them: these are blanks and lexemes, and each lexeme is the token with all the text behind it in
sight, the rest included. -/
inductive Lexes : (position : Nat) → (front rest : List Char) → List Token → Prop where
  | nil {position : Nat} {rest : List Char} : Lexes position [] rest []
  | blank {position : Nat} {c : Char} {front rest : List Char} {tokens : List Token} :
      isSpace c = true → Lexes (position + 1) front rest tokens →
      Lexes position (c :: front) rest tokens
  | token {position : Nat} {symbol : Symbol} {lexeme front rest : List Char} {tokens : List Token} :
      Munches symbol lexeme (front ++ rest) →
      Lexes (position + (Utf8.encode lexeme).length) front rest tokens →
      Lexes position (lexeme ++ front) rest (⟨symbol, position⟩ :: tokens)

/-- The blanks between tokens, as bytes. -/
def blankBytes : List UInt8 := [0x20, 0x09, 0x0A, 0x0D, 0x0C]

theorem encodeChar_of_isSpace {c : Char} (h : isSpace c = true) :
    ∃ b ∈ blankBytes, String.utf8EncodeChar c = [b] := by
  have hall : (blankChars.all fun d => blankBytes.any fun b => String.utf8EncodeChar d == [b])
      = true := rfl
  obtain ⟨b, hb, hencode⟩ := List.any_eq_true.1 (List.all_eq_true.1 hall c (mem_blankChars h))
  exact ⟨b, hb, eq_of_beq hencode⟩

theorem utf8Size_of_isSpace {c : Char} (h : isSpace c = true) : c.utf8Size = 1 := by
  obtain ⟨b, -, hencode⟩ := encodeChar_of_isSpace h
  rw [← String.length_utf8EncodeChar, hencode]
  rfl

/-- Characters of a token that has been read are passed over. -/
theorem scan_skip (position : Nat) (front rest : List Char) :
    scan position front.length (front ++ rest)
      = scan (position + (Utf8.encode front).length) 0 rest := by
  induction front generalizing position with
  | nil => rfl
  | cons c front ih =>
      rw [Utf8.length_encode_cons, ← Nat.add_assoc, ← ih]
      rfl

theorem scan_blank {c : Char} (hc : isSpace c = true) (position : Nat) (cs : List Char) :
    scan position 0 (c :: cs) = scan (position + 1) 0 cs := by
  rw [scan, if_pos hc]

theorem scan_blocked {position : Nat} {c : Char} {cs : List Char} {fault : Fault}
    (hc : isSpace c = false) (h : symbolAt position c cs = .error fault) :
    scan position 0 (c :: cs) = .error fault := by
  rw [scan, hc, h]
  rfl

/-- A token is read, and the scan goes on behind it. -/
theorem scan_token {symbol : Symbol} {lexeme rest : List Char} (h : Munches symbol lexeme rest)
    (position : Nat) :
    scan position 0 (lexeme ++ rest)
      = (scan (position + (Utf8.encode lexeme).length) 0 rest).map (⟨symbol, position⟩ :: ·) := by
  obtain ⟨c, more, rfl⟩ := List.exists_cons_of_ne_nil h.written.ne_nil
  have hc : isSpace c = false := h.written.isSpace_eq_false List.mem_cons_self
  have hread : symbolAt position c (more ++ rest) = .ok (symbol, more.length + 1) :=
    symbolAt_of_munches h rfl position
  rw [List.cons_append, scan, hc, hread]
  simp only [Bool.false_eq_true, if_false, Nat.add_sub_cancel]
  rw [scan_skip, Utf8.length_encode_cons, Nat.add_assoc]
  cases scan (position + (c.utf8Size + (Utf8.encode more).length)) 0 rest with
  | error fault => rfl
  | ok tokens => rfl

/-- **What can be read off the front is read**, and the scan goes on with what follows. -/
theorem Lexes.scan_eq {position : Nat} {front rest : List Char} {tokens : List Token}
    (h : Lexes position front rest tokens) :
    scan position 0 (front ++ rest)
      = (scan (position + (Utf8.encode front).length) 0 rest).map (tokens ++ ·) := by
  induction h with
  | @nil position rest =>
      change scan position 0 rest = (scan position 0 rest).map ([] ++ ·)
      cases scan position 0 rest with
      | error fault => rfl
      | ok tokens => rfl
  | @blank position c front rest tokens hc _ ih =>
      rw [List.cons_append, scan_blank hc, ih, Utf8.length_encode_cons, utf8Size_of_isSpace hc,
        Nat.add_assoc]
  | @token position symbol lexeme front rest tokens hmunches _ ih =>
      rw [List.append_assoc, scan_token hmunches, ih, Utf8.encode_append, List.length_append,
        Nat.add_assoc]
      cases scan (position + ((Utf8.encode lexeme).length + (Utf8.encode front).length)) 0 rest with
      | error fault => rfl
      | ok tokens => rfl

/-- **A text is read to its end, or up to a place without a token.** -/
theorem exists_lexes (cs : List Char) (position : Nat) :
    ∃ front rest tokens, cs = front ++ rest ∧ Lexes position front rest tokens
      ∧ (rest = [] ∨ ∃ fault, Blocks (position + (Utf8.encode front).length) rest fault
          ∧ scan (position + (Utf8.encode front).length) 0 rest = .error fault) := by
  -- on the length, since a token takes any number of characters
  induction hn : cs.length using Nat.strongRecOn generalizing cs position with
  | ind n ih =>
      subst hn
      cases cs with
      | nil => exact ⟨[], [], [], rfl, .nil, Or.inl rfl⟩
      | cons c cs =>
          cases hc : isSpace c with
          | true =>
              obtain ⟨front, rest, tokens, rfl, hlexes, hend⟩ :=
                ih cs.length (Nat.lt_succ_self _) cs (position + 1) rfl
              refine ⟨c :: front, rest, tokens, rfl, .blank hc hlexes, ?_⟩
              rw [Utf8.length_encode_cons, utf8Size_of_isSpace hc, ← Nat.add_assoc]
              exact hend
          | false =>
              rcases symbolAt_cases position hc cs with
                ⟨symbol, lexeme, behind, hsplit, hmunches, -⟩ | ⟨fault, hblocks, hread⟩
              · have hshorter : behind.length < (c :: cs).length := by
                  have hpos := List.length_pos_iff.2 hmunches.written.ne_nil
                  rw [hsplit, List.length_append]
                  omega
                obtain ⟨front, rest, tokens, rfl, hlexes, hend⟩ :=
                  ih behind.length hshorter behind _ rfl
                refine ⟨lexeme ++ front, rest, ⟨symbol, position⟩ :: tokens, ?_,
                  .token hmunches hlexes, ?_⟩
                · rw [hsplit, List.append_assoc]
                · rw [Utf8.encode_append, List.length_append, ← Nat.add_assoc]
                  exact hend
              · exact ⟨[], c :: cs, [], rfl, .nil, Or.inr ⟨fault, hblocks, scan_blocked hc hread⟩⟩

/-- **The tokens of a text** are those that are read off it to its end. -/
theorem scan_eq_ok_iff {cs : List Char} {position : Nat} {tokens : List Token} :
    scan position 0 cs = .ok tokens ↔ Lexes position cs [] tokens := by
  have hend : ∀ {cs tokens}, Lexes position cs [] tokens → scan position 0 cs = .ok tokens := by
    intro cs tokens hlexes
    have hscan := hlexes.scan_eq
    rw [List.append_nil] at hscan
    rw [hscan]
    exact congrArg Except.ok (List.append_nil tokens)
  constructor
  · intro h
    obtain ⟨front, rest, tokens', rfl, hlexes, rfl | ⟨fault, -, hfault⟩⟩ := exists_lexes cs position
    · -- what can be read to the end is what is read, so these are the tokens
      rw [List.append_nil] at h ⊢
      rw [hend hlexes, Except.ok.injEq] at h
      rw [← h]
      exact hlexes
    · rw [hlexes.scan_eq, hfault] at h
      cases h
  · exact hend

/-- **A text that is refused** is read up to a place without a token, and this is reported. -/
theorem exists_blocks_of_scan {cs : List Char} {position : Nat} {fault : Fault}
    (h : scan position 0 cs = .error fault) :
    ∃ front rest tokens, cs = front ++ rest ∧ Lexes position front rest tokens
      ∧ Blocks (position + (Utf8.encode front).length) rest fault := by
  obtain ⟨front, rest, tokens, rfl, hlexes, rfl | ⟨fault', hblocks, hfault⟩⟩ :=
    exists_lexes cs position
  · rw [hlexes.scan_eq] at h
    cases h
  · rw [hlexes.scan_eq, hfault] at h
    cases h
    exact ⟨front, rest, tokens, rfl, hlexes, hblocks⟩

/-- What is read off the front of a text is read off it alone. -/
theorem Lexes.cut {position : Nat} {front rest : List Char} {tokens : List Token}
    (h : Lexes position front rest tokens) : Lexes position front [] tokens := by
  induction h with
  | nil => exact .nil
  | blank hc _ ih => exact .blank hc ih
  | token hmunches _ ih => exact .token (by rw [List.append_nil]; exact hmunches.cut) ih

/-! ## §2. The bytes of a text. -/

/-- In a text that starts at byte `position`, the lexeme stands at the byte of the token, as the
token that comes first there. -/
def Occupies (position : Nat) (text : List Char) (token : Token) (lexeme : List Char) : Prop :=
  ∃ before after, text = before ++ (lexeme ++ after)
    ∧ token.position = position + (Utf8.encode before).length
    ∧ Munches token.symbol lexeme after

/-- A token stands where it stands, also with more in front of the text. -/
theorem Occupies.behind {front text lexeme : List Char} {position : Nat} {token : Token}
    (h : Occupies (position + (Utf8.encode front).length) text token lexeme) :
    Occupies position (front ++ text) token lexeme := by
  obtain ⟨before, after, rfl, hposition, hmunches⟩ := h
  refine ⟨front ++ before, after, (List.append_assoc _ _ _).symm, ?_, hmunches⟩
  rw [hposition, Utf8.encode_append, List.length_append, Nat.add_assoc]

/-- A token stands where it stands, also behind one more blank. -/
theorem Occupies.behind_blank {c : Char} (hc : isSpace c = true) {text lexeme : List Char}
    {position : Nat} {token : Token} (h : Occupies (position + 1) text token lexeme) :
    Occupies position (c :: text) token lexeme := by
  have hone : (Utf8.encode [c]).length = 1 := by
    rw [Utf8.length_encode_cons, utf8Size_of_isSpace hc]
    rfl
  rw [← hone] at h
  exact h.behind

theorem Occupies.position_lt {position : Nat} {text lexeme : List Char} {token : Token}
    (h : Occupies position text token lexeme) :
    token.position < token.position + (Utf8.encode lexeme).length := by
  obtain ⟨before, after, -, -, hmunches⟩ := h
  obtain ⟨c, more, rfl⟩ := List.exists_cons_of_ne_nil hmunches.written.ne_nil
  have hsize := c.utf8Size_pos
  rw [Utf8.length_encode_cons]
  omega

/-- The first token is over where the second one starts. -/
def EndsBefore (position : Nat) (text : List Char) (first second : Token) : Prop :=
  ∃ lexeme, Occupies position text first lexeme
    ∧ first.position + (Utf8.encode lexeme).length ≤ second.position

theorem EndsBefore.position_lt {position : Nat} {text : List Char} {first second : Token}
    (h : EndsBefore position text first second) : first.position < second.position := by
  obtain ⟨lexeme, hoccupies, hle⟩ := h
  exact Nat.lt_of_lt_of_le hoccupies.position_lt hle

namespace Lexes

variable {position : Nat} {front rest : List Char} {tokens : List Token}

/-- Every token stands in the text. -/
theorem occupies (h : Lexes position front rest tokens) :
    ∀ token ∈ tokens, ∃ lexeme, Occupies position (front ++ rest) token lexeme := by
  induction h with
  | nil => simp
  | blank hc _ ih =>
      intro token htoken
      obtain ⟨lexeme, hlexeme⟩ := ih token htoken
      exact ⟨lexeme, hlexeme.behind_blank hc⟩
  | @token position symbol lexeme front rest tokens hmunches _ ih =>
      intro token htoken
      rw [List.append_assoc]
      rcases List.mem_cons.1 htoken with rfl | htoken
      · exact ⟨lexeme, [], front ++ rest, rfl, rfl, hmunches⟩
      · obtain ⟨lexeme', hlexeme'⟩ := ih token htoken
        exact ⟨lexeme', hlexeme'.behind⟩

/-- **Tokens stand one behind the other.** -/
theorem pairwise_endsBefore (h : Lexes position front rest tokens) :
    (∀ token ∈ tokens, position ≤ token.position)
      ∧ tokens.Pairwise (EndsBefore position (front ++ rest)) := by
  induction h with
  | nil => simp
  | blank hc _ ih =>
      obtain ⟨hle, hpairwise⟩ := ih
      refine ⟨fun token htoken => Nat.le_of_succ_le (hle token htoken), hpairwise.imp ?_⟩
      rintro first second ⟨lexeme, hoccupies, hend⟩
      exact ⟨lexeme, hoccupies.behind_blank hc, hend⟩
  | @token position symbol lexeme front rest tokens hmunches _ ih =>
      obtain ⟨hle, hpairwise⟩ := ih
      rw [List.append_assoc, List.forall_mem_cons, List.pairwise_cons]
      refine ⟨⟨Nat.le_refl _, fun token htoken => ?_⟩, fun token htoken => ?_, hpairwise.imp ?_⟩
      · exact Nat.le_trans (Nat.le_add_right _ _) (hle token htoken)
      · exact ⟨lexeme, ⟨[], front ++ rest, rfl, rfl, hmunches⟩, hle token htoken⟩
      · rintro first second ⟨lexeme', hoccupies, hend⟩
        exact ⟨lexeme', hoccupies.behind, hend⟩

/-- **Every byte belongs to a token or is a blank.** -/
theorem covers (h : Lexes position front rest tokens) {i : Nat} {byte : UInt8}
    (hbyte : (Utf8.encode front)[i]? = some byte) :
    (∃ token ∈ tokens, ∃ lexeme, Occupies position (front ++ rest) token lexeme
        ∧ token.position ≤ position + i
        ∧ position + i < token.position + (Utf8.encode lexeme).length)
      ∨ byte ∈ blankBytes := by
  induction h generalizing i with
  | nil => simp at hbyte
  | @blank position c front rest tokens hc _ ih =>
      obtain ⟨b, hb, hencode⟩ := encodeChar_of_isSpace hc
      rw [Utf8.encode_cons, hencode] at hbyte
      cases i with
      | zero =>
          cases hbyte
          exact Or.inr hb
      | succ i =>
          rcases ih hbyte with ⟨token, htoken, lexeme, hoccupies, hle, hlt⟩ | hblank
          · exact Or.inl ⟨token, htoken, lexeme, hoccupies.behind_blank hc, by omega, by omega⟩
          · exact Or.inr hblank
  | @token position symbol lexeme front rest tokens hmunches _ ih =>
      rw [Utf8.encode_append] at hbyte
      rw [List.append_assoc]
      -- the byte is one of the lexeme, or one of what is read behind it
      by_cases hi : i < (Utf8.encode lexeme).length
      · exact Or.inl ⟨_, List.mem_cons_self, lexeme, ⟨[], front ++ rest, rfl, rfl, hmunches⟩,
          Nat.le_add_right _ _, Nat.add_lt_add_left hi _⟩
      · rw [List.getElem?_append_right (Nat.le_of_not_lt hi)] at hbyte
        rcases ih hbyte with ⟨token, htoken, lexeme', hoccupies, hle, hlt⟩ | hblank
        · exact Or.inl ⟨token, List.mem_cons_of_mem _ htoken, lexeme', hoccupies.behind,
            by omega, by omega⟩
        · exact Or.inr hblank

end Lexes

/-! ## §3. Symbols between blanks. -/

/-- The symbols, spelled, each behind its gap, and `behind` after the last one. -/
def laidOut : List (String × Symbol) → String → String
  | [], behind => behind
  | (gap, symbol) :: more, behind => gap ++ (symbol.spelling ++ laidOut more behind)

/-- The tokens of symbols that are laid out from byte `position` on. -/
def placed (position : Nat) : List (String × Symbol) → List Token
  | [] => []
  | (gap, symbol) :: more =>
      ⟨symbol, position + gap.utf8ByteSize⟩
        :: placed (position + gap.utf8ByteSize + symbol.spelling.utf8ByteSize) more

/-- All characters of the text are blanks between tokens. -/
def IsGap (gap : String) : Prop :=
  ∀ c ∈ gap.toList, isSpace c = true

theorem map_symbol_placed (position : Nat) (pieces : List (String × Symbol)) :
    (placed position pieces).map Token.symbol = pieces.map Prod.snd := by
  induction pieces generalizing position with
  | nil => rfl
  | cons piece pieces ih =>
      rw [placed, List.map_cons, List.map_cons, ih]

theorem Lexes.gap {gap front rest : List Char} (hgap : ∀ c ∈ gap, isSpace c = true)
    {position : Nat} {tokens : List Token}
    (h : Lexes (position + (Utf8.encode gap).length) front rest tokens) :
    Lexes position (gap ++ front) rest tokens := by
  induction gap generalizing position with
  | nil => exact h
  | cons c gap ih =>
      rw [List.forall_mem_cons] at hgap
      rw [Utf8.length_encode_cons, utf8Size_of_isSpace hgap.1, ← Nat.add_assoc] at h
      exact .blank hgap.1 (ih hgap.2 h)

/-- A symbol that is laid out is followed by a blank, or nothing follows. -/
theorem head?_laidOut {pieces : List (String × Symbol)} {behind : String}
    (hpieces : ∀ piece ∈ pieces, IsGap piece.1) (hapart : ∀ piece ∈ pieces, piece.1 ≠ "")
    (hbehind : IsGap behind) : ∀ c ∈ (laidOut pieces behind).toList.head?, isSpace c = true := by
  intro c hc
  cases pieces with
  | nil => exact hbehind c (List.mem_of_mem_head? hc)
  | cons piece pieces =>
      obtain ⟨gap, symbol⟩ := piece
      have hne : gap.toList ≠ [] := fun h =>
        hapart _ List.mem_cons_self (String.toList_eq_nil_iff.1 h)
      obtain ⟨d, more, hcons⟩ := List.exists_cons_of_ne_nil hne
      rw [laidOut, String.toList_append, hcons] at hc
      cases hc
      exact hpieces _ List.mem_cons_self c (by rw [hcons]; exact List.mem_cons_self)

/-- **Symbols between blanks are read as they are spelled.** -/
theorem lexes_laidOut {pieces : List (String × Symbol)} {behind : String}
    (hgaps : ∀ piece ∈ pieces, IsGap piece.1)
    (hsymbols : ∀ piece ∈ pieces, piece.2.IsNonnegative)
    (hapart : ∀ piece ∈ pieces.tail, piece.1 ≠ "") (hbehind : IsGap behind) (position : Nat) :
    Lexes position (laidOut pieces behind).toList [] (placed position pieces) := by
  induction pieces generalizing position with
  | nil =>
      have hblank : Lexes position (behind.toList ++ []) [] [] := Lexes.gap hbehind .nil
      rw [List.append_nil] at hblank
      exact hblank
  | cons piece pieces ih =>
      obtain ⟨gap, symbol⟩ := piece
      rw [List.forall_mem_cons] at hgaps hsymbols
      have hmunches : Munches symbol symbol.spelling.toList
          ((laidOut pieces behind).toList ++ []) := by
        rw [List.append_nil]
        exact (Symbol.written_spelling hsymbols.1).munches (head?_laidOut hgaps.2 hapart hbehind)
      have hlexes := ih hgaps.2 hsymbols.2
        (fun piece hpiece => hapart piece (List.mem_of_mem_tail hpiece))
        (position + gap.utf8ByteSize + symbol.spelling.utf8ByteSize)
      rw [laidOut, placed, String.toList_append, String.toList_append]
      rw [← length_bytesOf gap, ← length_bytesOf symbol.spelling] at hlexes ⊢
      exact (Lexes.token hmunches hlexes).gap hgaps.1

/-! ## §4. The tokenizer. -/

/-- The tokens are read off the text without a rest: they stand one behind the other, and every
byte that belongs to none of them is a blank. -/
structure Tokenized (text : String) (tokens : List Token) : Prop where
  increasing : tokens.Pairwise fun first second => first.position < second.position
  apart : tokens.Pairwise (EndsBefore 0 text.toList)
  occupies : ∀ token ∈ tokens, ∃ lexeme, Occupies 0 text.toList token lexeme
  covers : ∀ (i : Nat) (byte : UInt8), (bytesOf text)[i]? = some byte →
    (∃ token ∈ tokens, ∃ lexeme, Occupies 0 text.toList token lexeme
        ∧ token.position ≤ i ∧ i < token.position + (Utf8.encode lexeme).length)
      ∨ byte ∈ blankBytes

theorem tokenized_of_tokenize {text : String} {tokens : List Token}
    (h : tokenize text = .ok tokens) : Tokenized text tokens := by
  have hlexes : Lexes 0 text.toList [] tokens := scan_eq_ok_iff.1 h
  obtain ⟨-, hpairwise⟩ := hlexes.pairwise_endsBefore
  have hoccupies := hlexes.occupies
  rw [List.append_nil] at hpairwise hoccupies
  refine ⟨hpairwise.imp EndsBefore.position_lt, hpairwise, hoccupies, ?_⟩
  intro i byte hbyte
  have hcovers := hlexes.covers hbyte
  rw [List.append_nil, Nat.zero_add] at hcovers
  exact hcovers

/-- What can be said of a text that is refused: up to the place that is reported it is made of
tokens, which stand there also with the rest in sight, and at this place there is none. -/
def Refused (text : String) (fault : Fault) : Prop :=
  ∃ before after tokens, text = before ++ after ∧ tokenize before = .ok tokens
    ∧ (∀ token ∈ tokens, ∃ lexeme, Occupies 0 text.toList token lexeme)
    ∧ Blocks before.utf8ByteSize after.toList fault

theorem refused_of_tokenize {text : String} {fault : Fault} (h : tokenize text = .error fault) :
    Refused text fault := by
  obtain ⟨front, rest, tokens, hsplit, hlexes, hblocks⟩ := exists_blocks_of_scan h
  refine ⟨String.ofList front, String.ofList rest, tokens, ?_, ?_, ?_, ?_⟩
  · rw [← String.ofList_append, ← hsplit, String.ofList_toList]
  · rw [tokenize, String.toList_ofList]
    exact scan_eq_ok_iff.2 hlexes.cut
  · rw [hsplit]
    exact hlexes.occupies
  · rw [← length_bytesOf, bytesOf, String.toList_ofList, String.toList_ofList]
    rwa [Nat.zero_add] at hblocks

/-- **Tokens are read exactly.**

A text with tokens is made of them and of blanks, and each is the longest that stands at its place.
A text that is refused has tokens up to a place between two characters, and what stands there is no
token.  And symbols that are spelled with blanks between them are the tokens of this text. -/
theorem tokenize_exact :
    (∀ text tokens, tokenize text = .ok tokens → Tokenized text tokens)
      ∧ (∀ text fault, tokenize text = .error fault → Refused text fault)
      ∧ ∀ (pieces : List (String × Symbol)) (behind : String),
          (∀ piece ∈ pieces, IsGap piece.1 ∧ piece.2.IsNonnegative) →
          (∀ piece ∈ pieces.tail, piece.1 ≠ "") → IsGap behind →
            tokenize (laidOut pieces behind) = .ok (placed 0 pieces)
              ∧ (placed 0 pieces).map Token.symbol = pieces.map Prod.snd := by
  refine ⟨fun text tokens => tokenized_of_tokenize, fun text fault => refused_of_tokenize, ?_⟩
  intro pieces behind hpieces hapart hbehind
  have hlexes := lexes_laidOut (fun piece hpiece => (hpieces piece hpiece).1)
    (fun piece hpiece => (hpieces piece hpiece).2) hapart hbehind 0
  exact ⟨scan_eq_ok_iff.2 hlexes, map_symbol_placed 0 pieces⟩

/-- A number with zeros in front behind a tab, a character of three bytes, a number that is too
large, and a negation kept apart from what would make another sign of it. -/
theorem tokenize_exact_spots :
    (tokenize "n>=\t007" = .ok [⟨.n, 0⟩, ⟨.operator .ge, 1⟩, ⟨.number 7, 4⟩]
        ∧ Tokenized "n>=\t007" [⟨.n, 0⟩, ⟨.operator .ge, 1⟩, ⟨.number 7, 4⟩])
      ∧ (tokenize "n ≥ 9" = .error (.unexpectedChar '≥' 2)
        ∧ Refused "n ≥ 9" (.unexpectedChar '≥' 2))
      ∧ (tokenize "n<9223372036854775808" = .error (.invalidNumber "9223372036854775808" 2)
        ∧ Refused "n<9223372036854775808" (.invalidNumber "9223372036854775808" 2))
      ∧ tokenize "! ==\r\n12" = .ok [⟨.not, 0⟩, ⟨.operator .eq, 2⟩, ⟨.number 12, 6⟩] := by
  have hread : tokenize "n>=\t007" = .ok [⟨.n, 0⟩, ⟨.operator .ge, 1⟩, ⟨.number 7, 4⟩] := by rfl
  have hchar : tokenize "n ≥ 9" = .error (.unexpectedChar '≥' 2) := by rfl
  have hnumber : tokenize "n<9223372036854775808"
      = .error (.invalidNumber "9223372036854775808" 2) := by rfl
  refine ⟨⟨hread, tokenize_exact.1 _ _ hread⟩, ⟨hchar, tokenize_exact.2.1 _ _ hchar⟩,
    ⟨hnumber, tokenize_exact.2.1 _ _ hnumber⟩, ?_⟩
  refine (tokenize_exact.2.2 [("", .not), (" ", .operator .eq), ("\r\n", .number 12)] "" ?_ ?_ ?_).1
  · simp [IsGap, isSpace, Symbol.IsNonnegative]
  · simp
  · simp [IsGap]

end MessageCatalog.Plural
