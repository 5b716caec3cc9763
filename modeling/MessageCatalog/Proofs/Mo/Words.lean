/-
  MessageCatalog.Proofs.Mo.Words
  ────────────────────────────────
  **WORDS BY THEIR POSITIONS.**

  The reader takes a word out of a file with `wordAt?`, which may fail.  Here a
  word is what its four bytes say, at any position of any file: `wordIn` has no
  failure, and the reader succeeds with it exactly when the four bytes are there.
  A file that opens with written words has these words at the multiples of four.
-/
import MessageCatalog.Mo.Record

namespace MessageCatalog.Mo

open MessageCatalog.Text

/-! ## §1. Bytes and words. -/

/-- The byte at a position; zero outside the file. -/
def byteAt (file : Bytes) (position : Nat) : Nat :=
  (file.getD position 0).toNat

/-- The word whose bytes start at a position. -/
def ByteOrder.wordIn : ByteOrder → Bytes → Nat → Nat
  | .little, file, p =>
      byteAt file p + 0x100 * byteAt file (p + 1) + 0x10000 * byteAt file (p + 2)
        + 0x1000000 * byteAt file (p + 3)
  | .big, file, p =>
      byteAt file (p + 3) + 0x100 * byteAt file (p + 2) + 0x10000 * byteAt file (p + 1)
        + 0x1000000 * byteAt file p

theorem byteAt_lt (file : Bytes) (position : Nat) : byteAt file position < 0x100 :=
  UInt8.toNat_lt _

/-- Every word fits 32 bits. -/
theorem wordIn_lt (order : ByteOrder) (file : Bytes) (position : Nat) :
    order.wordIn file position < wordLimit := by
  have h₀ := byteAt_lt file position
  have h₁ := byteAt_lt file (position + 1)
  have h₂ := byteAt_lt file (position + 2)
  have h₃ := byteAt_lt file (position + 3)
  unfold wordLimit
  cases order with
  | little | big =>
      simp only [ByteOrder.wordIn]
      omega

theorem byteAt_append_right (first rest : Bytes) (position : Nat) :
    byteAt (first ++ rest) (first.length + position) = byteAt rest position := by
  unfold byteAt
  rw [List.getD_eq_getElem?_getD, List.getElem?_append_right (by omega),
    Nat.add_sub_cancel_left, List.getD_eq_getElem?_getD]

/-- Bytes in front move every word by their number. -/
theorem wordIn_append_right (order : ByteOrder) (first rest : Bytes) (position : Nat) :
    order.wordIn (first ++ rest) (first.length + position) = order.wordIn rest position := by
  cases order with
  | little | big =>
      unfold ByteOrder.wordIn
      simp only [Nat.add_assoc, byteAt_append_right]

/-! ## §2. Reading a word. -/

/-- At the start of a file, the reader gives the word of the first four bytes. -/
theorem wordAt?_zero (order : ByteOrder) (file : Bytes) :
    wordAt? order file 0 = if 4 ≤ file.length then some (order.wordIn file 0) else none := by
  match file with
  | [] | [_] | [_, _] | [_, _, _] => rfl
  | a :: b :: c :: d :: rest =>
      rw [if_pos (by simp only [List.length_cons]; omega)]
      cases order <;> rfl

/-- The reader gives the word at a position exactly when its bytes are there. -/
theorem wordAt?_eq (order : ByteOrder) (file : Bytes) (position : Nat) :
    wordAt? order file position
      = if position + 4 ≤ file.length then some (order.wordIn file position) else none := by
  by_cases h : position ≤ file.length
  · have hlen : (file.take position).length = position := by
      rw [List.length_take]
      omega
    -- what stands in front of the position plays no part
    have hword : order.wordIn file position = order.wordIn (file.drop position) 0 := by
      conv => lhs; rw [← List.take_append_drop position file]
      have := wordIn_append_right order (file.take position) (file.drop position) 0
      rwa [hlen] at this
    show wordAt? order (file.drop position) 0 = _
    rw [wordAt?_zero, ← hword, List.length_drop]
    congr 1
    simp only [eq_iff_iff]
    omega
  · have hdrop : file.drop position = [] := List.drop_eq_nil_of_le (by omega)
    show wordAt? order (file.drop position) 0 = _
    rw [hdrop, if_neg (by omega)]
    rfl

theorem wordAt_eq_ok_iff {order : ByteOrder} {file : Bytes} {position word : Nat} :
    wordAt order file position = .ok word
      ↔ position + 4 ≤ file.length ∧ order.wordIn file position = word := by
  unfold wordAt
  rw [wordAt?_eq]
  by_cases h : position + 4 ≤ file.length
  · rw [if_pos h]
    simp [h]
  · rw [if_neg h]
    simp [h]

/-! ## §3. Written words. -/

/-- A written word is the word at its position. -/
theorem wordIn_encode_append (order : ByteOrder) {n : Nat} (h : n < wordLimit) (rest : Bytes) :
    order.wordIn (order.encode n ++ rest) 0 = n := by
  have hread := wordAt?_encode_append order h rest
  rw [wordAt?_zero, if_pos (by rw [List.length_append, length_encode]; omega)] at hread
  exact Option.some.inj hread

@[simp] theorem length_encodeAll (order : ByteOrder) (words : List Nat) :
    (order.encodeAll words).length = 4 * words.length := by
  unfold ByteOrder.encodeAll
  induction words with
  | nil => rfl
  | cons word words ih =>
      rw [List.flatMap_cons, List.length_append, length_encode, ih, List.length_cons]
      omega

/-- A row of written words has its word with index `k` at position `4 * k`. -/
theorem wordIn_encodeAll_append (order : ByteOrder) (rest : Bytes) {words : List Nat}
    (h : ∀ word ∈ words, word < wordLimit) {k : Nat} {word : Nat} (hk : words[k]? = some word) :
    order.wordIn (order.encodeAll words ++ rest) (4 * k) = word := by
  unfold ByteOrder.encodeAll
  induction words generalizing k with
  | nil => cases hk
  | cons first words ih =>
      rw [List.flatMap_cons, List.append_assoc]
      cases k with
      | zero =>
          cases hk
          exact wordIn_encode_append order (h word List.mem_cons_self) _
      | succ k =>
          -- the first word takes four bytes, which move the others
          have hpos : 4 * (k + 1) = (order.encode first).length + 4 * k := by
            rw [length_encode]
            omega
          rw [hpos, wordIn_append_right]
          exact ih (fun w hw => h w (List.mem_cons_of_mem _ hw)) hk

end MessageCatalog.Mo
