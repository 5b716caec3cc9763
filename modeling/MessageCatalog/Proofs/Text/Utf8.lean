/-
  MessageCatalog.Proofs.Text.Utf8
  ────────────────────────────────
  **TEXT COMES BACK FROM ITS BYTES.**

  The bytes of a character are a lead and up to three further bytes with six bits
  each.  The reader takes exactly these bytes for one character, whatever follows
  them, so a text is read back from its bytes character by character.
-/
import MessageCatalog.Text.Utf8

namespace MessageCatalog.Text

namespace Utf8

/-! ## §1. Further bytes. -/

/-- The further byte that carries the six lowest bits of a number. -/
def follower (x : Nat) : UInt8 :=
  UInt8.ofNat (x % 64 + 0x80)

theorem toNat_follower (x : Nat) : (follower x).toNat = x % 64 + 0x80 := by
  unfold follower
  rw [UInt8.toNat_ofNat']
  omega

theorem toNat_follower_mod (x : Nat) : (follower x).toNat % 64 = x % 64 := by
  rw [toNat_follower]
  omega

theorem le_follower {low : UInt8} {x : Nat} (h : low.toNat ≤ x % 64 + 0x80) :
    low ≤ follower x := by
  rw [UInt8.le_iff_toNat_le, toNat_follower]
  exact h

theorem follower_le {high : UInt8} {x : Nat} (h : x % 64 + 0x80 ≤ high.toNat) :
    follower x ≤ high := by
  rw [UInt8.le_iff_toNat_le, toNat_follower]
  exact h

theorem followers_cons {low high b : UInt8} (hlow : low ≤ b) (hhigh : b ≤ high) (count : Nat)
    (bs : Bytes) :
    followers (count + 1) low high (b :: bs) = b :: followers count 0x80 0xBF bs := by
  simp [followers, hlow, hhigh]

/-- As many further bytes as are asked for are taken, and not more. -/
theorem followers_map_follower (xs : List Nat) (rest : Bytes) :
    followers xs.length 0x80 0xBF (xs.map follower ++ rest) = xs.map follower := by
  induction xs with
  | nil => rfl
  | cons x xs ih =>
      have hbits : x % 64 < 64 := Nat.mod_lt _ (by decide)
      have hlow : 0x80 ≤ follower x := le_follower (by show 128 ≤ _; omega)
      have hhigh : follower x ≤ 0xBF := follower_le (by show _ ≤ 191; omega)
      rw [List.map_cons, List.cons_append, List.length_cons, followers_cons hlow hhigh, ih]

/-! ## §2. Leads. -/

theorem lead?_ascii : ∀ x < 0x80, lead? (UInt8.ofNat x) = none := by
  decide

theorem lead?_two : ∀ x < 32, 2 ≤ x → lead? (UInt8.ofNat (x + 0xC0)) = some (1, 0x80, 0xBF) := by
  decide

theorem lead?_three : ∀ x < 16, lead? (UInt8.ofNat (x + 0xE0))
    = some (2, if x = 0 then 0xA0 else 0x80, if x = 13 then 0x9F else 0xBF) := by
  decide

theorem lead?_four : ∀ x < 5, lead? (UInt8.ofNat (x + 0xF0))
    = some (3, if x = 0 then 0x90 else 0x80, if x = 4 then 0x8F else 0xBF) := by
  decide

theorem not_lt_of_lead? {b : UInt8} {found : Nat × UInt8 × UInt8} (h : lead? b = some found) :
    ¬ b < 0x80 := by
  intro hlt
  have hnone : lead? (UInt8.ofNat b.toNat) = none := lead?_ascii b.toNat hlt
  rw [UInt8.ofNat_toNat, h] at hnone
  cases hnone

/-- A lead and the further bytes that it announces make one character. -/
theorem next_of_lead? {b low high : UInt8} {x : Nat} {xs : List Nat}
    (hlead : lead? b = some (xs.length + 1, low, high)) (hlow : low ≤ follower x)
    (hhigh : follower x ≤ high) (rest : Bytes) :
    next b ((x :: xs).map follower ++ rest)
      = (Char.ofNat ((x :: xs).foldl (fun v y => v * 64 + y % 64)
          (b.toNat % (64 >>> (xs.length + 1)))), xs.length + 2) := by
  have htail : followers (xs.length + 1) low high ((x :: xs).map follower ++ rest)
      = (x :: xs).map follower := by
    rw [List.map_cons, List.cons_append, followers_cons hlow hhigh, followers_map_follower]
  unfold next
  rw [if_neg (not_lt_of_lead? hlead), hlead]
  simp only [htail, List.length_map, List.length_cons, if_true, List.foldl_map,
    toNat_follower_mod]

/-! ## §3. Whole texts. -/

section Sizes

variable {v : Nat} (rest : Bytes)

theorem next_one (h : v < 0x80) : next (UInt8.ofNat v) rest = (Char.ofNat v, 1) := by
  have hv : (UInt8.ofNat v).toNat = v := by
    rw [UInt8.toNat_ofNat']
    omega
  unfold next
  rw [if_pos (by rw [UInt8.lt_iff_toNat_lt, hv]; exact h), hv]

theorem next_two (h : 0x80 ≤ v) (h' : v < 0x800) :
    next (UInt8.ofNat (v / 64 % 32 + 0xC0)) ([v].map follower ++ rest) = (Char.ofNat v, 2) := by
  have hlead := lead?_two (v / 64 % 32) (by omega) (by omega)
  have hlow : 0x80 ≤ follower v := le_follower (by show 128 ≤ _; omega)
  have hhigh : follower v ≤ 0xBF := follower_le (by show _ ≤ 191; omega)
  rw [next_of_lead? hlead hlow hhigh, UInt8.toNat_ofNat']
  simp only [List.foldl_cons, List.foldl_nil, List.length_nil, Nat.reduceAdd,
    Nat.reduceShiftRight]
  congr 2
  omega

theorem next_three (h : 0x800 ≤ v) (h' : v < 0x10000) (hvalid : v < 0xD800 ∨ 0xDFFF < v) :
    next (UInt8.ofNat (v / 4096 % 16 + 0xE0)) ([v / 64, v].map follower ++ rest)
      = (Char.ofNat v, 3) := by
  have hlead := lead?_three (v / 4096 % 16) (by omega)
  have hlow : (if v / 4096 % 16 = 0 then 0xA0 else 0x80) ≤ follower (v / 64) := by
    split
    · exact le_follower (by show 160 ≤ _; omega)
    · exact le_follower (by show 128 ≤ _; omega)
  have hhigh : follower (v / 64) ≤ (if v / 4096 % 16 = 13 then 0x9F else 0xBF) := by
    split
    · exact follower_le (by show _ ≤ 159; omega)
    · exact follower_le (by show _ ≤ 191; omega)
  rw [next_of_lead? hlead hlow hhigh, UInt8.toNat_ofNat']
  simp only [List.foldl_cons, List.foldl_nil, List.length_cons, List.length_nil, Nat.reduceAdd,
    Nat.reduceShiftRight]
  congr 2
  omega

theorem next_four (h : 0x10000 ≤ v) (h' : v < 0x110000) :
    next (UInt8.ofNat (v / 262144 % 8 + 0xF0)) ([v / 4096, v / 64, v].map follower ++ rest)
      = (Char.ofNat v, 4) := by
  have hlead := lead?_four (v / 262144 % 8) (by omega)
  have hlow : (if v / 262144 % 8 = 0 then 0x90 else 0x80) ≤ follower (v / 4096) := by
    split
    · exact le_follower (by show 144 ≤ _; omega)
    · exact le_follower (by show 128 ≤ _; omega)
  have hhigh : follower (v / 4096) ≤ (if v / 262144 % 8 = 4 then 0x8F else 0xBF) := by
    split
    · exact follower_le (by show _ ≤ 143; omega)
    · exact follower_le (by show _ ≤ 191; omega)
  rw [next_of_lead? hlead hlow hhigh, UInt8.toNat_ofNat']
  simp only [List.foldl_cons, List.foldl_nil, List.length_cons, List.length_nil, Nat.reduceAdd,
    Nat.reduceShiftRight]
  congr 2
  omega

end Sizes

/-- The bytes of a character are read as the character, whatever follows. -/
theorem next_encodeChar (c : Char) (rest : Bytes) :
    ∃ b bs, String.utf8EncodeChar c = b :: bs ∧ next b (bs ++ rest) = (c, bs.length + 1) := by
  have hc : Char.ofNat c.val.toNat = c := Char.ofNat_toNat c
  have hvalid : c.val.toNat < 0xD800 ∨ 0xDFFF < c.val.toNat ∧ c.val.toNat < 0x110000 := c.valid
  unfold String.utf8EncodeChar
  generalize c.val.toNat = v at hc hvalid
  subst hc
  simp only
  split
  next h => exact ⟨_, _, rfl, next_one rest (by omega)⟩
  next h =>
    split
    next h' => exact ⟨_, _, rfl, next_two rest (by omega) (by omega)⟩
    next h' =>
      split
      next h'' => exact ⟨_, _, rfl, next_three rest (by omega) (by omega) (by omega)⟩
      next h'' => exact ⟨_, _, rfl, next_four rest (by omega) (by omega)⟩

/-- Only the zero character has a zero byte. -/
theorem zero_not_mem_encodeChar {c : Char} (h : c ≠ '\x00') : 0 ∉ String.utf8EncodeChar c := by
  have hpos : c.val.toNat ≠ 0 := by
    intro hzero
    apply h
    rw [← Char.ofNat_toNat c]
    show Char.ofNat c.val.toNat = _
    rw [hzero]
  have hvalid : c.val.toNat < 0xD800 ∨ 0xDFFF < c.val.toNat ∧ c.val.toNat < 0x110000 := c.valid
  have hbyte : ∀ x : Nat, x % 256 ≠ 0 → (0 : UInt8) ≠ UInt8.ofNat x := by
    intro x hx heq
    have hnat : (0 : UInt8).toNat = (UInt8.ofNat x).toNat := congrArg UInt8.toNat heq
    rw [UInt8.toNat_ofNat'] at hnat
    exact hx hnat.symm
  unfold String.utf8EncodeChar
  generalize c.val.toNat = v at hpos hvalid
  simp only
  -- every byte of a longer character has its highest bit
  split
  next hone =>
    rw [List.mem_singleton]
    exact hbyte _ (by omega)
  next hone =>
    split
    next htwo =>
      simp only [List.mem_cons, List.not_mem_nil, or_false, not_or]
      exact ⟨hbyte _ (by omega), hbyte _ (by omega)⟩
    next htwo =>
      split
      next hthree =>
        simp only [List.mem_cons, List.not_mem_nil, or_false, not_or]
        exact ⟨hbyte _ (by omega), hbyte _ (by omega), hbyte _ (by omega)⟩
      next hthree =>
        simp only [List.mem_cons, List.not_mem_nil, or_false, not_or]
        exact ⟨hbyte _ (by omega), hbyte _ (by omega), hbyte _ (by omega), hbyte _ (by omega)⟩

theorem decodeFrom_append (bs rest : Bytes) :
    decodeFrom bs.length (bs ++ rest) = decode rest := by
  induction bs with
  | nil => rfl
  | cons b bs ih => exact ih

/-- **Characters are read back from their bytes.** -/
theorem decode_encode (cs : List Char) : decode (encode cs) = cs := by
  induction cs with
  | nil => rfl
  | cons c cs ih =>
      obtain ⟨b, bs, hbytes, hnext⟩ := next_encodeChar c (encode cs)
      rw [encode_cons, hbytes]
      show (next b (bs ++ encode cs)).1
        :: decodeFrom ((next b (bs ++ encode cs)).2 - 1) (bs ++ encode cs) = _
      rw [hnext, Nat.add_sub_cancel, decodeFrom_append, ih]

theorem length_encode_cons (c : Char) (cs : List Char) :
    (encode (c :: cs)).length = c.utf8Size + (encode cs).length := by
  rw [encode_cons, List.length_append, String.length_utf8EncodeChar]

end Utf8

/-- A text is read back from its bytes. -/
theorem textOf_bytesOf (s : String) : textOf (bytesOf s) = s := by
  unfold textOf bytesOf
  rw [Utf8.decode_encode, String.ofList_toList]

theorem bytesOf_injective {s t : String} (h : bytesOf s = bytesOf t) : s = t := by
  rw [← textOf_bytesOf s, h, textOf_bytesOf]

theorem bytesOf_append (s t : String) : bytesOf (s ++ t) = bytesOf s ++ bytesOf t := by
  unfold bytesOf
  rw [String.toList_append, Utf8.encode_append]

theorem zero_not_mem_bytesOf {s : String} (h : '\x00' ∉ s.toList) : 0 ∉ bytesOf s := by
  intro hmem
  obtain ⟨c, hc, hbyte⟩ := List.mem_flatMap.1 hmem
  have hne : c ≠ '\x00' := by
    intro heq
    rw [heq] at hc
    exact h hc
  exact Utf8.zero_not_mem_encodeChar hne hbyte

/-- A text has as many bytes as its encoding. -/
theorem length_bytesOf (text : String) : (bytesOf text).length = text.utf8ByteSize := by
  have hencode : ∀ cs : List Char, (Utf8.encode cs).length = (String.ofList cs).utf8ByteSize := by
    intro cs
    induction cs with
    | nil => rfl
    | cons c cs ih =>
        rw [Utf8.length_encode_cons, ih, String.ofList_cons, String.utf8ByteSize_append,
          String.utf8ByteSize_singleton]
  unfold bytesOf
  rw [hencode, String.ofList_toList]

theorem bytesOf_eq_nil_iff {s : String} : bytesOf s = [] ↔ s = "" := by
  constructor
  · intro h
    rw [← textOf_bytesOf s, h]
    rfl
  · rintro rfl
    rfl

end MessageCatalog.Text
