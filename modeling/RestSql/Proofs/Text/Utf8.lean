import Mathlib.Data.String.Basic
import RestSql.Text.Utf8

/-!
UTF-8 keeps texts and their order: a text is read back from its bytes, and one text is before
another exactly if its bytes are.
-/

namespace RestSql.Text.Utf8

/-! ## Bytes -/

theorem toList_loop (bytes : ByteArray) (i : Nat) (taken : List UInt8) :
    ByteArray.toList.loop bytes i taken = taken.reverse ++ bytes.data.toList.drop i := by
  induction hn : bytes.size - i generalizing i taken with
  | zero =>
    rw [ByteArray.toList.loop, if_neg (by omega), List.drop_eq_nil_of_le, List.append_nil]
    simp only [Array.length_toList]
    exact Nat.le_of_sub_eq_zero hn
  | succ n ih =>
    have hi : i < bytes.size := by omega
    have hlength : i < bytes.data.toList.length := by simpa using hi
    rw [ByteArray.toList.loop, if_pos hi, ih (i + 1) _ (by omega), List.reverse_cons,
      List.append_assoc, List.drop_eq_getElem_cons hlength]
    have hget : bytes.get! i = bytes.data.toList[i] := by
      simp [ByteArray.get!, getElem!_pos, hi]
    rw [hget]
    rfl

theorem encode_eq (s : String) : encode s = s.toList.flatMap String.utf8EncodeChar := by
  have hbytes : s.toUTF8 = (s.toList.flatMap String.utf8EncodeChar).toByteArray := by
    rw [String.toUTF8_eq_toByteArray, ← String.utf8Encode_toList, List.utf8Encode]
  rw [encode, ByteArray.toList, toList_loop, hbytes, List.toList_data_toByteArray]
  rfl

/-! ## Order -/

/-- Four digits to the base 64 are compared from the first one on. -/
theorem digits_lt {m n : Nat} (h : m < n) :
    m / 262144 < n / 262144 ∨ m / 262144 = n / 262144 ∧
      (m / 4096 % 64 < n / 4096 % 64 ∨ m / 4096 % 64 = n / 4096 % 64 ∧
        (m / 64 % 64 < n / 64 % 64 ∨ m / 64 % 64 = n / 64 % 64 ∧ m % 64 < n % 64)) := by
  have h3 : ∀ k, k / 4096 = 64 * (k / 262144) + k / 4096 % 64 := by omega
  have h2 : ∀ k, k / 64 = 64 * (k / 4096) + k / 64 % 64 := by omega
  have h1 : ∀ k, k = 64 * (k / 64) + k % 64 := by omega
  have := h1 m
  have := h1 n
  have := h2 m
  have := h2 n
  have := h3 m
  have := h3 n
  omega

theorem utf8EncodeChar_append_lt {a b : Char} (h : a < b) (x y : List UInt8) :
    String.utf8EncodeChar a ++ x < String.utf8EncodeChar b ++ y := by
  have hlt : a.val.toNat < b.val.toNat := h
  have hbound : b.val.toNat < 0x110000 := by
    have hvalid := b.valid
    simp only [UInt32.isValidChar, Nat.isValidChar] at hvalid
    omega
  have hdigits := digits_lt hlt
  -- the first byte tells the number of bytes, and with one number the digits decide
  simp only [String.utf8EncodeChar]
  repeat' split
  all_goals
    simp only [List.cons_append, List.nil_append, List.cons_lt_cons_iff, UInt8.lt_iff_toNat_lt,
      ← UInt8.toNat_inj, UInt8.toNat_ofNat']
    simp (disch := omega) only [Nat.mod_eq_of_lt]
    omega

theorem flatMap_utf8EncodeChar_lt {a b : List Char} (h : a < b) :
    a.flatMap String.utf8EncodeChar < b.flatMap String.utf8EncodeChar := by
  induction a generalizing b with
  | nil =>
    cases b with
    | nil => exact absurd h (List.lt_irrefl [])
    | cons d b =>
      have hne : String.utf8EncodeChar d ≠ [] := String.utf8EncodeChar_ne_nil
      obtain ⟨byte, bytes, hbytes⟩ := List.exists_cons_of_ne_nil hne
      rw [List.flatMap_nil, List.flatMap_cons, hbytes]
      exact List.nil_lt_cons _ _
  | cons c a ih =>
    cases b with
    | nil => exact absurd h (List.not_lt_nil _)
    | cons d b =>
      rw [List.flatMap_cons, List.flatMap_cons]
      rcases List.cons_lt_cons_iff.1 h with hlt | ⟨rfl, hlt⟩
      · exact utf8EncodeChar_append_lt hlt _ _
      · exact List.append_left_lt (ih hlt)

theorem encode_lt_iff {s t : String} : encode s < encode t ↔ s < t := by
  have hmono : ∀ {s t : String}, s < t → encode s < encode t := by
    intro s t h
    rw [encode_eq, encode_eq]
    exact flatMap_utf8EncodeChar_lt h
  refine ⟨fun h => ?_, hmono⟩
  rcases lt_trichotomy s t with hlt | rfl | hgt
  · exact hlt
  · exact absurd h (List.lt_irrefl _)
  · exact absurd (hmono hgt) (List.lt_asymm h)

/-! ## Reading back -/

section Heads

variable {b0 b1 b2 b3 : Nat}

theorem head_one (h : b0 < 0x80) (rest : List Nat) : head b0 rest = .char (Char.ofNat b0) 1 := by
  simp [head, h]

theorem head_two (h : 0xC2 ≤ b0) (h' : b0 < 0xE0) (h1 : isContinuation b1 = true)
    (rest : List Nat) :
    head b0 (b1 :: rest) = .char (Char.ofNat (b0 % 0x20 * 0x40 + low b1)) 2 := by
  have hlong : ¬b0 < 0x80 := by omega
  simp [head, hlong, h, h', h1]

theorem head_three (h : 0xE0 ≤ b0) (h' : b0 < 0xF0)
    (h1 : (secondRange b0).1 ≤ b1 ∧ b1 ≤ (secondRange b0).2) (h2 : isContinuation b2 = true)
    (rest : List Nat) : head b0 (b1 :: b2 :: rest) =
      .char (Char.ofNat ((b0 % 0x10 * 0x40 + low b1) * 0x40 + low b2)) 3 := by
  have hlong : ¬b0 < 0x80 ∧ ¬b0 < 0xC2 ∧ ¬b0 < 0xE0 ∧ ¬0xF4 < b0 := by omega
  simp [head, hlong, h', h1, h2]

theorem head_four (h : 0xF0 ≤ b0) (h' : b0 ≤ 0xF4)
    (h1 : (secondRange b0).1 ≤ b1 ∧ b1 ≤ (secondRange b0).2) (h2 : isContinuation b2 = true)
    (h3 : isContinuation b3 = true) (rest : List Nat) : head b0 (b1 :: b2 :: b3 :: rest) =
      .char (Char.ofNat (((b0 % 0x08 * 0x40 + low b1) * 0x40 + low b2) * 0x40 + low b3)) 4 := by
  have hlong : ¬b0 < 0x80 ∧ ¬b0 < 0xC2 ∧ ¬b0 < 0xE0 ∧ ¬0xF4 < b0 ∧ ¬b0 < 0xF0 := by omega
  simp [head, hlong, h1, h2, h3]

theorem isContinuation_digit (n : Nat) : isContinuation (n % 64 + 128) = true := by
  simp only [isContinuation, Bool.and_eq_true, decide_eq_true_eq]
  omega

theorem low_digit (n : Nat) : low (n % 64 + 128) = n % 64 := by
  unfold low
  omega

/-- The first byte tells how many follow, and together they give the character. -/
theorem head_utf8EncodeChar (c : Char) : ∃ b bs,
    (String.utf8EncodeChar c).map UInt8.toNat = b :: bs ∧
      ∀ rest, head b (bs ++ rest) = .char c (bs.length + 1) := by
  have hvalid : c.val.toNat < 0xD800 ∨ 0xDFFF < c.val.toNat ∧ c.val.toNat < 0x110000 := c.valid
  have hc : ∀ n, n = c.val.toNat → Char.ofNat n = c := by
    intro n hn
    rw [hn]
    exact Char.ofNat_toNat c
  simp only [String.utf8EncodeChar]
  -- one case for each number of bytes
  repeat' split
  all_goals
    simp only [List.map_cons, List.map_nil, UInt8.toNat_ofNat']
    simp (disch := omega) only [Nat.mod_eq_of_lt]
    refine ⟨_, _, rfl, fun rest => ?_⟩
    simp only [List.cons_append, List.nil_append]
  · rw [head_one (by omega), hc _ rfl]
    rfl
  · rw [head_two (by omega) (by omega) (isContinuation_digit _), low_digit, hc _ (by omega)]
    rfl
  · have hsecond :
        (secondRange (c.val.toNat / 4096 + 224)).1 ≤ c.val.toNat / 64 % 64 + 128 ∧
        c.val.toNat / 64 % 64 + 128 ≤ (secondRange (c.val.toNat / 4096 + 224)).2 := by
      unfold secondRange
      split_ifs <;> dsimp only <;> omega
    rw [head_three (by omega) (by omega) hsecond (isContinuation_digit _), low_digit, low_digit,
      hc _ (by omega)]
    rfl
  · have hsecond :
        (secondRange (c.val.toNat / 262144 + 240)).1 ≤ c.val.toNat / 4096 % 64 + 128 ∧
        c.val.toNat / 4096 % 64 + 128 ≤ (secondRange (c.val.toNat / 262144 + 240)).2 := by
      unfold secondRange
      split_ifs <;> dsimp only <;> omega
    rw [head_four (by omega) (by omega) hsecond (isContinuation_digit _) (isContinuation_digit _),
      low_digit, low_digit, low_digit, hc _ (by omega)]
    rfl

end Heads

theorem decodeWith_append {onInvalid : Option Char} (bs rest : List Nat) :
    decodeWith onInvalid (bs ++ rest) bs.length = decodeWith onInvalid rest 0 := by
  induction bs with
  | nil => rfl
  | cons b bs ih => exact ih

theorem decodeWith_cons {onInvalid : Option Char} {b n : Nat} {c : Char} {rest : List Nat}
    (h : head b rest = .char c (n + 1)) :
    decodeWith onInvalid (b :: rest) 0 = (decodeWith onInvalid rest n).map (c :: ·) := by
  simp [decodeWith, h]

theorem decode?_encode (s : String) : decode? (encode s) = some s := by
  have hchars : ∀ cs : List Char,
      decodeWith none ((cs.flatMap String.utf8EncodeChar).map UInt8.toNat) 0 = some cs := by
    intro cs
    induction cs with
    | nil => rfl
    | cons c cs ih =>
      obtain ⟨b, bs, hbytes, hhead⟩ := head_utf8EncodeChar c
      rw [List.flatMap_cons, List.map_append, hbytes, List.cons_append, decodeWith_cons (hhead _),
        decodeWith_append, ih, Option.map_some]
  rw [decode?, encode_eq, hchars, Option.map_some, String.ofList_toList]

end RestSql.Text.Utf8
