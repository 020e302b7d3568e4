import Mathlib.Algebra.Group.Nat.Defs
import Mathlib.Data.List.Induction
import RestSql.Text.Numeral
import RestSql.Text.Quoted
import RestSql.Text.Split

/-!
Reading back what was written, with more text behind it: runs of characters of one class, decimal
numerals, and delimited text.
-/

namespace RestSql.Text

/-! ## Runs -/

/-- What follows a run does not begin with a character of its class. -/
def StopsAt (p : Char → Bool) (rest : List Char) : Prop := ∀ c ∈ rest.head?, p c = false

theorem stopsAt_cons {p : Char → Bool} {c : Char} (h : p c = false) (rest : List Char) :
    StopsAt p (c :: rest) := by
  intro d hd
  rwa [← Option.some.inj hd]

theorem takeWhile_eq_nil_of_stopsAt {p : Char → Bool} {rest : List Char} (h : StopsAt p rest) :
    rest.takeWhile p = [] := by
  cases rest with
  | nil => rfl
  | cons c cs => simp [h c (by simp)]

theorem dropWhile_eq_self_of_stopsAt {p : Char → Bool} {rest : List Char} (h : StopsAt p rest) :
    rest.dropWhile p = rest := by
  cases rest with
  | nil => rfl
  | cons c cs => simp [h c (by simp)]

theorem takeWhile_run {p : Char → Bool} {run rest : List Char} (h : ∀ c ∈ run, p c = true)
    (hr : StopsAt p rest) : (run ++ rest).takeWhile p = run := by
  rw [List.takeWhile_append_of_pos h, takeWhile_eq_nil_of_stopsAt hr, List.append_nil]

theorem dropWhile_run {p : Char → Bool} {run rest : List Char} (h : ∀ c ∈ run, p c = true)
    (hr : StopsAt p rest) : (run ++ rest).dropWhile p = rest := by
  rw [List.dropWhile_append_of_pos h, dropWhile_eq_self_of_stopsAt hr]

/-! ## Cutting -/

theorem cutFirst?_append {sep : Char} {a : List Char} (h : sep ∉ a) (b : List Char) :
    cutFirst? sep (a ++ sep :: b) = some (a, b) := by
  induction a with
  | nil => simp [cutFirst?]
  | cons c cs ih =>
    obtain ⟨hc, hcs⟩ : sep ≠ c ∧ sep ∉ cs := by simpa using h
    rw [List.cons_append, cutFirst?, if_neg (Ne.symm hc), ih hcs, Option.map_some]

theorem cutFirst?_eq_none {sep : Char} {cs : List Char} (h : sep ∉ cs) :
    cutFirst? sep cs = none := by
  induction cs with
  | nil => rfl
  | cons c cs ih =>
    obtain ⟨hc, hcs⟩ : sep ≠ c ∧ sep ∉ cs := by simpa using h
    rw [cutFirst?, if_neg (Ne.symm hc), ih hcs, Option.map_none]

/-! ## Numerals -/

theorem digitsValue_append (xs ys : List Char) :
    digitsValue (xs ++ ys) = digitsValue xs * 10 ^ ys.length + digitsValue ys := by
  have hfold : ∀ (zs : List Char) (n : Nat), zs.foldl (fun n c => 10 * n + digitValue c) n =
      n * 10 ^ zs.length + digitsValue zs := by
    intro zs
    induction zs with
    | nil => simp [digitsValue]
    | cons c cs ih =>
      intro n
      rw [digitsValue, List.foldl_cons, ih, List.foldl_cons, ih (10 * 0 + _), List.length_cons,
        Nat.pow_succ', Nat.add_mul, ← Nat.mul_assoc, Nat.mul_comm 10 n, Nat.mul_zero, Nat.zero_add]
      omega
  rw [digitsValue, List.foldl_append, hfold]
  rfl

theorem digitsValue_zeros (n : Nat) : digitsValue (List.replicate n '0') = 0 := by
  induction n with
  | zero => rfl
  | succ n ih => rw [List.replicate_succ']; simp [digitsValue_append, ih]; rfl

theorem isDigit_of_mem_toDigits {n : Nat} {c : Char} (h : c ∈ Nat.toDigits 10 n) :
    isDigit c = true := by
  have hc := Nat.isDigit_of_mem_toDigits (by decide) (by decide) h
  simp only [Char.isDigit, Bool.and_eq_true, decide_eq_true_eq] at hc
  simp only [isDigit, Bool.and_eq_true, decide_eq_true_eq]
  exact ⟨hc.1, hc.2⟩

theorem digitsValue_toDigits (n : Nat) : digitsValue (Nat.toDigits 10 n) = n := by
  have h := Nat.ofDigitChars_ten_toDigits (n := n)
  rwa [Nat.ofDigitChars_eq_foldl] at h

theorem toList_toString (n : Nat) : (toString n).toList = Nat.toDigits 10 n := by
  rw [Nat.toString_eq_ofList_toDigits, String.toList_ofList]

theorem toDigits_injective {m n : Nat} (h : Nat.toDigits 10 m = Nat.toDigits 10 n) : m = n := by
  rw [← digitsValue_toDigits m, h, digitsValue_toDigits]

theorem pow_length_toDigits {n : Nat} (h : n ≠ 0) :
    10 ^ ((Nat.toDigits 10 n).length - 1) ≤ n ∧ n < 10 ^ (Nat.toDigits 10 n).length := by
  have hpos : 0 < (Nat.toDigits 10 n).length := Nat.length_toDigits_pos
  refine ⟨Nat.le_of_not_lt fun hlt => ?_,
    (Nat.length_toDigits_le_iff (by decide) hpos).1 (Nat.le_refl _)⟩
  by_cases hone : (Nat.toDigits 10 n).length = 1
  · rw [hone] at hlt
    exact h (Nat.lt_one_iff.1 hlt)
  · have hle := (Nat.length_toDigits_le_iff (by decide) (by omega)).2 hlt
    omega

theorem head?_toDigits {n : Nat} (h : n ≠ 0) : (Nat.toDigits 10 n).head? ≠ some '0' := by
  induction n using Nat.strongRecOn with
  | ind n ih =>
    by_cases hn : n < 10
    · have hdigit : ∀ k < 10, k ≠ 0 → Nat.digitChar k ≠ '0' := by decide
      rw [Nat.toDigits_of_lt_base hn, List.head?_cons]
      simpa using hdigit n hn h
    · rw [Nat.toDigits_of_base_le (by decide) (by omega), List.head?_append,
        List.head?_eq_some_head Nat.toDigits_ne_nil, Option.some_or, ← List.head?_eq_some_head]
      exact ih (n / 10) (by omega) (by omega)

theorem digitChar_digitValue {c : Char} (h : isDigit c = true) :
    Nat.digitChar (digitValue c) = c := by
  have hall : ∀ k < 10, Nat.digitChar k = Char.ofNat (48 + k) := by decide
  obtain ⟨hlow, hhigh⟩ : 48 ≤ c.toNat ∧ c.toNat ≤ 57 := by
    simpa [isDigit, Char.le_def, UInt32.le_iff_toNat_le] using h
  have hvalue : digitValue c = c.toNat - 48 := rfl
  rw [hvalue, hall _ (by omega), Nat.add_sub_cancel' hlow, Char.ofNat_toNat]

theorem digitValue_lt_ten {c : Char} (h : isDigit c = true) : digitValue c < 10 := by
  have hhigh : c.toNat ≤ 57 := by
    have hle : '0' ≤ c ∧ c ≤ '9' := by simpa [isDigit] using h
    exact hle.2
  have hvalue : digitValue c = c.toNat - 48 := rfl
  omega

/-- Digits without a leading zero are those of the number that they spell. -/
theorem toDigits_digitsValue {cs : List Char} (hne : cs ≠ []) (h : ∀ c ∈ cs, isDigit c = true)
    (hhead : cs.head? ≠ some '0') :
    0 < digitsValue cs ∧ Nat.toDigits 10 (digitsValue cs) = cs := by
  -- the last digit is the remainder, so the induction takes digits from the end
  induction cs using List.reverseRecOn with
  | nil => exact absurd rfl hne
  | append_singleton ds c ih =>
    have hc : isDigit c = true := h c (by simp)
    have hvalue : digitsValue (ds ++ [c]) = 10 * digitsValue ds + digitValue c := by
      simp [digitsValue]
    have hlast : Nat.toDigits 10 (digitValue c) = [c] := by
      rw [Nat.toDigits_of_lt_base (digitValue_lt_ten hc), digitChar_digitValue hc]
    rw [hvalue]
    by_cases hds : ds = []
    · subst hds
      have hzero : digitValue c ≠ 0 := by
        intro hzero
        rw [hzero] at hlast
        exact hhead (by rw [List.nil_append, ← hlast]; rfl)
      rw [show digitsValue [] = 0 from rfl, Nat.mul_zero, Nat.zero_add, hlast]
      exact ⟨Nat.pos_of_ne_zero hzero, rfl⟩
    · have hdshead : ds.head? ≠ some '0' := by
        rwa [List.head?_append, List.head?_eq_some_head hds, Option.some_or,
          ← List.head?_eq_some_head hds] at hhead
      obtain ⟨hpos, hdigits⟩ := ih hds (fun d hd => h d (by simp [hd])) hdshead
      refine ⟨by omega, ?_⟩
      rw [← Nat.toDigits_append_toDigits (by decide) hpos (digitValue_lt_ten hc), hdigits, hlast]

theorem natural?_toDigits (n : Nat) : natural? (Nat.toDigits 10 n) = some n := by
  have h : (Nat.toDigits 10 n).all isDigit = true :=
    List.all_eq_true.2 fun c hc => isDigit_of_mem_toDigits hc
  simp [natural?, h, Nat.toDigits_ne_nil, digitsValue_toDigits]

theorem natural?_eq_some {cs : List Char} {n : Nat} : natural? cs = some n ↔
    cs ≠ [] ∧ (∀ c ∈ cs, isDigit c = true) ∧ digitsValue cs = n := by
  rw [natural?]
  split
  · rename_i h
    simp only [Bool.or_eq_true, List.isEmpty_iff, Bool.not_eq_true', List.all_eq_false] at h
    refine ⟨fun hn => (by cases hn), fun ⟨hne, hdigits, _⟩ => ?_⟩
    obtain hnil | ⟨c, hc, hdigit⟩ := h
    · exact absurd hnil hne
    · exact absurd (hdigits c hc) hdigit
  · rename_i h
    simp only [Bool.or_eq_true, List.isEmpty_iff, Bool.not_eq_true', not_or, Bool.not_eq_false,
      List.all_eq_true] at h
    rw [Option.some.injEq]
    exact ⟨fun hn => ⟨h.1, h.2, hn⟩, fun hn => hn.2.2⟩

/-- The text spells a number: one or more digits behind a plus sign or none. -/
def IsNatural (text : String) (n : Nat) : Prop :=
  ∃ digits, (text.toList = digits ∨ text.toList = '+' :: digits) ∧ digits ≠ [] ∧
    (∀ c ∈ digits, isDigit c = true) ∧ digitsValue digits = n

theorem count?_eq_some_iff {bound : Nat} {text : String} {n : Nat} :
    count? bound text = some n ↔ IsNatural text n ∧ n < bound := by
  have hbound : ∀ {digits}, (natural? digits).filter (· < bound) = some n ↔
      (digits ≠ [] ∧ (∀ c ∈ digits, isDigit c = true) ∧ digitsValue digits = n) ∧ n < bound := by
    intro digits
    rw [Option.filter_eq_some_iff, natural?_eq_some, decide_eq_true_eq]
  rw [count?]
  split
  · rename_i digits hplus
    rw [hbound]
    refine and_congr_left fun _ => ⟨fun h => ⟨digits, .inr hplus, h⟩, ?_⟩
    rintro ⟨ds, hds | hds, h⟩
    · -- a plus sign is no digit
      have hdigit : isDigit '+' = true := h.2.1 '+' (by rw [← hds, hplus]; exact List.mem_cons_self)
      cases hdigit
    · obtain rfl : digits = ds := List.tail_eq_of_cons_eq (hplus.symm.trans hds)
      exact h
  · rename_i hplain
    rw [hbound]
    refine and_congr_left fun _ => ⟨fun h => ⟨text.toList, .inl rfl, h⟩, ?_⟩
    rintro ⟨ds, hds | hds, h⟩
    · rwa [hds]
    · exact absurd hds (hplain ds)

theorem count?_eq_none_iff {bound : Nat} {text : String} :
    count? bound text = none ↔ ∀ n, IsNatural text n → bound ≤ n := by
  rw [Option.eq_none_iff_forall_ne_some]
  refine forall_congr' fun n => ?_
  rw [ne_eq, count?_eq_some_iff, not_and, Nat.not_lt]

theorem IsNatural.unique {text : String} {m n : Nat} (hm : IsNatural text m)
    (hn : IsNatural text n) : m = n := by
  have hcount : ∀ k, IsNatural text k → k ≤ m + n → count? (m + n + 1) text = some k :=
    fun k hk hle => count?_eq_some_iff.2 ⟨hk, by omega⟩
  have hsome := (hcount m hm (by omega)).symm.trans (hcount n hn (by omega))
  exact Option.some.inj hsome

/-- The text is a number of rows: one or more digits behind a plus sign or none, below `2 ^ 64`. -/
def IsCount (text : String) (n : Nat) : Prop :=
  ∃ digits, (text.toList = digits ∨ text.toList = '+' :: digits) ∧ digits ≠ [] ∧
    (∀ c ∈ digits, isDigit c = true) ∧ digitsValue digits = n ∧ n < countBound

theorem count?_eq_some {text : String} {n : Nat} :
    count? countBound text = some n ↔ IsCount text n := by
  rw [count?_eq_some_iff, IsNatural, IsCount]
  simp only [← exists_and_right, and_assoc]

/-! ## Delimited text -/

namespace Quoted

/-- The closing delimiter is the first that is not doubled, whatever the text holds. -/
theorem readBody?_doubled (close : Char) (cs rest : List Char)
    (hr : ∀ c ∈ rest.head?, c ≠ close) :
    readBody? close (doubled close cs ++ close :: rest) = some (cs, rest) := by
  induction cs with
  | nil =>
    cases rest with
    | nil => simp [doubled, readBody?]
    | cons c rest => simp [doubled, readBody?, hr c (by simp)]
  | cons c cs ih =>
    by_cases hc : c = close
    · subst hc
      simp [doubled, readBody?, ih]
    · -- the recursion looks at two characters, so the tail is shown to be a `cons`
      obtain ⟨d, ds, hd⟩ : ∃ d ds, doubled close cs ++ close :: rest = d :: ds := by
        cases h : doubled close cs ++ close :: rest with
        | nil => simp at h
        | cons d ds => exact ⟨d, ds, rfl⟩
      rw [hd] at ih
      simp [doubled, hc, hd, readBody?, ih]

theorem length_lt_of_readBody? {close : Char} {cs : List Char} {p : List Char × List Char}
    (h : readBody? close cs = some p) : p.2.length < cs.length := by
  fun_induction readBody? close cs generalizing p with
  | case1 => simp at h
  | case2 =>
    obtain rfl := Option.some.inj h
    simp
  | case3 => simp at h
  | case4 cs ih =>
    obtain ⟨q, hq, rfl⟩ := Option.map_eq_some_iff.1 h
    have hl := ih hq
    simp only [List.length_cons]
    omega
  | case5 c d cs =>
    obtain rfl := Option.some.inj h
    simp
  | case6 c d cs hc ih =>
    obtain ⟨q, hq, rfl⟩ := Option.map_eq_some_iff.1 h
    have hl := ih hq
    simp only [List.length_cons] at hl ⊢
    omega

end Quoted

end RestSql.Text
