import Mathlib.Algebra.Order.Field.Power
import Mathlib.Tactic.Linarith
import Mathlib.Tactic.NormNum
import Mathlib.Tactic.Positivity
import Mathlib.Tactic.Ring
import RestSql.Double.Shortest
import RestSql.Proofs.Text.Reading

/-!
Rounding in rational numbers. A double that is computed has its significand in the range of its
exponent, and every value between the midpoints around a double is rounded to it.
-/

namespace RestSql.Double

/-- The significand is in the range of its exponent: it has 53 bits, or fewer at the least one. -/
def IsCanonical (m : Nat) (q : Int) : Prop :=
  m < 2 ^ 53 ∧ minExponent ≤ q ∧ q ≤ maxExponent ∧ (2 ^ 52 ≤ m ∨ q = minExponent)

def WellFormed : Double → Prop
  | .finite _ m q => IsCanonical m q
  | _ => True

/-! ## Fractions -/

theorem zpow_eq_div (b : ℚ) (k : Int) : b ^ k = b ^ k.toNat / b ^ (-k).toNat := by
  rcases Int.le_total 0 k with hk | hk
  · have hneg : (-k).toNat = 0 := by omega
    rw [hneg, pow_zero, div_one, ← zpow_natCast, Int.toNat_of_nonneg hk]
  · have hpos : k.toNat = 0 := by omega
    have habs : ((-k).toNat : Int) = -k := Int.toNat_of_nonneg (by omega)
    rw [hpos, pow_zero, one_div, ← zpow_natCast, habs, zpow_neg, inv_inv]

theorem shift_ratio (num den : Nat) (k : Int) :
    ((shift num den k).1 : ℚ) / (shift num den k).2 = num / den * 2 ^ k := by
  rw [zpow_eq_div]
  simp only [shift, Nat.pow_eq, Nat.cast_mul, Nat.cast_pow, Nat.cast_ofNat]
  exact mul_div_mul_comm _ _ _ _

theorem shift_den_pos {den : Nat} (h : 0 < den) (num : Nat) (k : Int) :
    0 < (shift num den k).2 :=
  Nat.mul_pos h (Nat.pow_pos (by decide))

/-- A value between two ends; an end itself belongs to it for an even number. -/
def Between (m : Nat) (low r high : ℚ) : Prop :=
  (low < r ∨ low = r ∧ m % 2 = 0) ∧ (r < high ∨ r = high ∧ m % 2 = 0)

theorem Between.le {m : Nat} {low r high : ℚ} (h : Between m low r high) : low ≤ r ∧ r ≤ high := by
  obtain ⟨hlow | ⟨hlow, -⟩, hhigh | ⟨hhigh, -⟩⟩ := h
  · exact ⟨hlow.le, hhigh.le⟩
  · exact ⟨hlow.le, hhigh.le⟩
  · exact ⟨hlow.le, hhigh.le⟩
  · exact ⟨hlow.le, hhigh.le⟩

theorem Between.scale {m : Nat} {low r high c : ℚ} (hc : 0 < c) (h : Between m low r high) :
    Between m (low * c) (r * c) (high * c) := by
  obtain ⟨hlow, hhigh⟩ := h
  refine ⟨hlow.imp (fun h => mul_lt_mul_of_pos_right h hc) fun h => ⟨by rw [h.1], h.2⟩,
    hhigh.imp (fun h => mul_lt_mul_of_pos_right h hc) fun h => ⟨by rw [h.1], h.2⟩⟩

/-! ## The nearest whole number -/

theorem roundQuotient_cases (num den : Nat) :
    roundQuotient num den = num / den ∨ roundQuotient num den = num / den + 1 := by
  have heven : num / den % 2 = 0 ∨ num / den % 2 = 1 := Nat.mod_two_eq_zero_or_one _
  simp only [roundQuotient]
  split
  · exact .inl rfl
  · split
    · exact heven.imp (fun h => by rw [h, Nat.add_zero]) fun h => by rw [h]
    · exact .inr rfl

/-- What lies nearer to `n` than a half is rounded to it, and at a half what lies at an even `n`. -/
theorem roundQuotient_eq {num den n : Nat} (hden : 0 < den)
    (h : Between n (n - 1 / 2) (num / den) (n + 1 / 2)) : roundQuotient num den = n := by
  have hpos : (0 : ℚ) < den := by exact_mod_cast hden
  -- the ends in whole numbers
  have hlow : 2 * (n * den) < 2 * num + den ∨ 2 * (n * den) = 2 * num + den ∧ n % 2 = 0 := by
    refine h.1.imp (fun h => ?_) fun h => ⟨?_, h.2⟩
    · have h := (lt_div_iff₀ hpos).1 h
      have : (2 * (n * den) : ℚ) < 2 * num + den := by linarith
      exact_mod_cast this
    · have h := (eq_div_iff hpos.ne').1 h.1
      have : (2 * (n * den) : ℚ) = 2 * num + den := by linarith
      exact_mod_cast this
  have hhigh : 2 * num < 2 * (n * den) + den ∨ 2 * num = 2 * (n * den) + den ∧ n % 2 = 0 := by
    refine h.2.imp (fun h => ?_) fun h => ⟨?_, h.2⟩
    · have h := (div_lt_iff₀ hpos).1 h
      have : (2 * num : ℚ) < 2 * (n * den) + den := by linarith
      exact_mod_cast this
    · have h := (div_eq_iff hpos.ne').1 h.1
      have : (2 * num : ℚ) = 2 * (n * den) + den := by linarith
      exact_mod_cast this
  have hdiv : num / den * den + num % den = num := Nat.div_add_mod' num den
  have hmod : num % den < den := Nat.mod_lt _ hden
  -- so the quotient is `n` or the number below
  have hle : num / den ≤ n := Nat.le_of_lt_succ <| lt_of_mul_lt_mul_right
    (by rw [Nat.succ_mul]; omega : num / den * den < n.succ * den) (Nat.zero_le _)
  have hge : n ≤ num / den + 1 := Nat.le_of_lt_succ <| lt_of_mul_lt_mul_right
    (by rw [Nat.succ_mul, Nat.succ_mul]; omega : n * den < (num / den + 1).succ * den)
    (Nat.zero_le _)
  obtain hn | hn : n = num / den ∨ n = num / den + 1 := by omega
  · rw [← hn] at hdiv
    simp only [roundQuotient, ← hn]
    split
    · rfl
    · split
      · omega
      · omega
  · have hmul : n * den = num / den * den + den := by rw [hn, Nat.succ_mul]
    simp only [roundQuotient]
    split
    · omega
    · split
      · omega
      · omega

/-! ## The exponent -/

section Ratio

variable {num den : Nat} (hnum : num ≠ 0) (hden : den ≠ 0)

include hnum hden

theorem two_zpow_log2_lt : (2 : ℚ) ^ ((num.log2 : Int) - den.log2 - 1) < num / den ∧
    (num / den : ℚ) < 2 ^ ((num.log2 : Int) - den.log2 + 1) := by
  have hpos : (0 : ℚ) < den := by exact_mod_cast Nat.pos_of_ne_zero hden
  have hnlow : (2 : ℚ) ^ (num.log2 : Int) ≤ num := by exact_mod_cast Nat.log2_self_le hnum
  have hnhigh : (num : ℚ) < 2 ^ ((num.log2 : Int) + 1) := by exact_mod_cast Nat.lt_log2_self
  have hdlow : (2 : ℚ) ^ (den.log2 : Int) ≤ den := by exact_mod_cast Nat.log2_self_le hden
  have hdhigh : (den : ℚ) < 2 ^ ((den.log2 : Int) + 1) := by exact_mod_cast Nat.lt_log2_self
  constructor
  · rw [lt_div_iff₀ hpos]
    calc (2 : ℚ) ^ ((num.log2 : Int) - den.log2 - 1) * den
        < 2 ^ ((num.log2 : Int) - den.log2 - 1) * 2 ^ ((den.log2 : Int) + 1) :=
          mul_lt_mul_of_pos_left hdhigh (by positivity)
      _ = 2 ^ (num.log2 : Int) := by rw [← zpow_add₀ two_ne_zero]; congr 1; omega
      _ ≤ num := hnlow
  · rw [div_lt_iff₀ hpos]
    calc (num : ℚ) < 2 ^ ((num.log2 : Int) + 1) := hnhigh
      _ = 2 ^ ((num.log2 : Int) - den.log2 + 1) * 2 ^ (den.log2 : Int) := by
          rw [← zpow_add₀ two_ne_zero]; congr 1; omega
      _ ≤ 2 ^ ((num.log2 : Int) - den.log2 + 1) * den :=
          mul_le_mul_of_nonneg_left hdlow (by positivity)

/-- In units of its exponent a value is below `2 ^ 53`, and it is not below `2 ^ 52` unless the
exponent is the least one. -/
theorem unitExponent_spec : minExponent ≤ unitExponent num den ∧
    (num / den : ℚ) < 2 ^ (unitExponent num den + 53) ∧
    ((2 : ℚ) ^ (unitExponent num den + 52) ≤ num / den ∨ unitExponent num den = minExponent) := by
  obtain ⟨hlow, hhigh⟩ := two_zpow_log2_lt hnum hden
  set q := (num.log2 : Int) - den.log2 - 53 with hq
  have hshift := shift_ratio num den (-q)
  have hpos := shift_den_pos (Nat.pos_of_ne_zero hden) num (-q)
  -- the test compares the value with `2 ^ (q + 53)`
  have htest : (shift num den (-q)).1 / (shift num den (-q)).2 < Nat.pow 2 53 ↔
      (num / den : ℚ) < 2 ^ (q + 53) := by
    rw [Nat.div_lt_iff_lt_mul hpos, ← Nat.cast_lt (α := ℚ), Nat.cast_mul, Nat.pow_eq,
      ← div_lt_iff₀ (by exact_mod_cast hpos), hshift, zpow_neg, ← div_eq_mul_inv,
      div_lt_iff₀ (by positivity), zpow_add₀ two_ne_zero, mul_comm]
    norm_cast
  have hunit : unitExponent num den = max
      (if (shift num den (-q)).1 / (shift num den (-q)).2 < Nat.pow 2 53 then q else q + 1)
      minExponent := rfl
  have hlow' : (2 : ℚ) ^ (q + 52) < num / den := by
    rwa [show q + 52 = (num.log2 : Int) - den.log2 - 1 by omega]
  have hhigh' : (num / den : ℚ) < 2 ^ (q + 1 + 53) := by
    rwa [show q + 1 + 53 = (num.log2 : Int) - den.log2 + 1 by omega]
  obtain ⟨k, hk, hklow, hkhigh⟩ : ∃ k, unitExponent num den = max k minExponent ∧
      (2 : ℚ) ^ (k + 52) ≤ num / den ∧ (num / den : ℚ) < 2 ^ (k + 53) := by
    by_cases hlt : (num / den : ℚ) < 2 ^ (q + 53)
    · exact ⟨q, by rw [hunit, if_pos (htest.2 hlt)], hlow'.le, hlt⟩
    · refine ⟨q + 1, by rw [hunit, if_neg (mt htest.1 hlt)], ?_, hhigh'⟩
      rw [show q + 1 + 52 = q + 53 by omega]
      exact not_lt.1 hlt
  rcases le_total minExponent k with hle | hle
  · rw [hk, max_eq_left hle]
    exact ⟨hle, hkhigh, .inl hklow⟩
  · rw [hk, max_eq_right hle]
    exact ⟨le_rfl, hkhigh.trans_le (zpow_le_zpow_right₀ one_le_two (by omega)), .inr rfl⟩

/-- The quotient that is rounded has 53 bits, or fewer at the least exponent. -/
theorem significand_bounds {f : Nat × Nat} (hf : f = shift num den (-unitExponent num den)) :
    f.1 / f.2 < 2 ^ 53 ∧ (2 ^ 52 ≤ f.1 / f.2 ∨ unitExponent num den = minExponent) := by
  obtain ⟨-, hhigh, hlow⟩ := unitExponent_spec hnum hden
  have hpos : 0 < f.2 := hf ▸ shift_den_pos (Nat.pos_of_ne_zero hden) num _
  have hratio : (f.1 / f.2 : ℚ) = num / den / 2 ^ unitExponent num den := by
    rw [hf, shift_ratio, zpow_neg, div_eq_mul_inv (num / den : ℚ)]
  have hunit : (0 : ℚ) < 2 ^ unitExponent num den := by positivity
  constructor
  · rw [Nat.div_lt_iff_lt_mul hpos, ← Nat.cast_lt (α := ℚ), Nat.cast_mul,
      ← div_lt_iff₀ (by exact_mod_cast hpos), hratio, div_lt_iff₀ hunit, mul_comm]
    rw [zpow_add₀ two_ne_zero] at hhigh
    exact_mod_cast hhigh
  · refine hlow.imp_left fun hlow => ?_
    rw [Nat.le_div_iff_mul_le hpos, ← Nat.cast_le (α := ℚ), Nat.cast_mul,
      ← le_div_iff₀ (by exact_mod_cast hpos), hratio, le_div_iff₀ hunit, mul_comm]
    rw [zpow_add₀ two_ne_zero] at hlow
    exact_mod_cast hlow

theorem unitExponent_of_bounds {q : Int} (hmin : minExponent ≤ q)
    (hhigh : (num / den : ℚ) < 2 ^ (q + 53))
    (hlow : (2 : ℚ) ^ (q + 52) ≤ num / den ∨ q = minExponent) : unitExponent num den = q := by
  obtain ⟨hmin', hhigh', hlow'⟩ := unitExponent_spec hnum hden
  -- each of the two exponents bounds the other one
  have hle : ∀ {j k : Int}, minExponent ≤ k → (num / den : ℚ) < 2 ^ (k + 53) →
      ((2 : ℚ) ^ (j + 52) ≤ num / den ∨ j = minExponent) → j ≤ k := by
    intro j k hk hhigh hlow
    rcases hlow with hlow | rfl
    · have hlt := (zpow_lt_zpow_iff_right₀ (one_lt_two : (1 : ℚ) < 2)).1 (hlow.trans_lt hhigh)
      omega
    · exact hk
  exact le_antisymm (hle hmin hhigh hlow') (hle hmin' hhigh' hlow)

end Ratio

/-! ## Rounding a fraction -/

def bounded (negative : Bool) (m : Nat) (q : Int) : Double :=
  if maxExponent < q then .infinity negative else .finite negative m q

theorem wellFormed_bounded {negative : Bool} {m : Nat} {q : Int} (hm : m < 2 ^ 53)
    (hq : minExponent ≤ q) (h : 2 ^ 52 ≤ m ∨ q = minExponent) :
    (bounded negative m q).WellFormed := by
  rw [bounded]
  split
  · trivial
  · exact ⟨hm, hq, by omega, h⟩

theorem bounded_of_isCanonical {m : Nat} {q : Int} (h : IsCanonical m q) (negative : Bool) :
    bounded negative m q = finite negative m q :=
  if_neg (not_lt.2 h.2.2.1)

/-- The significand, rounded, where a carry out of 53 bits goes to the exponent. -/
theorem ofRatio_eq_bounded {num den : Nat} (h : num ≠ 0) (negative : Bool) :
    ofRatio negative num den =
      let q := unitExponent num den
      let m := roundQuotient (shift num den (-q)).1 (shift num den (-q)).2
      if m = 2 ^ 53 then bounded negative (2 ^ 52) (q + 1) else bounded negative m q := by
  simp only [ofRatio, if_neg h, Nat.pow_eq, bounded]
  split
  · rfl
  · rfl

theorem wellFormed_zero (negative : Bool) : (zero negative).WellFormed := by
  simp [zero, WellFormed, IsCanonical, minExponent, maxExponent]

theorem wellFormed_ofRatio {den : Nat} (hden : den ≠ 0) (negative : Bool) (num : Nat) :
    (ofRatio negative num den).WellFormed := by
  by_cases hnum : num = 0
  · rw [ofRatio, if_pos hnum]
    exact wellFormed_zero negative
  · have hmin := (unitExponent_spec hnum hden).1
    obtain ⟨hlt, hge⟩ := significand_bounds hnum hden rfl
    have hround := roundQuotient_cases (shift num den (-unitExponent num den)).1
      (shift num den (-unitExponent num den)).2
    rw [ofRatio_eq_bounded hnum]
    dsimp only
    split
    · exact wellFormed_bounded (by decide) (by omega) (.inl le_rfl)
    · exact wellFormed_bounded (by omega) hmin (hge.imp_left fun hge => by omega)

/-- Far enough below the greatest exponent nothing is rounded to infinity. -/
theorem isFinite_ofRatio {num den : Nat} (hden : den ≠ 0) (h : (num / den : ℚ) < 2 ^ (1023 : Int))
    (negative : Bool) : (ofRatio negative num den).isFinite = true := by
  have hbounded : ∀ {m : Nat} {q : Int}, q ≤ maxExponent →
      (bounded negative m q).isFinite = true := by
    intro m q hq
    rw [bounded, if_neg (not_lt.2 hq)]
    rfl
  by_cases hnum : num = 0
  · rw [ofRatio, if_pos hnum]
    rfl
  · obtain ⟨-, -, hlow⟩ := unitExponent_spec hnum hden
    -- a carry raises the exponent by one
    have hexponent : unitExponent num den + 1 ≤ maxExponent := by
      rcases hlow with hlow | hmin
      · have hlt := (zpow_lt_zpow_iff_right₀ (one_lt_two (α := ℚ))).1 (hlow.trans_lt h)
        have hmax : maxExponent = 971 := rfl
        omega
      · rw [hmin]
        decide
    rw [ofRatio_eq_bounded hnum]
    dsimp only
    split
    · exact hbounded hexponent
    · exact hbounded (by omega)

/-! ## Midpoints -/

/-- The value lies between the midpoints to the neighbours of `m · 2 ^ q`. -/
def IsNear (m : Nat) (q : Int) (r : ℚ) : Prop :=
  Between m ((midpoints m q).1 * 2 ^ (q - 2)) r ((midpoints m q).2 * 2 ^ (q - 2))

/-- The ends in units of the last place: half a unit away, below a power of two a quarter. -/
theorem isNear_iff {m : Nat} (h : m ≠ 0) (q : Int) (r : ℚ) : IsNear m q r ↔
    Between m ((m - if m = 2 ^ 52 ∧ q ≠ minExponent then 1 / 4 else 1 / 2) * 2 ^ q) r
      ((m + 1 / 2) * 2 ^ q) := by
  have hunit : (2 : ℚ) ^ (q - 2) = 2 ^ q / 4 := by
    rw [zpow_sub₀ two_ne_zero]
    norm_num
  have hlow : ((midpoints m q).1 : ℚ) * (2 ^ q / 4) =
      (m - if m = 2 ^ 52 ∧ q ≠ minExponent then 1 / 4 else 1 / 2) * 2 ^ q := by
    simp only [midpoints, Nat.pow_eq, Bool.and_eq_true, decide_eq_true_eq, bne_iff_ne]
    split
    · rw [Nat.cast_sub (by omega)]
      push_cast
      ring
    · rw [Nat.cast_sub (by omega)]
      push_cast
      ring
  have hhigh : ((midpoints m q).2 : ℚ) * (2 ^ q / 4) = (m + 1 / 2) * 2 ^ q := by
    simp only [midpoints]
    push_cast
    ring
  rw [IsNear, hunit, hlow, hhigh]

section Near

variable {m : Nat} {q : Int} {r : ℚ} (hm : m ≠ 0) (h : IsNear m q r)

include hm h

theorem half_le_of_isNear : (2 : ℚ) ^ (q - 1) ≤ r := by
  have hone : (1 : ℚ) ≤ m := by exact_mod_cast Nat.one_le_iff_ne_zero.2 hm
  refine le_trans ?_ ((isNear_iff hm q r).1 h).le.1
  rw [zpow_sub_one₀ two_ne_zero, mul_comm]
  refine mul_le_mul_of_nonneg_right ?_ (by positivity)
  split
  · linarith
  · linarith

theorem isNear_pos : 0 < r := lt_of_lt_of_le (by positivity) (half_le_of_isNear hm h)

theorem lt_of_isNear (hcanonical : IsCanonical m q) : r < 2 ^ (q + 53) := by
  have hm53 : ((m + 1 : Nat) : ℚ) ≤ (2 ^ 53 : Nat) := by exact_mod_cast hcanonical.1
  rw [zpow_add₀ two_ne_zero, mul_comm]
  refine ((isNear_iff hm q r).1 h).le.2.trans_lt (mul_lt_mul_of_pos_right ?_ (by positivity))
  push_cast at hm53
  norm_cast
  push_cast
  linarith

/-- Only a power of two has values near it that lie below the range of its exponent. -/
theorem eq_power_of_isNear (hcanonical : IsCanonical m q) (hq : q ≠ minExponent)
    (hlow : r < 2 ^ (q + 52)) : m = 2 ^ 52 := by
  have hm52 : 2 ^ 52 ≤ m := hcanonical.2.2.2.resolve_right hq
  by_contra hne
  have hge : ((2 ^ 52 + 1 : Nat) : ℚ) ≤ m := by exact_mod_cast hm52.lt_of_ne' hne
  have hend : (2 : ℚ) ^ (q + 52) ≤ (m - 1 / 2) * 2 ^ q := by
    rw [zpow_add₀ two_ne_zero, mul_comm]
    refine mul_le_mul_of_nonneg_right ?_ (by positivity)
    norm_cast
    push_cast at hge ⊢
    linarith
  have hle := ((isNear_iff hm q r).1 h).le.1
  rw [if_neg (by tauto)] at hle
  linarith

end Near

/-! ## Rounding to a given double -/

section Nearest

variable {m num den : Nat} {q : Int} (hm : m ≠ 0) (hcanonical : IsCanonical m q) (hden : den ≠ 0)
  (h : IsNear m q (num / den)) (negative : Bool)

include hm h

theorem num_ne_zero_of_isNear : num ≠ 0 := fun hnum => by
  have hr := isNear_pos hm h
  simp [hnum] at hr

include hcanonical hden

/-- The exponent is that of the double, and so is the significand. -/
theorem ofRatio_of_isNear_of_le (hlow : (2 : ℚ) ^ (q + 52) ≤ num / den ∨ q = minExponent) :
    ofRatio negative num den = finite negative m q := by
  have hnum := num_ne_zero_of_isNear hm h
  have hunit := unitExponent_of_bounds hnum hden hcanonical.2.1 (lt_of_isNear hm h hcanonical) hlow
  have hround : roundQuotient (shift num den (-q)).1 (shift num den (-q)).2 = m := by
    refine roundQuotient_eq (shift_den_pos (Nat.pos_of_ne_zero hden) num _) ?_
    rw [shift_ratio]
    have hscaled := ((isNear_iff hm q _).1 h).scale (by positivity : (0 : ℚ) < 2 ^ (-q))
    simp only [mul_assoc, ← zpow_add₀ (two_ne_zero' ℚ), add_neg_cancel, zpow_zero, mul_one]
      at hscaled
    refine ⟨?_, hscaled.2⟩
    split at hscaled
    · -- a quarter away is nearer than a half
      have hle := hscaled.le.1
      exact .inl (by linarith)
    · exact hscaled.1
  rw [ofRatio_eq_bounded hnum]
  simp only [hunit, hround]
  rw [if_neg hcanonical.1.ne, bounded_of_isCanonical hcanonical]

/-- Below a power of two the exponent is one less, and the significand is carried. -/
theorem ofRatio_of_isNear_of_lt (hlow : (num / den : ℚ) < 2 ^ (q + 52)) (hq : q ≠ minExponent) :
    ofRatio negative num den = finite negative m q := by
  have hnum := num_ne_zero_of_isNear hm h
  have hbetween := (isNear_iff hm q _).1 h
  obtain rfl : m = 2 ^ 52 := eq_power_of_isNear hm h hcanonical hq hlow
  rw [if_pos ⟨rfl, hq⟩] at hbetween
  -- in units of the lower exponent the value is at most a half below `2 ^ 53`
  have hscaled := hbetween.scale (by positivity : (0 : ℚ) < 2 ^ (-(q - 1)))
  have htwo : (2 : ℚ) ^ q * 2 ^ (-(q - 1)) = 2 := by
    rw [← zpow_add₀ two_ne_zero, show q + -(q - 1) = 1 by omega, zpow_one]
  rw [mul_assoc, htwo] at hscaled
  have hge : (2 : ℚ) ^ (q - 1 + 52) ≤ num / den := by
    refine le_trans ?_ hbetween.le.1
    rw [show q - 1 + 52 = 51 + q by omega, zpow_add₀ two_ne_zero]
    exact mul_le_mul_of_nonneg_right (by norm_num) (by positivity)
  have hunit : unitExponent num den = q - 1 := by
    refine unitExponent_of_bounds hnum hden (by have := hcanonical.2.1; omega) ?_ (.inl hge)
    rwa [show q - 1 + 53 = q + 52 by omega]
  have hround : roundQuotient (shift num den (-(q - 1))).1 (shift num den (-(q - 1))).2 =
      2 ^ 53 := by
    refine roundQuotient_eq (shift_den_pos (Nat.pos_of_ne_zero hden) num _) ?_
    rw [shift_ratio]
    have hend : (((2 ^ 52 : Nat) : ℚ) - 1 / 4) * 2 = ((2 ^ 53 : Nat) : ℚ) - 1 / 2 := by norm_num
    have hhigh : (num / den : ℚ) * 2 ^ (-(q - 1)) < ((2 ^ 53 : Nat) : ℚ) + 1 / 2 := by
      have hlt := mul_lt_mul_of_pos_right hlow (by positivity : (0 : ℚ) < 2 ^ (-(q - 1)))
      rw [← zpow_add₀ two_ne_zero, show q + 52 + -(q - 1) = 53 by omega] at hlt
      refine hlt.trans ?_
      norm_num
    rw [hend] at hscaled
    exact ⟨hscaled.1.imp_right fun h => ⟨h.1, by decide⟩, .inl hhigh⟩
  rw [ofRatio_eq_bounded hnum]
  simp only [hunit, hround, if_true, sub_add_cancel]
  exact bounded_of_isCanonical hcanonical negative

/-- What lies between the midpoints around a double is rounded to it. -/
theorem ofRatio_of_isNear : ofRatio negative num den = finite negative m q := by
  by_cases hlow : (2 : ℚ) ^ (q + 52) ≤ num / den ∨ q = minExponent
  · exact ofRatio_of_isNear_of_le hm hcanonical hden h negative hlow
  · obtain ⟨hlt, hq⟩ := not_or.1 hlow
    exact ofRatio_of_isNear_of_lt hm hcanonical hden h negative (not_le.1 hlt) hq

end Nearest

/-! ## Operations -/

theorem wellFormed_ofNat (n : Nat) : (ofNat n).WellFormed :=
  wellFormed_ofRatio one_ne_zero false n

theorem WellFormed.neg {x : Double} (h : x.WellFormed) : x.neg.WellFormed := by
  cases x with
  | finite s m q => exact h
  | _ => trivial

theorem wellFormed_mul (x y : Double) : (x.mul y).WellFormed := by
  rw [mul.eq_def]
  split
  · exact wellFormed_ofRatio (shift_den_pos one_pos _ _).ne' _ _
  · trivial

theorem wellFormed_div (x y : Double) : (x.div y).WellFormed := by
  rw [div.eq_def]
  split
  · dsimp only
    split
    · trivial
    · rename_i hm
      exact wellFormed_ofRatio (shift_den_pos (Nat.pos_of_ne_zero hm) _ _).ne' _ _
  · trivial

/-! ## Decimals -/

theorem decimal_ratio (n : Nat) (e : Int) :
    ((n * Nat.pow 10 e.toNat : Nat) : ℚ) / (Nat.pow 10 (-e).toNat : Nat) = n * 10 ^ e := by
  rw [zpow_eq_div]
  simp only [Nat.pow_eq, Nat.cast_mul, Nat.cast_pow, Nat.cast_ofNat, mul_div_assoc]

theorem zpow_length_toDigits {n : Nat} (h : n ≠ 0) (e : Int) :
    (10 : ℚ) ^ ((Nat.toDigits 10 n).length + e - 1) ≤ n * 10 ^ e ∧
      (n * 10 ^ e : ℚ) < 10 ^ ((Nat.toDigits 10 n).length + e) := by
  obtain ⟨hlow, hhigh⟩ := Text.pow_length_toDigits h
  have hpos : 0 < (Nat.toDigits 10 n).length := Nat.length_toDigits_pos
  have hten : (10 : ℚ) ≠ 0 := by norm_num
  constructor
  · rw [show ((Nat.toDigits 10 n).length + e - 1 : Int) = ((Nat.toDigits 10 n).length - 1 : Nat) + e
      by omega, zpow_add₀ hten, zpow_natCast]
    exact mul_le_mul_of_nonneg_right (by exact_mod_cast hlow) (by positivity)
  · rw [zpow_add₀ hten, zpow_natCast]
    exact mul_lt_mul_of_pos_right (by exact_mod_cast hhigh) (by positivity)

/-- Doubles lie between the limits that settle a decimal without its power. -/
theorem limits : (10 : ℚ) ^ (-330 : Int) < 2 ^ (-1075 : Int) ∧
    (2 : ℚ) ^ (1024 : Int) < 10 ^ (310 : Int) := by
  constructor
  · calc (10 : ℚ) ^ (-330 : Int) = (10 ^ (-66 : Int)) ^ (5 : Int) := by rw [← zpow_mul]; rfl
      _ < (2 ^ (-215 : Int)) ^ (5 : Int) :=
          zpow_lt_zpow_left₀ (by norm_num) (by norm_num) (by norm_num)
      _ = 2 ^ (-1075 : Int) := by rw [← zpow_mul]; rfl
  · calc (2 : ℚ) ^ (1024 : Int) < 2 ^ (1025 : Int) := zpow_lt_zpow_right₀ one_lt_two (by decide)
      _ = (2 ^ (205 : Int)) ^ (5 : Int) := by rw [← zpow_mul]; rfl
      _ < (10 ^ (62 : Int)) ^ (5 : Int) :=
          zpow_lt_zpow_left₀ (by norm_num) (by norm_num) (by norm_num)
      _ = 10 ^ (310 : Int) := by rw [← zpow_mul]; rfl

/-- A decimal is settled without its power only where it is nearer to zero than to any other double,
or past the greatest one. -/
theorem ofDecimal_cases (negative : Bool) (n : Nat) (e : Int) :
    (ofDecimal negative n e = zero negative ∧ (n * 10 ^ e : ℚ) < 2 ^ (-1075 : Int)) ∨
      (ofDecimal negative n e = infinity negative ∧ (2 : ℚ) ^ (1024 : Int) < n * 10 ^ e) ∨
      ofDecimal negative n e =
        ofRatio negative (n * Nat.pow 10 e.toNat) (Nat.pow 10 (-e).toNat) := by
  by_cases hn : n = 0
  · subst hn
    refine .inl ⟨rfl, ?_⟩
    rw [Nat.cast_zero, zero_mul]
    positivity
  obtain ⟨hlow, hhigh⟩ := zpow_length_toDigits hn e
  by_cases hsmall : ((Nat.toDigits 10 n).length + e : Int) < -330
  · refine .inl ⟨by simp [ofDecimal, hsmall], hhigh.trans_le (le_trans ?_ limits.1.le)⟩
    exact zpow_le_zpow_right₀ (by norm_num) (by omega)
  · by_cases hlarge : 310 < ((Nat.toDigits 10 n).length + e : Int)
    · refine .inr (.inl ⟨by simp [ofDecimal, hn, hsmall, hlarge], lt_of_lt_of_le ?_ hlow⟩)
      exact limits.2.trans_le (zpow_le_zpow_right₀ (by norm_num) (by omega))
    · exact .inr (.inr (by simp [ofDecimal, hn, hsmall, hlarge]))

theorem ofDecimal_of_isNear {m n : Nat} {q e : Int} (hm : m ≠ 0) (hcanonical : IsCanonical m q)
    (h : IsNear m q (n * 10 ^ e)) (negative : Bool) :
    ofDecimal negative n e = finite negative m q := by
  have hqmin : -1074 ≤ q := hcanonical.2.1
  have hqmax : q ≤ 971 := hcanonical.2.2.1
  have hmin : (2 : ℚ) ^ (-1075 : Int) ≤ n * 10 ^ e :=
    (zpow_le_zpow_right₀ one_le_two (by omega)).trans (half_le_of_isNear hm h)
  have hmax : (n * 10 ^ e : ℚ) < 2 ^ (1024 : Int) :=
    (lt_of_isNear hm h hcanonical).trans_le (zpow_le_zpow_right₀ one_le_two (by omega))
  have hden : Nat.pow 10 (-e).toNat ≠ 0 := (Nat.pow_pos (by decide)).ne'
  rcases ofDecimal_cases negative n e with ⟨-, hsmall⟩ | ⟨-, hlarge⟩ | hratio
  · exact absurd hsmall hmin.not_gt
  · exact absurd hlarge hmax.not_gt
  · rw [hratio]
    refine ofRatio_of_isNear hm hcanonical hden ?_ negative
    rwa [decimal_ratio]

end RestSql.Double
