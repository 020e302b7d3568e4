import RestSql.Proofs.Double.Rounding

/-!
The double that a decimal is rounded to is the nearest one, as if there were no greatest exponent;
of two that are equally near it is the one with the even significand. A decimal that is rounded to
no finite double has its nearest one past the greatest exponent.
-/

namespace RestSql.Double

/-- The finite double with the given sign to whose absolute value no number of 53 bits is nearer, be
its exponent as great as it may. Where another one is equally near, the significand is even. -/
def IsNearest (negative : Bool) (r : ℚ) : Double → Prop
  | .finite s m q => s = negative ∧ IsCanonical m q ∧ ∀ (n : Nat) (p : Int),
      n < 2 ^ 53 → minExponent ≤ p → (m * 2 ^ q : ℚ) ≠ n * 2 ^ p →
        |m * 2 ^ q - r| < |n * 2 ^ p - r| ∨ |m * 2 ^ q - r| = |n * 2 ^ p - r| ∧ m % 2 = 0
  | _ => False

variable {m n : Nat} {q p e : Int} {r : ℚ} {negative s : Bool}

/-! ## What is rounded is near -/

theorem between_roundQuotient {num den : Nat} (hden : 0 < den) :
    Between (roundQuotient num den) (roundQuotient num den - 1 / 2) (num / den)
      (roundQuotient num den + 1 / 2) := by
  have hpos : (0 : ℚ) < den := by exact_mod_cast hden
  have hsplit : (num : ℚ) = (num / den : Nat) * den + (num % den : Nat) := by
    exact_mod_cast (Nat.div_add_mod' num den).symm
  have hratio : (num / den : ℚ) = (num / den : Nat) + (num % den : Nat) / den := by
    rw [div_eq_iff hpos.ne', add_mul, div_mul_cancel₀ _ hpos.ne']
    exact hsplit
  have hnonneg : (0 : ℚ) ≤ (num % den : Nat) / den := by positivity
  have hlt : ((num % den : Nat) / den : ℚ) < 1 := by
    rw [div_lt_one hpos]
    exact_mod_cast Nat.mod_lt num hden
  rw [hratio]
  rcases lt_trichotomy (2 * (num % den)) den with hless | hhalf | hmore
  · have hround : roundQuotient num den = num / den := if_pos hless
    have hfraction : ((num % den : Nat) / den : ℚ) < 1 / 2 := by
      rw [div_lt_iff₀ hpos]
      have : (2 * (num % den : Nat) : ℚ) < den := by exact_mod_cast hless
      linarith
    rw [hround]
    exact ⟨.inl (by linarith), .inl (by linarith)⟩
  · have hround : roundQuotient num den = num / den + num / den % 2 :=
      (if_neg hhalf.not_lt).trans (if_pos hhalf)
    have hfraction : ((num % den : Nat) / den : ℚ) = 1 / 2 := by
      rw [div_eq_iff hpos.ne']
      have : (2 * (num % den : Nat) : ℚ) = den := by exact_mod_cast hhalf
      linarith
    rw [hround, hfraction]
    rcases Nat.mod_two_eq_zero_or_one (num / den) with heven | hodd
    · rw [heven, Nat.add_zero]
      exact ⟨.inl (by linarith), .inr ⟨rfl, heven⟩⟩
    · rw [hodd]
      push_cast
      exact ⟨.inr ⟨by ring, by omega⟩, .inl (by linarith)⟩
  · have hround : roundQuotient num den = num / den + 1 :=
      (if_neg hmore.not_gt).trans (if_neg hmore.ne')
    have hfraction : 1 / 2 < ((num % den : Nat) / den : ℚ) := by
      rw [lt_div_iff₀ hpos]
      have : (den : ℚ) < 2 * (num % den : Nat) := by exact_mod_cast hmore
      linarith
    rw [hround]
    push_cast
    exact ⟨.inl (by linarith), .inl (by linarith)⟩

theorem isNear_zero_iff (q : Int) (r : ℚ) : IsNear 0 q r ↔ 0 ≤ r ∧ r ≤ 1 / 2 * 2 ^ q := by
  have hunit : (2 : ℚ) ^ (q - 2) = 2 ^ q / 4 := by
    rw [zpow_sub₀ two_ne_zero]
    norm_num
  have hends : midpoints 0 q = (0, 2) := rfl
  have hhigh : (2 : ℚ) * (2 ^ q / 4) = 1 / 2 * 2 ^ q := by ring
  simp only [IsNear, Between, hends, hunit, Nat.cast_zero, zero_mul, Nat.cast_ofNat, hhigh,
    Nat.zero_mod, and_true, le_iff_lt_or_eq]

theorem isNear_of_ofRatio {num den : Nat} (hden : den ≠ 0)
    (h : ofRatio negative num den = finite s m q) : s = negative ∧ IsNear m q (num / den) := by
  by_cases hnum : num = 0
  · subst hnum
    rw [ofRatio, if_pos rfl, zero] at h
    injection h with hs hm hq
    subst hs hm hq
    refine ⟨rfl, (isNear_zero_iff _ _).2 ?_⟩
    rw [Nat.cast_zero, zero_div]
    exact ⟨le_rfl, by positivity⟩
  obtain ⟨hmin, hhigh, hlow⟩ := unitExponent_spec hnum hden
  rw [ofRatio_eq_bounded hnum] at h
  set k := unitExponent num den
  have hpos : 0 < (shift num den (-k)).2 := shift_den_pos (Nat.pos_of_ne_zero hden) num _
  have hround := @between_roundQuotient (shift num den (-k)).1 _ hpos
  dsimp only at h
  set j := roundQuotient (shift num den (-k)).1 (shift num den (-k)).2
  -- the value between the ends around the rounded significand
  have hbetween : Between j ((j - 1 / 2) * 2 ^ k) (num / den) ((j + 1 / 2) * 2 ^ k) := by
    have hscaled := hround.scale (by positivity : (0 : ℚ) < 2 ^ k)
    rwa [shift_ratio, mul_assoc, ← zpow_add₀ two_ne_zero, neg_add_cancel, zpow_zero, mul_one]
      at hscaled
  have hbounded : ∀ {i : Nat} {l : Int}, bounded negative i l = finite s m q →
      s = negative ∧ m = i ∧ q = l := by
    intro i l hi
    unfold bounded at hi
    split at hi
    · cases hi
    · injection hi with hs hm hq
      exact ⟨hs.symm, hm.symm, hq.symm⟩
  split at h
  · -- the significand was carried, and the value is below a power of two
    rename_i hcarry
    obtain ⟨rfl, rfl, rfl⟩ := hbounded h
    refine ⟨rfl, (isNear_iff (by decide) _ _).2 ?_⟩
    rw [if_pos ⟨rfl, by omega⟩, zpow_add_one₀ two_ne_zero]
    rw [hcarry] at hbetween
    have hlow' : (((2 ^ 52 : Nat) : ℚ) - 1 / 4) * (2 ^ k * 2) =
        ((2 ^ 53 : Nat) - 1 / 2) * 2 ^ k := by
      push_cast
      ring
    have hhigh' : (((2 ^ 52 : Nat) : ℚ) + 1 / 2) * (2 ^ k * 2) = 2 ^ (k + 53) + 2 ^ k := by
      rw [zpow_add₀ two_ne_zero]
      push_cast
      ring
    rw [hlow', hhigh']
    exact ⟨hbetween.1.imp_right fun h => ⟨h.1, by decide⟩,
      .inl (hhigh.trans (lt_add_of_pos_right _ (by positivity)))⟩
  · obtain ⟨rfl, rfl, rfl⟩ := hbounded h
    refine ⟨rfl, ?_⟩
    by_cases hj : j = 0
    · rw [hj] at hbetween ⊢
      have hle := hbetween.le.2
      rw [Nat.cast_zero, zero_add] at hle
      exact (isNear_zero_iff _ _).2 ⟨by positivity, hle⟩
    · refine (isNear_iff hj _ _).2 ?_
      split
      · -- the power of two itself is not above the value
        rename_i hpower
        refine ⟨.inl ?_, hbetween.2⟩
        have hle := hlow.resolve_right hpower.2
        rw [zpow_add₀ two_ne_zero] at hle
        refine lt_of_lt_of_le ?_ hle
        rw [hpower.1, mul_comm]
        exact mul_lt_mul_of_pos_left (by norm_num) (by positivity)
      · exact hbetween

theorem wellFormed_ofDecimal (negative : Bool) (n : Nat) (e : Int) :
    (ofDecimal negative n e).WellFormed := by
  rcases ofDecimal_cases negative n e with ⟨h, -⟩ | ⟨h, -⟩ | h
  · rw [h]
    exact wellFormed_zero negative
  · rw [h]
    trivial
  · rw [h]
    exact wellFormed_ofRatio (Nat.pow_pos (by decide)).ne' negative _

theorem isNear_of_ofDecimal (h : ofDecimal negative n e = finite s m q) :
    s = negative ∧ IsNear m q (n * 10 ^ e) := by
  rcases ofDecimal_cases negative n e with ⟨hzero, hsmall⟩ | ⟨hinfinity, -⟩ | hratio
  · rw [hzero, zero] at h
    injection h with hs hm hq
    subst hs hm hq
    refine ⟨rfl, (isNear_zero_iff _ _).2 ⟨by positivity, hsmall.le.trans_eq ?_⟩⟩
    rw [show (-1075 : Int) = minExponent - 1 from rfl, zpow_sub_one₀ two_ne_zero]
    ring
  · rw [hinfinity] at h
    cases h
  · rw [hratio] at h
    rw [← decimal_ratio]
    exact isNear_of_ofRatio (Nat.pow_pos (by decide)).ne' h

theorem ofRatio_of_isNear_zero {num den : Nat} (hden : den ≠ 0)
    (h : IsNear 0 minExponent (num / den)) (negative : Bool) :
    ofRatio negative num den = zero negative := by
  by_cases hnum : num = 0
  · rw [ofRatio, if_pos hnum]
  obtain ⟨hlow, hhigh⟩ := (isNear_zero_iff _ _).1 h
  have hunit : unitExponent num den = minExponent := by
    refine unitExponent_of_bounds hnum hden le_rfl (hhigh.trans_lt ?_) (.inr rfl)
    rw [zpow_add₀ two_ne_zero, mul_comm]
    exact mul_lt_mul_of_pos_left (by norm_num) (by positivity)
  have hround : roundQuotient (shift num den (-minExponent)).1 (shift num den (-minExponent)).2 =
      0 := by
    refine roundQuotient_eq (shift_den_pos (Nat.pos_of_ne_zero hden) num _) ?_
    rw [shift_ratio, Nat.cast_zero, zero_sub, zero_add]
    have hscaled := mul_le_mul_of_nonneg_right hhigh (by positivity : (0 : ℚ) ≤ 2 ^ (-minExponent))
    rw [mul_assoc, ← zpow_add₀ two_ne_zero, add_neg_cancel, zpow_zero, mul_one] at hscaled
    have hnonneg : (0 : ℚ) ≤ num / den * 2 ^ (-minExponent) := by positivity
    exact ⟨.inl (by linarith), hscaled.lt_or_eq.imp_right fun h => ⟨h, rfl⟩⟩
  rw [ofRatio_eq_bounded hnum]
  simp only [hunit, hround]
  rfl

theorem ofDecimal_of_isNear_zero (h : IsNear 0 minExponent (n * 10 ^ e)) (negative : Bool) :
    ofDecimal negative n e = zero negative := by
  rcases ofDecimal_cases negative n e with ⟨hzero, -⟩ | ⟨-, hlarge⟩ | hratio
  · exact hzero
  · have hhigh := ((isNear_zero_iff _ _).1 h).2
    have hunit : (1 / 2 * 2 ^ minExponent : ℚ) < 2 ^ (1024 : Int) := by
      rw [one_div, inv_mul_lt_iff₀ two_pos, ← zpow_one_add₀ two_ne_zero]
      exact zpow_lt_zpow_right₀ one_lt_two (by decide)
    exact absurd (hlarge.trans_le hhigh) hunit.not_gt
  · have hden : Nat.pow 10 (-e).toNat ≠ 0 := (Nat.pow_pos (by decide)).ne'
    rw [hratio]
    refine ofRatio_of_isNear_zero hden ?_ negative
    rwa [decimal_ratio]

theorem ofDecimal_eq_finite_iff (hcanonical : IsCanonical m q) :
    ofDecimal negative n e = finite s m q ↔ s = negative ∧ IsNear m q (n * 10 ^ e) := by
  refine ⟨isNear_of_ofDecimal, ?_⟩
  rintro ⟨rfl, hnear⟩
  by_cases hm : m = 0
  · subst hm
    obtain rfl : q = minExponent := hcanonical.2.2.2.resolve_left (by decide)
    exact ofDecimal_of_isNear_zero hnear s
  · exact ofDecimal_of_isNear hm hcanonical hnear s

/-! ## Neighbours -/

/-- How far away the next lower number of 53 bits is, in units of the last place. -/
def gapBelow (m : Nat) (q : Int) : ℚ := if m = 2 ^ 52 ∧ q ≠ minExponent then 1 / 2 else 1

theorem gapBelow_bounds (m : Nat) (q : Int) : 0 < gapBelow m q ∧ gapBelow m q ≤ 1 := by
  unfold gapBelow
  split
  · norm_num
  · norm_num

/-- The middle between a number and the next lower one, and between it and the next greater one. -/
theorem isNear_iff_midpoints (hr : 0 ≤ r) : IsNear m q r ↔
    (m ≠ 0 → (m - gapBelow m q / 2) * 2 ^ q < r ∨ (m - gapBelow m q / 2) * 2 ^ q = r ∧ m % 2 = 0) ∧
      (r < (m + 1 / 2) * 2 ^ q ∨ r = (m + 1 / 2) * 2 ^ q ∧ m % 2 = 0) := by
  by_cases hm : m = 0
  · subst hm
    rw [isNear_zero_iff, Nat.cast_zero, zero_add, and_iff_right hr, and_iff_right (by simp),
      le_iff_lt_or_eq, Nat.zero_mod, eq_self, and_true]
  · have hhalf : gapBelow m q / 2 = if m = 2 ^ 52 ∧ q ≠ minExponent then 1 / 4 else 1 / 2 := by
      unfold gapBelow
      split
      · norm_num
      · rfl
    rw [isNear_iff hm, hhalf, Between, imp_iff_right hm]

/-- At a greater exponent, numbers are whole in units of the lower one. -/
theorem exists_eq_mul_zpow (n : Nat) (h : q ≤ p) :
    ∃ k : Nat, (n * 2 ^ p : ℚ) = k * 2 ^ q := by
  refine ⟨n * 2 ^ (p - q).toNat, ?_⟩
  have hpow : (2 : ℚ) ^ p = 2 ^ (p - q).toNat * 2 ^ q := by
    rw [← zpow_natCast, ← zpow_add₀ two_ne_zero]
    congr 1
    omega
  rw [hpow]
  push_cast
  ring

/-- At a lower exponent, no number of 53 bits is above half a unit below `2 ^ 52`. -/
theorem mul_zpow_le_of_lt (hn : n < 2 ^ 53) (h : p < q) :
    (n * 2 ^ p : ℚ) ≤ (2 ^ 52 - 1 / 2) * 2 ^ q := by
  have hle : ((n + 1 : Nat) : ℚ) ≤ (2 ^ 53 : Nat) := by exact_mod_cast hn
  push_cast at hle
  calc (n * 2 ^ p : ℚ) ≤ (2 ^ 53 - 1) * 2 ^ (q - 1) :=
        mul_le_mul (by linarith) (zpow_le_zpow_right₀ one_le_two (by omega)) (by positivity)
          (by norm_num)
    _ = (2 ^ 52 - 1 / 2) * 2 ^ q := by
        rw [zpow_sub_one₀ two_ne_zero]
        ring

section Neighbours

variable (hcanonical : IsCanonical m q)

include hcanonical

theorem le_of_mul_zpow_lt (hn : n < 2 ^ 53) (hp : minExponent ≤ p)
    (hlt : (m * 2 ^ q : ℚ) < n * 2 ^ p) : ((m + 1) * 2 ^ q : ℚ) ≤ n * 2 ^ p := by
  rcases le_or_gt q p with hqp | hpq
  · obtain ⟨k, hk⟩ := exists_eq_mul_zpow n hqp
    rw [hk] at hlt ⊢
    have hmk : m < k := by exact_mod_cast lt_of_mul_lt_mul_right hlt (by positivity)
    exact mul_le_mul_of_nonneg_right (by exact_mod_cast hmk) (by positivity)
  · -- what has a lower exponent is below `m`
    have hm : 2 ^ 52 ≤ m := hcanonical.2.2.2.resolve_right (by omega)
    have hm52 : ((2 ^ 52 : Nat) : ℚ) ≤ m := by exact_mod_cast hm
    push_cast at hm52
    have hbelow : (2 ^ 52 - 1 / 2 : ℚ) ≤ m := by linarith
    have hle := (mul_zpow_le_of_lt hn hpq).trans
      (mul_le_mul_of_nonneg_right hbelow (by positivity))
    exact absurd hlt hle.not_gt

theorem le_of_lt_mul_zpow (hn : n < 2 ^ 53) (hp : minExponent ≤ p)
    (hlt : (n * 2 ^ p : ℚ) < m * 2 ^ q) : (n * 2 ^ p : ℚ) ≤ (m - gapBelow m q) * 2 ^ q := by
  rcases le_or_gt q p with hqp | hpq
  · obtain ⟨k, hk⟩ := exists_eq_mul_zpow n hqp
    rw [hk] at hlt ⊢
    have hkm : k < m := by exact_mod_cast lt_of_mul_lt_mul_right hlt (by positivity)
    have hle : ((k + 1 : Nat) : ℚ) ≤ m := by exact_mod_cast hkm
    push_cast at hle
    have hgap := (gapBelow_bounds m q).2
    exact mul_le_mul_of_nonneg_right (by linarith) (by positivity)
  · have hq : q ≠ minExponent := by omega
    have hm : 2 ^ 52 ≤ m := hcanonical.2.2.2.resolve_right hq
    refine (mul_zpow_le_of_lt hn hpq).trans (mul_le_mul_of_nonneg_right ?_ (by positivity))
    unfold gapBelow
    split
    · rename_i hpower
      rw [hpower.1]
      norm_num
    · rename_i hpower
      have hne : m ≠ 2 ^ 52 := fun h => hpower ⟨h, hq⟩
      have hm52 : ((2 ^ 52 + 1 : Nat) : ℚ) ≤ m := by exact_mod_cast lt_of_le_of_ne hm hne.symm
      push_cast at hm52
      linarith

theorem exists_above : ∃ (n : Nat) (p : Int), n < 2 ^ 53 ∧ minExponent ≤ p ∧
    (n * 2 ^ p : ℚ) = (m + 1) * 2 ^ q := by
  have hmin := hcanonical.2.1
  have hm := hcanonical.1
  by_cases hlast : m + 1 = 2 ^ 53
  · refine ⟨2 ^ 52, q + 1, by decide, by omega, ?_⟩
    have hcast : (m + 1 : ℚ) = 2 ^ 53 := by exact_mod_cast hlast
    rw [hcast, zpow_add_one₀ two_ne_zero]
    push_cast
    ring
  · refine ⟨m + 1, q, by omega, hmin, ?_⟩
    push_cast
    ring

theorem exists_below (hm : m ≠ 0) : ∃ (n : Nat) (p : Int), n < 2 ^ 53 ∧ minExponent ≤ p ∧
    (n * 2 ^ p : ℚ) = (m - gapBelow m q) * 2 ^ q := by
  have hmin := hcanonical.2.1
  have hmax := hcanonical.1
  unfold gapBelow
  split
  · rename_i hpower
    refine ⟨2 ^ 53 - 1, q - 1, by decide, by omega, ?_⟩
    rw [hpower.1, zpow_sub_one₀ two_ne_zero]
    norm_num
    ring
  · refine ⟨m - 1, q, by omega, hmin, ?_⟩
    rw [Nat.cast_sub (by omega), Nat.cast_one]

end Neighbours

/-! ## Distances -/

section Distances

variable (u v r : ℚ)

theorem sq_sub_sq_eq : (v - r) ^ 2 - (u - r) ^ 2 = (v - u) * (u + v - 2 * r) := by ring

theorem abs_sub_lt_iff_pos : |u - r| < |v - r| ↔ 0 < (v - u) * (u + v - 2 * r) := by
  rw [← sq_lt_sq, ← sub_pos, sq_sub_sq_eq]

theorem abs_sub_eq_iff_zero : |u - r| = |v - r| ↔ (v - u) * (u + v - 2 * r) = 0 := by
  rw [← sq_eq_sq_iff_abs_eq_abs, ← sq_sub_sq_eq, sub_eq_zero, eq_comm]

end Distances

/-- Which side of the middle a number is on decides which of two others is nearer to it. -/
theorem nearer_iff_of_lt {u v : ℚ} (h : u < v) {even : Prop} :
    (|u - r| < |v - r| ∨ |u - r| = |v - r| ∧ even) ↔
      2 * r < u + v ∨ 2 * r = u + v ∧ even := by
  have hpos : 0 < v - u := sub_pos.2 h
  rw [abs_sub_lt_iff_pos, abs_sub_eq_iff_zero, mul_pos_iff_of_pos_left hpos, sub_pos,
    mul_eq_zero_iff_left hpos.ne', sub_eq_zero, eq_comm (a := u + v)]

theorem nearer_iff_of_gt {u v : ℚ} (h : v < u) {even : Prop} :
    (|u - r| < |v - r| ∨ |u - r| = |v - r| ∧ even) ↔
      u + v < 2 * r ∨ u + v = 2 * r ∧ even := by
  have hpos : 0 < u - v := sub_pos.2 h
  have hswap : (v - u) * (u + v - 2 * r) = (u - v) * (2 * r - (u + v)) := by ring
  rw [abs_sub_lt_iff_pos, abs_sub_eq_iff_zero, hswap, mul_pos_iff_of_pos_left hpos, sub_pos,
    mul_eq_zero_iff_left hpos.ne', sub_eq_zero, eq_comm (a := 2 * r)]

/-! ## The nearest double -/

/-- Between the middles to its neighbours a number is nearer than any other, and only there. -/
theorem isNear_iff_nearest (hcanonical : IsCanonical m q) (hr : 0 ≤ r) : IsNear m q r ↔
    ∀ (n : Nat) (p : Int), n < 2 ^ 53 → minExponent ≤ p → (m * 2 ^ q : ℚ) ≠ n * 2 ^ p →
      |m * 2 ^ q - r| < |n * 2 ^ p - r| ∨ |m * 2 ^ q - r| = |n * 2 ^ p - r| ∧ m % 2 = 0 := by
  have hunit : (0 : ℚ) < 2 ^ q := by positivity
  rw [isNear_iff_midpoints hr]
  constructor
  · rintro ⟨hlow, hhigh⟩ n p hn hp hne
    rcases lt_or_gt_of_ne hne with hlt | hgt
    · have hnext := le_of_mul_zpow_lt hcanonical hn hp hlt
      rw [nearer_iff_of_lt hlt]
      rcases hhigh with hhigh | ⟨hhigh, heven⟩
      · exact .inl (by linarith)
      · exact (show 2 * r ≤ m * 2 ^ q + n * 2 ^ p by linarith).lt_or_eq.imp_right (⟨·, heven⟩)
    · have hm : m ≠ 0 := by
        rintro rfl
        rw [Nat.cast_zero, zero_mul] at hgt
        exact absurd hgt (by positivity : (0 : ℚ) ≤ n * 2 ^ p).not_gt
      have hnext := le_of_lt_mul_zpow hcanonical hn hp hgt
      rw [nearer_iff_of_gt hgt]
      rcases hlow hm with hlow | ⟨hlow, heven⟩
      · exact .inl (by linarith)
      · exact (show m * 2 ^ q + n * 2 ^ p ≤ 2 * r by linarith).lt_or_eq.imp_right (⟨·, heven⟩)
  · intro h
    constructor
    · intro hm
      obtain ⟨n, p, hn, hp, hbelow⟩ := exists_below hcanonical hm
      have hgap := (gapBelow_bounds m q).1
      have hgt : (n * 2 ^ p : ℚ) < m * 2 ^ q := by
        rw [hbelow]
        exact mul_lt_mul_of_pos_right (by linarith) hunit
      have hnear := (nearer_iff_of_gt hgt).1 (h n p hn hp hgt.ne')
      rw [hbelow] at hnear
      exact hnear.imp (fun h => by linarith) fun h => ⟨by linarith, h.2⟩
    · obtain ⟨n, p, hn, hp, habove⟩ := exists_above hcanonical
      have hlt : (m * 2 ^ q : ℚ) < n * 2 ^ p := by
        rw [habove]
        exact mul_lt_mul_of_pos_right (by linarith) hunit
      have hnear := (nearer_iff_of_lt hlt).1 (h n p hn hp hlt.ne)
      rw [habove] at hnear
      exact hnear.imp (fun h => by linarith) fun h => ⟨by linarith, h.2⟩

/-- A decimal is rounded to a finite double exactly if that double is the nearest one. -/
theorem ofDecimal_eq_iff {x : Double} (hx : x.isFinite = true) :
    ofDecimal negative n e = x ↔ x.IsNearest negative (n * 10 ^ e) := by
  cases x with
  | nan => cases hx
  | infinity => cases hx
  | finite s m q =>
    have hr : (0 : ℚ) ≤ n * 10 ^ e := by positivity
    constructor
    · intro h
      have hcanonical : IsCanonical m q := by
        have hformed := wellFormed_ofDecimal negative n e
        rwa [h] at hformed
      obtain ⟨hs, hnear⟩ := (ofDecimal_eq_finite_iff hcanonical).1 h
      exact ⟨hs, hcanonical, (isNear_iff_nearest hcanonical hr).1 hnear⟩
    · rintro ⟨hs, hcanonical, hnearest⟩
      exact (ofDecimal_eq_finite_iff hcanonical).2
        ⟨hs, (isNear_iff_nearest hcanonical hr).2 hnearest⟩

end RestSql.Double
