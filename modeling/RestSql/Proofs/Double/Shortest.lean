import Mathlib.Tactic.FieldSimp
import RestSql.Proofs.Double.Rounding

/-!
The shortest digits of a double. They lie between the midpoints around it, so they are rounded to it
again, and between the powers of ten around it.
-/

namespace RestSql.Double

/-! ## Comparing decimals with doubles -/

theorem compareDecimal_eq (a : Nat) (p : Int) (b : Nat) (q : Int) :
    compareDecimal a p b q = compare (a * 10 ^ p : ℚ) (b * 2 ^ q) := by
  -- both sides are whole numbers in units of this fraction
  have hunit : (0 : ℚ) < 2 ^ (-q).toNat * 10 ^ (-p).toNat := by positivity
  have hleft : ((a * Nat.pow 10 p.toNat * Nat.pow 2 (-q).toNat : Nat) : ℚ) =
      a * 10 ^ p * (2 ^ (-q).toNat * 10 ^ (-p).toNat) := by
    rw [zpow_eq_div]
    simp only [Nat.pow_eq]
    push_cast
    field_simp
  have hright : ((b * Nat.pow 2 q.toNat * Nat.pow 10 (-p).toNat : Nat) : ℚ) =
      b * 2 ^ q * (2 ^ (-q).toNat * 10 ^ (-p).toNat) := by
    rw [zpow_eq_div]
    simp only [Nat.pow_eq]
    push_cast
    field_simp
  rw [compareDecimal]
  rcases lt_trichotomy (a * 10 ^ p : ℚ) (b * 2 ^ q) with h | h | h
  · rw [compare_lt_iff_lt.2 h, compare_lt_iff_lt, ← Nat.cast_lt (α := ℚ), hleft, hright]
    exact mul_lt_mul_of_pos_right h hunit
  · rw [compare_eq_iff_eq.2 h, compare_eq_iff_eq, ← Nat.cast_inj (R := ℚ), hleft, hright, h]
  · rw [compare_gt_iff_gt.2 h, compare_gt_iff_gt, ← Nat.cast_lt (α := ℚ), hleft, hright]
    exact mul_lt_mul_of_pos_right h hunit

theorem readsBack_iff {m a : Nat} {q p : Int} : readsBack m q a p = true ↔
    IsNear m q (a * 10 ^ p) := by
  simp only [readsBack, compareDecimal_eq, Bool.and_eq_true, Bool.or_eq_true, beq_iff_eq,
    compare_gt_iff_gt, compare_lt_iff_lt, compare_eq_iff_eq, IsNear, Between,
    eq_comm (a := (a * 10 ^ p : ℚ)) (b := ((midpoints m q).1 : ℚ) * 2 ^ (q - 2))]

/-! ## The first digit -/

theorem pow_length_quotient {num den : Nat} (hden : 0 < den) (h : den ≤ num) :
    den * 10 ^ ((Nat.toDigits 10 (num / den)).length - 1) ≤ num ∧
      num < den * 10 ^ (Nat.toDigits 10 (num / den)).length := by
  obtain ⟨hlow, hhigh⟩ := Text.pow_length_toDigits (Nat.div_pos h hden).ne'
  rw [Nat.le_div_iff_mul_le hden, mul_comm] at hlow
  rw [Nat.div_lt_iff_lt_mul hden, mul_comm] at hhigh
  exact ⟨hlow, hhigh⟩

/-- The power of ten of the first digit is the greatest that is not above the value. -/
theorem firstPower_spec {num den : Nat} (hnum : num ≠ 0) (hden : den ≠ 0) :
    (10 : ℚ) ^ firstPower num den ≤ num / den ∧
      (num / den : ℚ) < 10 ^ (firstPower num den + 1) := by
  have hnum' : 0 < num := Nat.pos_of_ne_zero hnum
  have hpos : (0 : ℚ) < den := by exact_mod_cast Nat.pos_of_ne_zero hden
  rw [firstPower]
  split
  · rename_i hle
    obtain ⟨hlow, hhigh⟩ := pow_length_quotient (Nat.pos_of_ne_zero hden) hle
    set n := (Nat.toDigits 10 (num / den)).length
    have hn : 0 < n := Nat.length_toDigits_pos
    have hcast : (n : Int) - 1 = (n - 1 : Nat) := by omega
    constructor
    · rw [hcast, zpow_natCast, le_div_iff₀ hpos, mul_comm]
      exact_mod_cast hlow
    · rw [sub_add_cancel, zpow_natCast, div_lt_iff₀ hpos, mul_comm]
      exact_mod_cast hhigh
  · rename_i hlt
    obtain ⟨hlow, hhigh⟩ := pow_length_quotient hnum' (not_le.1 hlt).le
    set n := (Nat.toDigits 10 (den / num)).length
    have hn : 0 < n := Nat.length_toDigits_pos
    have hcast : (1 - n : Int) = -((n - 1 : Nat) : Int) := by omega
    -- a negative power of ten against the value is a power of ten against its inverse
    have hle : ∀ k : Nat, (10 : ℚ) ^ (-(k : Int)) ≤ num / den ↔ den ≤ num * 10 ^ k := by
      intro k
      rw [zpow_neg, zpow_natCast, inv_le_iff_one_le_mul₀ (by positivity), div_mul_eq_mul_div,
        one_le_div hpos]
      exact_mod_cast Iff.rfl
    simp only [Nat.pow_eq]
    split
    · rename_i hexact
      refine ⟨by rw [hcast]; exact (hle (n - 1)).2 hexact, ?_⟩
      have hup : (num / den : ℚ) ≤ 10 ^ (1 - n : Int) := by
        rw [hcast, zpow_neg, zpow_natCast, div_le_iff₀ hpos, ← div_eq_inv_mul,
          le_div_iff₀ (by positivity)]
        exact_mod_cast hlow
      exact hup.trans_lt (zpow_lt_zpow_right₀ (by norm_num) (by omega))
    · rename_i hnot
      refine ⟨(hle n).2 hhigh.le, ?_⟩
      rw [show -(n : Int) + 1 = 1 - n by omega, hcast, ← not_le, hle]
      exact hnot

/-! ## Neighbours -/

theorem Tie.round_cases (t : Tie) {den : Nat} (hden : 0 < den) (num : Nat) :
    t.round num den = num / den ∨ t.round num den = num / den + 1 := by
  cases t with
  | toEven => exact roundQuotient_cases num den
  | up =>
    have hmod : num % den < den := Nat.mod_lt _ hden
    have hsum : 2 * num + den = 2 * (num % den) + den + 2 * den * (num / den) := by
      have hdiv := Nat.div_add_mod num den
      rw [mul_assoc]
      omega
    have hrest : (2 * (num % den) + den) / (2 * den) < 2 := by
      rw [Nat.div_lt_iff_lt_mul (by omega)]
      omega
    rw [Tie.round, hsum, Nat.add_mul_div_left _ _ (by omega)]
    generalize (2 * (num % den) + den) / (2 * den) = k at hrest
    omega

/-- What is picked reads back and is one of the neighbours, and one is picked if one of them reads
back. -/
theorem exists_neighbours (m : Nat) (q p : Int) : ∃ a : Nat,
    (a * 10 ^ p : ℚ) ≤ m * 2 ^ q ∧ (m * 2 ^ q : ℚ) < (a + 1 : Nat) * 10 ^ p ∧ ∀ t : Tie,
      (∀ b, pick? t m q p = some b → IsNear m q (b * 10 ^ p) ∧ (b = a ∨ b = a + 1)) ∧
      (IsNear m q (a * 10 ^ p) ∨ IsNear m q ((a + 1 : Nat) * 10 ^ p) → pick? t m q p ≠ none) := by
  set num := (shift m 1 q).1 * Nat.pow 10 (-p).toNat with hnum
  set den := (shift m 1 q).2 * Nat.pow 10 p.toNat with hden
  have hpos : 0 < den := Nat.mul_pos (shift_den_pos one_pos m q) (Nat.pow_pos (by decide))
  have hratio : (num / den : ℚ) = m * 2 ^ q / 10 ^ p := by
    have hshift := shift_ratio m 1 q
    rw [Nat.cast_one, div_one] at hshift
    rw [hnum, hden, zpow_eq_div 10, Nat.cast_mul, Nat.cast_mul, mul_div_mul_comm, hshift]
    simp only [Nat.pow_eq]
    push_cast
    field_simp
  have hten : (0 : ℚ) < 10 ^ p := by positivity
  have hposq : (0 : ℚ) < den := by exact_mod_cast hpos
  refine ⟨num / den, ?_, ?_, fun t => ⟨fun b hb => ?_, fun hnear => ?_⟩⟩
  · rw [← le_div_iff₀ hten, ← hratio]
    rw [le_div_iff₀ hposq]
    exact_mod_cast Nat.div_mul_le_self num den
  · rw [← div_lt_iff₀ hten, ← hratio]
    rw [div_lt_iff₀ hposq]
    exact_mod_cast (Nat.div_lt_iff_lt_mul hpos).1 (Nat.lt_succ_self (num / den))
  · have hround := t.round_cases hpos num
    simp only [pick?, ← hnum, ← hden] at hb
    split at hb
    · rename_i hlow hhigh
      obtain rfl := Option.some.inj hb
      refine ⟨?_, hround⟩
      rcases hround with heq | heq
      · rw [heq]
        exact readsBack_iff.1 hlow
      · rw [heq]
        exact readsBack_iff.1 hhigh
    · rename_i hlow hhigh
      obtain rfl := Option.some.inj hb
      exact ⟨readsBack_iff.1 hlow, .inl rfl⟩
    · rename_i hlow hhigh
      obtain rfl := Option.some.inj hb
      exact ⟨readsBack_iff.1 hhigh, .inr rfl⟩
    · cases hb
  · simp only [pick?, ← hnum, ← hden, ← readsBack_iff] at hnear ⊢
    split
    · simp
    · simp
    · simp
    · rename_i hlow hhigh
      simp [hlow, hhigh] at hnear

/-- With seventeen digits the nearer neighbour reads back: its distance is below that of the
midpoints. -/
theorem isNear_neighbour {m a : Nat} {q p : Int} (hm : m ≠ 0) (hcanonical : IsCanonical m q)
    (hp : (10 ^ p * 10 ^ 16 : ℚ) ≤ m * 2 ^ q) (hlow : (a * 10 ^ p : ℚ) ≤ m * 2 ^ q)
    (hhigh : (m * 2 ^ q : ℚ) < (a + 1 : Nat) * 10 ^ p) :
    IsNear m q (a * 10 ^ p) ∨ IsNear m q ((a + 1 : Nat) * 10 ^ p) := by
  rw [isNear_iff hm, isNear_iff hm]
  have hm53 : (m : ℚ) < 2 ^ 53 := by exact_mod_cast hcanonical.1
  set u : ℚ := 10 ^ p
  set w : ℚ := 2 ^ q with hw
  have hupos : 0 < u := by positivity
  have hwpos : 0 < w := by positivity
  set c : ℚ := if m = 2 ^ 52 ∧ q ≠ minExponent then 1 / 4 else 1 / 2 with hc
  have hgap : u / 2 < c * w := by
    rw [hc]
    split
    · rename_i hpower
      have hmw : (m * w : ℚ) = 2 ^ 52 * w := by rw [hpower.1]; norm_num
      linarith
    · have hmw : (m * w : ℚ) < 2 ^ 53 * w := mul_lt_mul_of_pos_right hm53 hwpos
      linarith
  have hhalf : c * w ≤ w / 2 := by
    rw [hc]
    split
    · linarith
    · linarith
  rw [sub_mul, add_mul]
  by_cases hnear : m * w - a * u ≤ u / 2
  · exact .inl ⟨.inl (by linarith), .inl (by linarith)⟩
  · exact .inr ⟨.inl (by linarith), .inl (by push_cast at hhigh ⊢; linarith)⟩

/-! ## The search -/

variable {t : Tie} {m : Nat} {q : Int}

theorem search_eq_some {first : Int} {fuel n : Nat} {d : Decimal}
    (h : search t m q first fuel n = some d) :
    ∃ k, n ≤ k ∧ pick? t m q d.exponent = some d.digits ∧ d.exponent = first - k + 1 := by
  induction fuel generalizing n with
  | zero => cases h
  | succ fuel ih =>
    rw [search] at h
    split at h
    · rename_i a ha
      obtain rfl := Option.some.inj h
      exact ⟨n, le_rfl, ha, rfl⟩
    · obtain ⟨k, hk, hpick⟩ := ih h
      exact ⟨k, by omega, hpick⟩

theorem search_ne_none {first : Int} {fuel n k : Nat} (hn : n ≤ k) (hk : k < n + fuel)
    (h : pick? t m q (first - k + 1) ≠ none) : search t m q first fuel n ≠ none := by
  induction fuel generalizing n with
  | zero => omega
  | succ fuel ih =>
    rw [search]
    split
    · simp
    · rename_i hnone
      have hne : n ≠ k := fun heq => h (heq ▸ hnone)
      exact ih (by omega) (by omega)

def Decimal.value (d : Decimal) : ℚ := d.digits * 10 ^ d.exponent

theorem stripZeros_spec (fuel : Nat) (d : Decimal) :
    (stripZeros fuel d).value = d.value ∧ (d.digits ≠ 0 → (stripZeros fuel d).digits ≠ 0) := by
  induction fuel generalizing d with
  | zero => exact ⟨rfl, id⟩
  | succ fuel ih =>
    rw [stripZeros]
    split
    · rename_i hzero
      simp only [Bool.and_eq_true, bne_iff_ne, beq_iff_eq] at hzero
      obtain ⟨hvalue, hne⟩ := ih ⟨d.digits / 10, d.exponent + 1⟩
      have hten : ((d.digits / 10 * 10 : Nat) : ℚ) = d.digits := by
        rw [Nat.div_mul_cancel (Nat.dvd_of_mod_eq_zero hzero.2)]
      refine ⟨?_, fun _ => hne (by dsimp only; omega)⟩
      rw [hvalue, Decimal.value, Decimal.value, ← hten, zpow_add_one₀ (by norm_num)]
      push_cast
      ring
    · exact ⟨rfl, id⟩

/-- What is found has its first digit where the double has it, or is the next power of ten. -/
theorem search_bounds {first : Int} {fuel n : Nat} {d : Decimal} (hn : 0 < n)
    (hlow : (10 : ℚ) ^ first ≤ m * 2 ^ q) (hhigh : (m * 2 ^ q : ℚ) < 10 ^ (first + 1))
    (h : search t m q first fuel n = some d) :
    IsNear m q d.value ∧ (10 : ℚ) ^ first ≤ d.value ∧ d.value ≤ 10 ^ (first + 1) := by
  obtain ⟨k, hk, hpick, hexponent⟩ := search_eq_some h
  obtain ⟨a, halow, hahigh, hpicked⟩ := exists_neighbours m q d.exponent
  obtain ⟨hnear, hdigits⟩ := (hpicked t).1 _ hpick
  have hunit : (0 : ℚ) < 10 ^ d.exponent := by positivity
  -- the powers of ten around the double, in units of the last digit
  have hfirst : (10 : ℚ) ^ first = (10 ^ (k - 1) : Nat) * 10 ^ d.exponent := by
    rw [Nat.cast_pow, Nat.cast_ofNat, ← zpow_natCast, ← zpow_add₀ (by norm_num)]
    congr 1
    omega
  have hnext : (10 : ℚ) ^ (first + 1) = (10 ^ k : Nat) * 10 ^ d.exponent := by
    rw [Nat.cast_pow, Nat.cast_ofNat, ← zpow_natCast, ← zpow_add₀ (by norm_num)]
    congr 1
    omega
  have hge : 10 ^ (k - 1) ≤ a := by
    have hlt := (hfirst ▸ hlow).trans_lt hahigh
    exact Nat.lt_succ_iff.1 (by exact_mod_cast lt_of_mul_lt_mul_right hlt hunit.le)
  have hlt : a < 10 ^ k := by
    have hlt := halow.trans_lt (hnext ▸ hhigh)
    exact_mod_cast lt_of_mul_lt_mul_right hlt hunit.le
  have hdlow : 10 ^ (k - 1) ≤ d.digits := by omega
  have hdhigh : d.digits ≤ 10 ^ k := by omega
  refine ⟨hnear, ?_, ?_⟩
  · rw [hfirst]
    exact mul_le_mul_of_nonneg_right (by exact_mod_cast hdlow) hunit.le
  · rw [hnext]
    exact mul_le_mul_of_nonneg_right (by exact_mod_cast hdhigh) hunit.le

/-- The shortest digits are not zero, lie between the midpoints, and stay on the side of every power
of ten where the double is. -/
theorem shortest_spec (t : Tie) (hm : m ≠ 0) (hcanonical : IsCanonical m q) :
    (shortest t m q).digits ≠ 0 ∧ IsNear m q (shortest t m q).value ∧
      ∀ k : Int, ((10 : ℚ) ^ k ≤ m * 2 ^ q → 10 ^ k ≤ (shortest t m q).value) ∧
        ((m * 2 ^ q : ℚ) < 10 ^ k → (shortest t m q).value ≤ 10 ^ k) := by
  set f := shift m 1 q with hf
  have hratio : (f.1 / f.2 : ℚ) = m * 2 ^ q := by rw [hf, shift_ratio, Nat.cast_one, div_one]
  have hnum : f.1 ≠ 0 := (Nat.mul_pos (Nat.pos_of_ne_zero hm) (Nat.pow_pos (by decide))).ne'
  have hden : f.2 ≠ 0 := (shift_den_pos one_pos m q).ne'
  obtain ⟨hlow, hhigh⟩ := firstPower_spec hnum hden
  rw [hratio] at hlow hhigh
  set first := firstPower f.1 f.2
  -- the search ends with seventeen digits at the latest
  have hfound : search t m q first 17 1 ≠ none := by
    refine search_ne_none (k := 17) (by decide) (by decide) ?_
    obtain ⟨a, halow, hahigh, hpicked⟩ := exists_neighbours m q (first - (17 : Nat) + 1)
    refine (hpicked t).2 (isNear_neighbour hm hcanonical ?_ halow hahigh)
    rw [← zpow_natCast, ← zpow_add₀ (by norm_num)]
    rwa [show first - (17 : Nat) + 1 + (16 : Nat) = first by omega]
  obtain ⟨d, hd⟩ := Option.ne_none_iff_exists'.1 hfound
  have hshortest : shortest t m q = stripZeros 20 d := by
    rw [shortest, hd]
    rfl
  obtain ⟨hnear, hdlow, hdhigh⟩ := search_bounds (by decide) hlow hhigh hd
  obtain ⟨hvalue, hne⟩ := stripZeros_spec 20 d
  rw [hshortest, hvalue]
  refine ⟨hne fun h0 => ?_, hnear, fun k => ⟨fun hk => ?_, fun hk => ?_⟩⟩
  · have hpos := isNear_pos hm hnear
    simp [Decimal.value, h0] at hpos
  · have hlt := (zpow_lt_zpow_iff_right₀ (by norm_num)).1 (hk.trans_lt hhigh)
    exact (zpow_le_zpow_right₀ (by norm_num) (by omega)).trans hdlow
  · have hlt := (zpow_lt_zpow_iff_right₀ (by norm_num)).1 (hlow.trans_lt hk)
    exact hdhigh.trans (zpow_le_zpow_right₀ (by norm_num) (by omega))

/-! ## The positional range -/

/-- The shortest digits are below a power of ten exactly where the double is, if that power is not
rounded down. -/
theorem shortest_lt_iff (t : Tie) (hm : m ≠ 0) (hcanonical : IsCanonical m q) {k : Int}
    {num den m' : Nat} {q' : Int} (hden : den ≠ 0) (hk : (num / den : ℚ) = 10 ^ k)
    (hround : ofRatio false num den = finite false m' q') (hle : (10 : ℚ) ^ k ≤ m' * 2 ^ q') :
    (shortest t m q).value < 10 ^ k ↔ (m * 2 ^ q : ℚ) < 10 ^ k := by
  obtain ⟨-, hnear, hside⟩ := shortest_spec t hm hcanonical
  constructor
  · intro hlt
    by_contra hge
    exact absurd ((hside k).1 (not_lt.1 hge)) hlt.not_ge
  · intro hlt
    refine ((hside k).2 hlt).lt_of_ne fun heq => ?_
    -- the power would be rounded to the double
    rw [heq, ← hk] at hnear
    obtain ⟨-, rfl, rfl⟩ := finite.inj
      ((ofRatio_of_isNear hm hcanonical hden hnear false).symm.trans hround)
    exact absurd hle hlt.not_ge

def abs : Double → ℚ
  | .finite _ m q => m * 2 ^ q
  | _ => 0

/-- The doubles that JSON text shows without an exponent. -/
def IsPositional (x : Double) : Prop :=
  x.abs = 0 ∨ 10 ^ (-5 : Int) ≤ x.abs ∧ x.abs < 10 ^ (16 : Int)

/-- They are those whose shortest digits begin between the fifth decimal place and the sixteenth
digit of a whole number. -/
theorem isPositional_iff (s : Bool) (hm : m ≠ 0) (hcanonical : IsCanonical m q) {e : Int}
    (he : e = (shortest .toEven m q).exponent +
      (Nat.toDigits 10 (shortest .toEven m q).digits).length - 1) :
    (finite s m q).IsPositional ↔ -5 ≤ e ∧ e ≤ 15 := by
  have hplaces : ofRatio false 1 (10 ^ 5) = finite false 5902958103587057 (-69) := by decide +kernel
  have hdigits : ofRatio false (10 ^ 16) 1 = finite false 5000000000000000 1 := by decide +kernel
  have hlow := shortest_lt_iff .toEven hm hcanonical (k := -5) (by decide) (by norm_num) hplaces
    (by norm_num)
  have hhigh := shortest_lt_iff .toEven hm hcanonical (k := 16) one_ne_zero (by norm_num) hdigits
    (by norm_num)
  have habs : (finite s m q).abs ≠ 0 := mul_ne_zero (by exact_mod_cast hm) (by positivity)
  rw [IsPositional, or_iff_right habs, abs, ← not_lt, ← hlow, ← hhigh, not_lt]
  -- the first digit of the shortest digits has the power `e`
  obtain ⟨hfirst, hnext⟩ := zpow_length_toDigits (shortest_spec .toEven hm hcanonical).1
    (shortest .toEven m q).exponent
  rw [← Decimal.value, show _ + _ - 1 = e by omega] at hfirst
  rw [← Decimal.value, show _ + _ = e + 1 by omega] at hnext
  constructor
  · rintro ⟨hge, hlt⟩
    have h1 := (zpow_lt_zpow_iff_right₀ (by norm_num)).1 (hge.trans_lt hnext)
    have h2 := (zpow_lt_zpow_iff_right₀ (by norm_num)).1 (hfirst.trans_lt hlt)
    omega
  · rintro ⟨hge, hle⟩
    exact ⟨(zpow_le_zpow_right₀ (by norm_num) hge).trans hfirst,
      hnext.trans_le (zpow_le_zpow_right₀ (by norm_num) (by omega))⟩

end RestSql.Double
