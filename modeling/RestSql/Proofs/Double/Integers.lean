import Mathlib.Algebra.Group.Int.Defs
import Mathlib.Algebra.Group.Nat.Defs
import RestSql.Double.Basic

/-!
Whole numbers as doubles. From `2 ^ 63` up to `2 ^ 64` the doubles are the multiples of `2 ^ 11`, so
a whole number there is kept exactly when it is one of them.
-/

namespace RestSql.Double

def IsInt : Double → Int → Prop
  | .finite negative m q, n =>
    (if negative then -(m : Int) else m) * 2 ^ q.toNat = n * 2 ^ (-q).toNat
  | _, _ => False

theorem isInt_finite {m q : Nat} {n : Int} : (finite false m q).IsInt n ↔ m * 2 ^ q = n := by
  have h1 : (q : Int).toNat = q := rfl
  have h2 : (-(q : Int)).toNat = 0 := by omega
  simp only [IsInt, h1, h2, Bool.false_eq_true, if_false, Int.pow_zero, Int.mul_one]

theorem roundQuotient_of_dvd {num den : Nat} (hpos : 0 < den) (h : den ∣ num) :
    roundQuotient num den = num / den := by
  have hr : num % den = 0 := Nat.mod_eq_zero_of_dvd h
  simp [roundQuotient, hr, hpos]

section SixtyFourBits

variable {n : Nat} (hlow : 2 ^ 63 ≤ n) (hhigh : n < 2 ^ 64)

include hlow hhigh

/-- With units of `2 ^ 10` the significand would have 54 bits. -/
theorem unitExponent_eq : unitExponent n 1 = 11 := by
  have hlog : n.log2 = 63 := (Nat.log2_eq_iff (by omega)).2 ⟨hlow, hhigh⟩
  have hone : Nat.log2 1 = 0 := by decide
  have hq : (n.log2 : Int) - Nat.log2 1 - 53 = 10 := by omega
  have hshift : shift n 1 (-10) = (n, 1024) := by simp [shift]
  have hwide : ¬n / 1024 < Nat.pow 2 53 := by
    rw [Nat.pow_eq]
    omega
  simp only [unitExponent, hq, hshift, if_neg hwide]
  decide

/-- The significand is the number of units of `2 ^ 11`, rounded; a carry gives `2 ^ 64`. -/
theorem ofNat_eq : ofNat n =
    if roundQuotient n 2048 = 2 ^ 53 then finite false (2 ^ 52) 12
    else finite false (roundQuotient n 2048) 11 := by
  have hne : n ≠ 0 := by omega
  have hshift : shift n 1 (-11) = (n, 2048) := by simp [shift]
  rw [ofNat, ofRatio, if_neg hne]
  simp only [unitExponent_eq hlow hhigh, hshift, Nat.pow_eq]
  split
  · rfl
  · rfl

theorem isInt_ofNat_iff : (ofNat n).IsInt n ↔ 2048 ∣ n := by
  rw [ofNat_eq hlow hhigh]
  constructor
  · intro h
    split at h
    · have heq : ((2 ^ 52 : Nat) : Int) * 2 ^ 12 = n := isInt_finite.1 h
      omega
    · have heq : (roundQuotient n 2048 : Int) * 2 ^ 11 = n := isInt_finite.1 h
      omega
  · intro h
    have hround := roundQuotient_of_dvd (by decide) h
    have hcarry : ¬n / 2048 = 2 ^ 53 := by omega
    rw [hround, if_neg hcarry]
    have heq : ((n / 2048 : Nat) : Int) * 2 ^ 11 = n := by omega
    exact isInt_finite.2 heq

end SixtyFourBits

end RestSql.Double
