import RestSql.Proofs.Double.Rounding
import RestSql.Proofs.Json.Order

/-!
Numbers that were read. A whole one fits 64 bits, and a double comes out of rounded steps, so its
significand is in the range of its exponent.
-/

namespace RestSql.Json

open RestSql.Text (countBound integerBound)

theorem wellFormed_scaleDown {x : Double} (h : x.WellFormed) (steps n : Nat) :
    (scaleDown steps x n).WellFormed := by
  induction steps generalizing x n with
  | zero => exact h
  | succ steps ih =>
    rw [scaleDown]
    split
    · exact Double.wellFormed_div _ _
    · split
      · exact h
      · exact ih (Double.wellFormed_div _ _) _

theorem wellFormed_of_scaled? {significand : Nat} {e : Int} {x : Double}
    (h : scaled? significand e = some x) : x.WellFormed := by
  have hnat := Double.wellFormed_ofNat significand
  rw [scaled?] at h
  split at h
  · obtain rfl := Option.some.inj h
    exact wellFormed_scaleDown hnat _ _
  · split at h
    · obtain rfl := Option.some.inj (Option.filter_eq_some_iff.1 h).1
      exact Double.wellFormed_mul _ _
    · split at h
      · obtain rfl := Option.some.inj h
        exact hnat
      · cases h

namespace Number

/-- A whole number fits 64 bits, with a sign or without, and a double is well formed. -/
def WellFormed : Number → Prop
  | .whole n => -2 ^ 63 ≤ n ∧ n < 2 ^ 64
  | .float x => x.WellFormed

end Number

theorem Numeral.wellFormed_of_float? {n : Numeral} {x : Double} (h : n.float? = some x) :
    x.WellFormed := by
  have hneg : ∀ y : Double, y.WellFormed → (if n.negative then y.neg else y).WellFormed := by
    intro y hy
    split
    · exact hy.neg
    · exact hy
  rw [Numeral.float?] at h
  obtain ⟨y, hy, rfl⟩ := Option.map_eq_some_iff.1 h
  refine hneg y ?_
  split at hy
  · exact wellFormed_of_scaled? hy
  · rename_i negative digits _
    by_cases hbound : Text.digitsValue digits < exponentBound
    · rw [if_pos hbound] at hy
      exact wellFormed_of_scaled? hy
    · rw [if_neg hbound] at hy
      split at hy
      · obtain rfl := Option.some.inj hy
        exact Double.wellFormed_zero false
      · cases hy

theorem Numeral.wellFormed_of_value? {n : Numeral} {v : Number} (h : n.value? = some v) :
    v.WellFormed := by
  have hcount : countBound = 2 ^ 64 := rfl
  have hinteger : integerBound = 2 ^ 63 := rfl
  rw [Numeral.value?] at h
  split at h
  · rename_i hwhole
    simp only [Bool.and_eq_true, decide_eq_true_eq] at hwhole
    split at h
    · obtain rfl := Option.some.inj h
      exact ⟨by omega, by omega⟩
    · split at h
      · rename_i hfits
        simp only [Bool.and_eq_true, decide_eq_true_eq] at hfits
        obtain rfl := Option.some.inj h
        exact ⟨by omega, by omega⟩
      · obtain rfl := Option.some.inj h
        exact (Double.wellFormed_ofNat _).neg
  · obtain ⟨x, hx, rfl⟩ := Option.map_eq_some_iff.1 h
    exact Numeral.wellFormed_of_float? hx

theorem IsMeaning.exists_numeral {n : Number} (h : (Json.number n).IsMeaning) :
    ∃ numeral : Numeral, numeral.value? = some n := by
  obtain ⟨w, hw⟩ := h
  cases w with
  | number numeral =>
    rw [Written.meaning?] at hw
    obtain ⟨v, hv, heq⟩ := Option.map_eq_some_iff.1 hw
    obtain rfl := Json.number.inj heq
    exact ⟨numeral, hv⟩
  | _ => simp [Written.meaning?] at hw

theorem IsMeaning.number {n : Number} (h : (Json.number n).IsMeaning) : n.WellFormed := by
  obtain ⟨numeral, hvalue⟩ := h.exists_numeral
  exact Numeral.wellFormed_of_value? hvalue

end RestSql.Json
