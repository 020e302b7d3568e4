import RestSql.Proofs.Json.Numbers

/-!
Values that can be read. Their doubles are finite: a significand of 64 bits is far below the
greatest double, a division by a power of ten takes it nearer to zero, and a product past the
greatest double is no value.
-/

namespace RestSql.Json

open RestSql.Text (countBound)

variable {x y : Double}

/-! ## Rounded steps -/

/-- A power of ten from ten on, without regard to its size. -/
def isScale : Double → Bool
  | .finite _ m q => 2 ^ 52 ≤ m && -49 ≤ q
  | _ => false

theorem isScale_powerOfTen : ∀ n < 309, 0 < n → isScale (powerOfTen n) = true := by
  decide +kernel

theorem isFinite_div (hx : x.WellFormed) (hfinite : x.isFinite = true) (hy : isScale y = true) :
    (x.div y).isFinite = true := by
  cases x with
  | nan => cases hfinite
  | infinity => cases hfinite
  | finite s m q =>
    cases y with
    | nan => cases hy
    | infinity => cases hy
    | finite s' m' q' =>
      simp only [isScale, Bool.and_eq_true, decide_eq_true_eq] at hy
      obtain ⟨hm', hq'⟩ := hy
      obtain ⟨hm, -, hq, -⟩ := hx
      have hmax : Double.maxExponent = 971 := rfl
      have hpos : 0 < m' := by omega
      have hunder : (m / m' : ℚ) < 2 := by
        rw [div_lt_iff₀ (by exact_mod_cast hpos)]
        exact_mod_cast show m < 2 * m' by omega
      have hpower : (2 : ℚ) ^ (q - q') ≤ 2 ^ (1020 : Int) :=
        zpow_le_zpow_right₀ one_le_two (by omega)
      rw [Double.div]
      simp only [if_neg hpos.ne']
      refine Double.isFinite_ofRatio (Double.shift_den_pos hpos m _).ne' ?_ _
      rw [Double.shift_ratio]
      calc (m / m' : ℚ) * 2 ^ (q - q') < 2 * 2 ^ (1020 : Int) :=
            mul_lt_mul hunder hpower (by positivity) (by norm_num)
        _ = 2 ^ (1021 : Int) := by
            rw [show (1021 : Int) = 1020 + 1 from rfl, zpow_add_one₀ two_ne_zero, mul_comm]
        _ < 2 ^ (1023 : Int) := zpow_lt_zpow_right₀ one_lt_two (by decide)

theorem isFinite_scaleDown (hx : x.WellFormed) (hfinite : x.isFinite = true) (steps : Nat) {n : Nat}
    (hn : 0 < n) : (scaleDown steps x n).isFinite = true := by
  induction steps generalizing x n with
  | zero => exact hfinite
  | succ steps ih =>
    rw [scaleDown]
    split
    · exact isFinite_div hx hfinite (isScale_powerOfTen n (by omega) hn)
    · split
      · exact hfinite
      · exact ih (Double.wellFormed_div _ _)
          (isFinite_div hx hfinite (isScale_powerOfTen 308 (by decide) (by decide))) (by omega)

theorem isFinite_ofNat {n : Nat} (h : n < countBound) : (Double.ofNat n).isFinite = true := by
  refine Double.isFinite_ofRatio one_ne_zero ?_ false
  have hbound : (n : ℚ) < 2 ^ (64 : Int) := by exact_mod_cast h
  rw [Nat.cast_one, div_one]
  exact hbound.trans (zpow_lt_zpow_right₀ one_lt_two (by decide))

theorem takeDigits_lt {n : Nat} (h : n < countBound) (cs : List Char) :
    (takeDigits n cs).1 < countBound := by
  induction cs generalizing n with
  | nil => exact h
  | cons c cs ih =>
    rw [takeDigits]
    split
    · rename_i hfits
      exact ih hfits
    · exact h

theorem isFinite_of_scaled? {significand : Nat} (hbound : significand < countBound) {e : Int}
    (h : scaled? significand e = some x) : x.isFinite = true := by
  rw [scaled?] at h
  split at h
  · obtain rfl := Option.some.inj h
    exact isFinite_scaleDown (Double.wellFormed_ofNat _) (isFinite_ofNat hbound) 4 (by omega)
  · split at h
    · exact (Option.filter_eq_some_iff.1 h).2
    · split at h
      · obtain rfl := Option.some.inj h
        exact isFinite_ofNat hbound
      · cases h

theorem isFinite_neg (x : Double) : x.neg.isFinite = x.isFinite := by
  cases x <;> rfl

theorem Numeral.isFinite_of_float? {n : Numeral} (h : n.float? = some x) : x.isFinite = true := by
  rw [Numeral.float?] at h
  obtain ⟨y, hy, rfl⟩ := Option.map_eq_some_iff.1 h
  have hbound : (takeDigits (takeDigits 0 n.whole).1 n.fraction).1 < countBound :=
    takeDigits_lt (takeDigits_lt (by decide) _) _
  have hfinite : y.isFinite = true := by
    split at hy
    · exact isFinite_of_scaled? hbound hy
    · rename_i negative digits _
      by_cases hexponent : Text.digitsValue digits < exponentBound
      · rw [if_pos hexponent] at hy
        exact isFinite_of_scaled? hbound hy
      · rw [if_neg hexponent] at hy
        split at hy
        · obtain rfl := Option.some.inj hy
          rfl
        · cases hy
  split
  · rwa [isFinite_neg]
  · exact hfinite

/-! ## Values -/

/-- A whole number fits 64 bits, with a sign or without, and a double is finite. -/
def Number.IsValue (n : Number) : Prop :=
  n.WellFormed ∧ ∀ x, n = .float x → x.isFinite = true

theorem Numeral.isValue_of_value? {n : Numeral} {v : Number} (h : n.value? = some v) :
    v.IsValue := by
  refine ⟨wellFormed_of_value? h, ?_⟩
  rintro x rfl
  rw [Numeral.value?] at h
  split at h
  · rename_i hwhole
    simp only [Bool.and_eq_true, decide_eq_true_eq] at hwhole
    split at h
    · cases h
    · split at h
      · cases h
      · obtain rfl := Number.float.inj (Option.some.inj h)
        rw [isFinite_neg]
        exact isFinite_ofNat hwhole.2
  · obtain ⟨y, hy, heq⟩ := Option.map_eq_some_iff.1 h
    obtain rfl := Number.float.inj heq
    exact isFinite_of_float? hy

inductive IsValue : Json → Prop
  | null : IsValue .null
  | bool (b : Bool) : IsValue (.bool b)
  | number {n : Number} (h : n.IsValue) : IsValue (.number n)
  | string (s : String) : IsValue (.string s)
  | array {items : List Json} (h : ∀ v ∈ items, IsValue v) : IsValue (.array items)
  | object {members : List (String × Json)} (h : ∀ m ∈ members, IsValue m.2) :
    IsValue (.object members)

theorem IsMeaning.isValue (v : Json) (h : v.IsMeaning) : v.IsValue := by
  match v, h with
  | .null, _ => exact .null
  | .bool b, _ => exact .bool b
  | .number n, h =>
    obtain ⟨numeral, hvalue⟩ := h.exists_numeral
    exact .number (Numeral.isValue_of_value? hvalue)
  | .string s, _ => exact .string s
  | .array items, h =>
    refine .array fun v hv => ?_
    have hsize : sizeOf v < sizeOf items := List.sizeOf_lt_of_mem hv
    exact IsMeaning.isValue v (h.array v hv)
  | .object members, h =>
    refine .object fun m hm => ?_
    have hmember : sizeOf m.2 < sizeOf m := by
      obtain ⟨name, v⟩ := m
      simp only [Prod.mk.sizeOf_spec]
      omega
    have hsize : sizeOf m < sizeOf members := List.sizeOf_lt_of_mem hm
    exact IsMeaning.isValue m.2 (h.object.2 m hm)
termination_by sizeOf v
decreasing_by
  · simp only [array.sizeOf_spec]
    omega
  · simp only [object.sizeOf_spec]
    omega

theorem isValue_of_ofText? {raw : String} {v : Json} (h : ofText? raw = some v) : v.IsValue :=
  (isMeaning_of_ofText? h).isValue

end RestSql.Json
