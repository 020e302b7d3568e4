import RestSql.Proofs.Double.Integers
import RestSql.Proofs.Request.Operations
import RestSql.Proofs.Statement.Slots

namespace RestSql

namespace Value

/-- The value is a whole number, or its decimal text. -/
def Keeps (v : Value) (n : Int) : Prop := v = .int n ∨ v = .string (toString n)

/-- The whole number that a value stands for, be it as a double. -/
def Denotes : Value → Int → Prop
  | .int k, n => k = n
  | .string s, n => s = toString n
  | .float x, n => x.IsInt n
  | _, _ => False

theorem ofJson_whole (n : Int) : ofJson (.number (.whole n)) =
    if n < 2 ^ 63 then .int n else .float (Double.ofNat n.toNat) := rfl

theorem keeps_ofJson_iff (n : Int) : (ofJson (.number (.whole n))).Keeps n ↔ n < 2 ^ 63 := by
  rw [ofJson_whole]
  by_cases hn : n < 2 ^ 63
  · rw [if_pos hn]
    exact ⟨fun _ => hn, fun _ => .inl rfl⟩
  · rw [if_neg hn]
    exact ⟨fun h => by simp [Keeps] at h, fun h => absurd h hn⟩

theorem denotes_ofJson_iff {n : Int} (h : n < 2 ^ 64) :
    (ofJson (.number (.whole n))).Denotes n ↔ n < 2 ^ 63 ∨ 2048 ∣ n := by
  rw [ofJson_whole]
  by_cases hn : n < 2 ^ 63
  · rw [if_pos hn]
    exact ⟨fun _ => .inl hn, fun _ => rfl⟩
  · -- from here on the value is a double, exact on the multiples of its unit
    obtain ⟨k, rfl⟩ : ∃ k : Nat, n = k := ⟨n.toNat, by omega⟩
    have hexact := Double.isInt_ofNat_iff (n := k) (by omega) (by omega)
    rw [if_neg hn, Denotes, Int.toNat_natCast, hexact]
    omega

end Value

theorem Request.getElem?_params {c : Convention} {r : Request} {s : Statement} {i : Nat} {v : Value}
    (h : r.compile c = .ok s) (hv : (r.values c)[i]? = some v) :
    ∃ p, s.params[i]? = some p ∧ p.value = v := by
  rw [← map_value_params h, List.getElem?_map] at hv
  exact Option.map_eq_some_iff.1 hv

namespace Mapping

variable {m : Mapping}

theorem getElem?_cells {members : List (String × Json)} {cells : List (String × Value)} {i : Nat}
    {name : String} {v : Json} (h : cellsOfJson (.object members) = .ok cells)
    (hv : members[i]? = some (name, v)) : (cells.map (·.2))[i]? = some (Value.ofJson v) := by
  obtain rfl := Except.ok.inj h
  simp [hv]

/-- The parameter in a place is the whole number or its text exactly below `2 ^ 63`, and denotes it
exactly if the number is below `2 ^ 63` or a multiple of `2 ^ 11`. -/
def BindsInt (s : Statement) (i : Nat) (n : Int) : Prop :=
  ∃ p, s.params[i]? = some p ∧ (p.value.Keeps n ↔ n < 2 ^ 63) ∧
    (p.value.Denotes n ↔ n < 2 ^ 63 ∨ 2048 ∣ n)

theorem bindsInt_of_values {r : Request} {s : Statement} {i : Nat} {n : Int}
    (hs : m.compile r = .ok s)
    (hv : (r.values m.convention)[i]? = some (Value.ofJson (.number (.whole n))))
    (hn : n < 2 ^ 64) : BindsInt s i n := by
  obtain ⟨p, hp, hvalue⟩ := Request.getElem?_params hs hv
  refine ⟨p, hp, ?_, ?_⟩
  · rw [hvalue]
    exact Value.keeps_ofJson_iff n
  · rw [hvalue]
    exact Value.denotes_ofJson_iff hn

/-- A whole number below `2 ^ 64` is bound as itself or as its decimal text exactly if it is below
`2 ^ 63`, and as something that denotes it exactly if it is below `2 ^ 63` or a multiple of `2 ^
11`: as a column value of an insert, as one of an update, and as an argument of a call. -/
theorem integers_bound (m : Mapping) :
    (∀ target members r, m.insert target (.object members) = .ok r →
      ∃ s, m.compile r = .ok s ∧ ∀ (i : Nat) (name : String) (n : Int), n < 2 ^ 64 →
        members[i]? = some (name, Json.number (.whole n)) → BindsInt s i n) ∧
      (∀ target q members r, m.update target q (.object members) = .ok r →
        ∃ s, m.compile r = .ok s ∧ ∀ (i : Nat) (name : String) (n : Int), n < 2 ^ 64 →
          members[i]? = some (name, Json.number (.whole n)) → BindsInt s i n) ∧
      ∀ target (body : RoutineBody) r, m.call target body = .ok r →
        ∃ s, m.compile r = .ok s ∧ ∀ (i : Nat) (name dataType : String) (n : Int), n < 2 ^ 64 →
          body.args[i]? = some ⟨name, dataType, .number (.whole n)⟩ → BindsInt s i n := by
  refine ⟨fun target members r h => ?_, fun target q members r h => ?_, fun target body r h => ?_⟩
  · obtain ⟨table, row, rfl, -, hcells⟩ := insert_eq_ok h
    obtain ⟨s, hs⟩ := Request.exists_compile (c := m.convention) (r := .insert table row) (by simp)
    exact ⟨s, hs, fun i name n hn hi => bindsInt_of_values hs (getElem?_cells hcells hi) hn⟩
  · obtain ⟨u, rfl, -, hcells, -⟩ := update_eq_ok h
    obtain ⟨s, hs⟩ := Request.exists_compile (c := m.convention) (r := .update u) (by simp)
    refine ⟨s, hs, fun i name n hn hi => bindsInt_of_values hs ?_ hn⟩
    -- the values of the columns come before those of the filters
    have hv := getElem?_cells hcells hi
    obtain ⟨hlt, -⟩ := List.getElem?_eq_some_iff.1 hv
    rw [Request.values, List.getElem?_append_left hlt, hv]
  · obtain ⟨k, rfl, hargs⟩ := call_eq_ok h
    obtain ⟨s, hs⟩ := Request.exists_compile (c := m.convention) (r := .call k) (by simp)
    refine ⟨s, hs, fun i name dataType n hn hi => bindsInt_of_values hs ?_ hn⟩
    rw [Request.values, hargs, List.getElem?_map, hi, Option.map_some]

/-- A row with one number past `2 ^ 63`. -/
theorem integers_bound_insert :
    ∃ r s, insert ⟨.standard, .standard⟩ "t"
        (.object [("a", .number (.whole 9223372036854775809))]) = .ok r ∧
      compile ⟨.standard, .standard⟩ r = .ok s ∧ BindsInt s 0 9223372036854775809 := by
  have h : insert ⟨.standard, .standard⟩ "t"
      (.object [("a", .number (.whole 9223372036854775809))]) =
      .ok (.insert ⟨"dbo", "t"⟩ ⟨[("a", .float (.finite false (2 ^ 52) 11))], by decide,
        by decide⟩) := rfl
  obtain ⟨s, hs, hbinds⟩ := (integers_bound ⟨.standard, .standard⟩).1 _ _ _ h
  exact ⟨_, s, h, hs, hbinds 0 "a" _ (by decide) rfl⟩

/-- One more than `2 ^ 63` is bound as `2 ^ 63`. -/
theorem integers_bound_past :
    Value.ofJson (.number (.whole 9223372036854775809)) = .float (.finite false (2 ^ 52) 11) ∧
      (Double.finite false (2 ^ 52) 11).IsInt 9223372036854775808 ∧
      ¬(Value.ofJson (.number (.whole 9223372036854775809))).Denotes 9223372036854775809 ∧
      ¬(Value.ofJson (.number (.whole 9223372036854775809))).Keeps 9223372036854775809 := by
  refine ⟨rfl, Double.isInt_finite.2 rfl, fun h => ?_, fun h => ?_⟩
  · have hcases := (Value.denotes_ofJson_iff (by decide)).1 h
    revert hcases
    decide
  · have hlt := (Value.keeps_ofJson_iff _).1 h
    revert hlt
    decide

end Mapping

end RestSql
