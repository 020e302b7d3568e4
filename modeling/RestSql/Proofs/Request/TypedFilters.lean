import RestSql.Proofs.Json.Equality
import RestSql.Proofs.Json.Numbers
import RestSql.Proofs.Json.Reading
import RestSql.Proofs.Request.Entries
import RestSql.Proofs.Request.Integers
import RestSql.Proofs.Request.Members
import RestSql.Proofs.Sql.Literal
import RestSql.Proofs.Statement.Reads

/-!
Filters on numbers and booleans whose values are bound by type. The filter holds the JSON text of
the value, and the parameter is the literal that this text spells. So a double whose JSON text has
an exponent does not reach the database as a number.
-/

namespace RestSql

/-! ## The slots of the filters -/

def Request.filters : Request → List Filter
  | .select s => s.filters
  | .update u => u.filters
  | .delete _ filters => filters
  | _ => []

/-- The values of the filters come after the assigned ones. -/
theorem Request.getElem?_values {r : Request} {i : Nat} {f : Filter} (h : r.filters[i]? = some f)
    (c : Convention) : (r.values c)[r.assigned.length + i]? = some (f.operand c) := by
  cases r with
  | select s => simpa [values, assigned, filters] using congrArg (Option.map (·.operand c)) h
  | update u =>
    rw [values, assigned, Row.columns, List.length_map, List.getElem?_append_right (by simp)]
    simpa [filters] using congrArg (Option.map (·.operand c)) h
  | delete table fs => simpa [values, assigned, filters] using congrArg (Option.map (·.operand c)) h
  | _ => simp [filters] at h

theorem Request.compile_eq_ok_or (c : Convention) (r : Request) :
    (∃ n, r.compile c = .error (.shape (.offsetWithTop n))) ∨ ∃ s, r.compile c = .ok s := by
  by_cases hselect : ∃ s, r = .select s
  · obtain ⟨s, rfl⟩ := hselect
    cases hs : compile c (.select s) with
    | ok st => exact .inr ⟨st, rfl⟩
    | error f =>
      obtain ⟨-, n, -, rfl⟩ := compile_select_eq_error.1 hs
      exact .inl ⟨n, rfl⟩
  · exact .inr (exists_compile fun s hs => hselect ⟨s, hs⟩)

/-! ## Values bound by type -/

namespace Filter

/-- What a number or a boolean is bound to. A double is bound as its JSON text where that text is
not positional. -/
inductive BoundAs : Json → Value → Prop
  | bool (b : Bool) : BoundAs (.bool b) (.bool b)
  | whole {n : Int} (h : -2 ^ 63 ≤ n ∧ n < 2 ^ 63) : BoundAs (.number (.whole n)) (.int n)
  | positional {x : Double} (hx : x.isFinite = true) (h : x.IsPositional) :
    BoundAs (.number (.float x)) (.float x)
  | scientific {x : Double} (hx : x.isFinite = true) (h : ¬x.IsPositional) :
    BoundAs (.number (.float x)) (.string (Json.Number.float x).text)

/-- The literal that the text of a value spells, which has an exponent if it is a text. -/
theorem BoundAs.infer {v : Json} {b : Value} (h : BoundAs v b) (hv : v.IsMeaning) :
    (∃ text, scalarText? v = some text ∧ Value.infer text = b) ∧
      ∀ text, b = .string text → 'e' ∈ text.toList := by
  cases h with
  | bool b => exact ⟨⟨_, rfl, by cases b <;> rfl⟩, nofun⟩
  | whole h => exact ⟨⟨_, rfl, Value.infer_toString h⟩, nofun⟩
  | positional hx h => exact ⟨⟨_, rfl, (Value.infer_text hx hv.number).1 h⟩, nofun⟩
  | scientific hx h =>
    obtain ⟨hinfer, hexponent⟩ := (Value.infer_text hx hv.number).2 h
    refine ⟨⟨_, rfl, hinfer⟩, ?_⟩
    rintro text ⟨⟩
    exact hexponent

variable {column : String} (op : Operator) {raw : String} {v : Json}

theorem valueText?_of_scalarText? {text : String} (h : scalarText? v = some text) :
    valueText? v = some text := by
  cases v with
  | array => cases h
  | _ => exact h

theorem ofEntry_of_member {text : String} (hcolumn : column ≠ "")
    (hraw : Json.ofText? raw =
      some (.object [(column, .object [("op", .string op.token), ("value", v)])]))
    (htext : scalarText? v = some text) : ofEntry raw = .ok [⟨column, op, text⟩] := by
  obtain ⟨ws, hws⟩ := Json.object_of_ofText? hraw
  rw [ofEntry_of_brace (Json.find?_of_object hws), ofObject, hraw]
  simp only [List.mapM_cons, List.mapM_nil, ofMember, hcolumn, if_false, entryParts?,
    OperatorName.ofJson?, Option.map_some, OperatorName.resolve, Operator.ofToken_token,
    valueText?_of_scalarText? htext]
  rfl

/-- A filter on a number or a boolean, by any operator but a pattern, is bound by the type of its
value: a boolean and a whole number of 64 bits as themselves, and a double as itself where it is
zero or its absolute value is at least `10 ^ (-5)` and below `10 ^ 16`. Any other double is bound as
its JSON text. No value is bound as a text without an exponent. -/
theorem typed_filter_bound {c : Convention} (hc : c.typedFilters = true) (hcolumn : column ≠ "")
    (hop : op.isPattern = false)
    (hraw : Json.ofText? raw =
      some (.object [(column, .object [("op", .string op.token), ("value", v)])]))
    {b : Value} (hb : BoundAs v b) :
    (∀ text, b = .string text → 'e' ∈ text.toList) ∧
      ∃ f, ofEntry raw = .ok [f] ∧ f.column = column ∧ f.op = op ∧
        ∀ (r : Request) (i : Nat), r.filters[i]? = some f →
          (∃ n, r.compile c = .error (.shape (.offsetWithTop n))) ∨
          ∃ s p, r.compile c = .ok s ∧ s.params[r.assigned.length + i]? = some p ∧ p.value = b := by
  have hv := (((Json.isMeaning_of_ofText? hraw).object.2 _ List.mem_cons_self).object.2 ("value", v)
    (by simp))
  obtain ⟨⟨text, htext, hinfer⟩, hexponent⟩ := hb.infer hv
  refine ⟨hexponent, ⟨column, op, text⟩, ofEntry_of_member op hcolumn hraw htext, rfl, rfl,
    fun r i hi => ?_⟩
  refine (r.compile_eq_ok_or c).imp_right fun ⟨s, hs⟩ => ?_
  have hoperand : Filter.operand c ⟨column, op, text⟩ = b := by
    rw [operand, hc, hop]
    exact hinfer
  obtain ⟨p, hp, hvalue⟩ := Request.getElem?_params hs (Request.getElem?_values hi c)
  exact ⟨s, p, hs, hp, hvalue.trans hoperand⟩

/-- A negative number, a fraction and a boolean. -/
theorem typed_filter_bound_kinds :
    let c := { Convention.standard with typedFilters := true }
    let tenth : Double := .finite false 7205759403792794 (-56)
    ∀ t ∈ [("-7", Json.number (.whole (-7)), Value.int (-7)),
        ("0.1", .number (.float tenth), .float tenth), ("true", .bool true, .bool true)],
      let raw := "\x7b\"a\":\x7b\"op\":\"gt\",\"value\":" ++ t.1 ++ "\x7d\x7d"
      BoundAs t.2.1 t.2.2 ∧ ∃ f s p, ofEntry raw = .ok [f] ∧
        (Request.delete ⟨"dbo", "t"⟩ [f]).compile c = .ok s ∧ s.params[0]? = some p ∧
        p.value = t.2.2 := by
  intro c tenth t ht raw
  have hraw : ∀ t ∈ [("-7", Json.number (.whole (-7)), Value.int (-7)),
      ("0.1", .number (.float tenth), .float tenth), ("true", .bool true, .bool true)],
      Json.ofText? ("\x7b\"a\":\x7b\"op\":\"gt\",\"value\":" ++ t.1 ++ "\x7d\x7d") =
        some (.object [("a", .object [("op", .string "gt"), ("value", t.2.1)])]) := by
    decide +kernel
  have htenth : tenth.IsPositional := .inr (by norm_num [tenth, Double.abs])
  have hb : BoundAs t.2.1 t.2.2 := by
    simp only [List.mem_cons, List.not_mem_nil, or_false] at ht
    rcases ht with rfl | rfl | rfl
    · exact .whole (by decide)
    · exact .positional rfl htenth
    · exact .bool true
  obtain ⟨-, f, hf, -, -, hbound⟩ := typed_filter_bound .gt (c := c) rfl (by decide) rfl
    (hraw t ht) hb
  obtain ⟨s, hs⟩ := Request.exists_compile (c := c) (r := .delete ⟨"dbo", "t"⟩ [f]) (by simp)
  rcases hbound (.delete ⟨"dbo", "t"⟩ [f]) 0 rfl with ⟨n, hn⟩ | ⟨s, p, hs, hp, hvalue⟩
  · cases hs.symm.trans hn
  · exact ⟨hb, f, s, p, hf, hs, hp, hvalue⟩

/-- `10 ^ 16` is a number that is bound as text. -/
theorem scientific_filter_bound_as_text :
    let c := { Convention.standard with typedFilters := true }
    let raw := "\x7b\"a\":\x7b\"op\":\"eq\",\"value\":1e16\x7d\x7d"
    let x : Double := .finite false 5000000000000000 1
    x.isFinite = true ∧ x.abs = 10 ^ 16 ∧
      Json.ofText? raw =
        some (.object [("a", .object [("op", .string "eq"), ("value", .number (.float x))])]) ∧
      ∃ f s, ofEntry raw = .ok [f] ∧ (Request.delete ⟨"dbo", "t"⟩ [f]).compile c = .ok s ∧
        s.params.map (·.value) = [.string "1e+16"] := by
  intro c raw x
  have hraw : Json.ofText? raw =
      some (.object [("a", .object [("op", .string "eq"), ("value", .number (.float x))])]) := by
    decide +kernel
  have htext : (Json.Number.float x).text = "1e+16" := by decide +kernel
  have hf := ofEntry_of_member .eq (by decide) hraw rfl
  rw [htext] at hf
  obtain ⟨s, hs⟩ := Request.exists_compile (c := c)
    (r := .delete ⟨"dbo", "t"⟩ [⟨"a", .eq, "1e+16"⟩]) (by simp)
  refine ⟨rfl, by norm_num [x, Double.abs], hraw, _, s, hf, hs, ?_⟩
  rw [Request.map_value_params hs]
  decide +kernel

end Filter

end RestSql
