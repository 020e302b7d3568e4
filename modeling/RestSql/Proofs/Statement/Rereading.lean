import RestSql.Proofs.Json.Equality
import RestSql.Proofs.Json.Pretty
import RestSql.Proofs.Request.Operations
import RestSql.Proofs.Sql.Inference
import RestSql.Proofs.Statement.Slots
import RestSql.Statement.Document

/-!
Reading statements back from their JSON text. The text of a value does not tell its kind, but whole
numbers, doubles, strings and the words are told apart by how they are written, so every value is
read as one of its own kind: a double as the double that its digits are read as, anything else as
itself. No value of a request is a double without a text.
-/

namespace RestSql

open RestSql.Json (Written ReadInLines)

/-! ## Values of requests -/

/-- A whole number fits 64 bits with its sign, and a double is finite. -/
def Value.Fits : Value → Prop
  | .int n => -2 ^ 63 ≤ n ∧ n < 2 ^ 63
  | .float x => x.WellFormed ∧ x.isFinite = true
  | _ => True

theorem Value.fits_ofJson {v : Json} (h : v.IsValue) : (Value.ofJson v).Fits := by
  cases h with
  | @number n hn =>
    obtain ⟨hformed, hfinite⟩ := hn
    cases n with
    | whole n =>
      obtain ⟨hlow, hhigh⟩ : -2 ^ 63 ≤ n ∧ n < 2 ^ 64 := hformed
      have hbound : (Text.integerBound : Int) = 2 ^ 63 := rfl
      rw [ofJson]
      split
      · exact ⟨hlow, by omega⟩
      · have hcount : n.toNat < Text.countBound := by
          have hcount : Text.countBound = 2 ^ 64 := rfl
          omega
        exact ⟨Double.wellFormed_ofNat _, Json.isFinite_ofNat hcount⟩
    | float x => exact ⟨hformed, hfinite x rfl⟩
  | _ => trivial

theorem Value.fits_infer (text : String) : (Value.infer text).Fits := by
  rcases spells_infer_or text with hspells | htext
  · generalize infer text = v at hspells
    cases hspells with
    | word b _ => trivial
    | whole n _ _ hfits => exact hfits
    | point x _ hnearest =>
      cases x with
      | finite s m q => exact ⟨hnearest.2.1, rfl⟩
      | _ => exact absurd hnearest id
  · rw [htext]
    trivial

theorem Filter.fits_operand (c : Convention) (f : Filter) : (f.operand c).Fits := by
  rw [operand]
  split
  · exact Value.fits_infer f.value
  · trivial

namespace Json

variable {ms : List (String × Json)} {items : List Json} {v : Json}

theorem IsValue.of_mem_items (h : (Json.array items).IsValue) (hv : v ∈ items) : v.IsValue := by
  cases h with
  | array h => exact h v hv

theorem IsValue.of_member? {name : String} (h : (Json.object ms).IsValue)
    (hv : member? ms name = some v) : v.IsValue := by
  cases h with
  | object h =>
    obtain ⟨m, hm, rfl⟩ := Option.map_eq_some_iff.1 hv
    exact h m (List.mem_of_find?_eq_some hm)

theorem IsValue.getD_null {v? : Option Json} (h : ∀ v, v? = some v → v.IsValue) :
    (v?.getD .null).IsValue := by
  cases v? with
  | none => exact .null
  | some v => exact h v rfl

end Json

theorem RoutineArgument.isValue_of_ofJson {v : Json} {a : RoutineArgument} (hv : v.IsValue)
    (h : ofJson v = .ok a) : a.value.IsValue := by
  unfold ofJson at h
  split at h
  · rename_i members
    obtain ⟨name, -, h⟩ := ok_of_bind h
    obtain ⟨dataType, -, h⟩ := ok_of_bind h
    split at h
    · obtain rfl := ok_of_pure h
      exact .getD_null fun v => hv.of_member?
    · cases h
  · cases h
  · rename_i first rest
    obtain ⟨name, -, h⟩ := ok_of_bind h
    obtain ⟨dataType, -, h⟩ := ok_of_bind h
    obtain ⟨-, h⟩ := ok_of_check h
    obtain rfl := ok_of_pure h
    exact .getD_null fun v hrest =>
      hv.of_mem_items (List.mem_cons_of_mem _ (List.mem_of_getElem? hrest))
  · cases h

theorem RoutineArgument.isValue_of_readOr {v? : Option Json} {args : List RoutineArgument}
    (hv : ∀ v, v? = some v → v.IsValue) (h : BodyForm.readOr listOfJson [] v? = .ok args) :
    ∀ a ∈ args, a.value.IsValue := by
  cases v? with
  | none =>
    obtain rfl := Except.ok.inj h
    simp
  | some v =>
    cases v with
    | array items =>
      intro a ha
      obtain ⟨item, hitem, hread⟩ := exists_of_mem_mapM h ha
      exact isValue_of_ofJson ((hv _ rfl).of_mem_items hitem) hread
    | _ => cases h

theorem RoutineBody.isValue_of_ofJson {v : Json} {b : RoutineBody} (hv : v.IsValue)
    (h : ofJson v = .ok b) : ∀ a ∈ b.args, a.value.IsValue := by
  unfold ofJson at h
  split at h
  · obtain ⟨args, hargs, h⟩ := ok_of_bind h
    obtain ⟨isFunction, -, h⟩ := ok_of_bind h
    obtain ⟨returns, -, h⟩ := ok_of_bind h
    obtain ⟨schema, -, h⟩ := ok_of_bind h
    obtain rfl := ok_of_pure h
    exact RoutineArgument.isValue_of_readOr (fun v => hv.of_member?) hargs
  · obtain ⟨schema, -, h⟩ := ok_of_bind h
    obtain ⟨isFunction, -, h⟩ := ok_of_bind h
    obtain ⟨returns, -, h⟩ := ok_of_bind h
    obtain ⟨args, hargs, h⟩ := ok_of_bind h
    obtain ⟨-, h⟩ := ok_of_check h
    obtain rfl := ok_of_pure h
    exact RoutineArgument.isValue_of_readOr
      (fun v hitem => hv.of_mem_items (List.mem_of_getElem? hitem)) hargs
  · cases h

theorem RoutineBody.isValue_of_ofCall {v : Json} {b : RoutineBody} (hv : v.IsValue)
    (h : ofCall v = .ok b) : ∀ a ∈ b.args, a.value.IsValue := by
  unfold ofCall at h
  split at h
  · obtain rfl := Except.ok.inj h
    simp [empty]
  · exact isValue_of_ofJson hv h

inductive Mapping.Makes (m : Mapping) (target : String) (q : Query) (body : Json) : Request → Prop
  | read {r : Request} (h : m.read target q = .ok r) : Makes m target q body r
  | insert {r : Request} (h : m.insert target body = .ok r) : Makes m target q body r
  | update {r : Request} (h : m.update target q body = .ok r) : Makes m target q body r
  | delete {r : Request} (h : m.delete target q = .ok r) : Makes m target q body r
  | call {r : Request} (h : m.callJson target body = .ok r) : Makes m target q body r

theorem Mapping.fits_cells {body : Json} {cells : List (String × Value)} (hv : body.IsValue)
    (h : cellsOfJson body = .ok cells) : ∀ v ∈ cells.map (·.2), v.Fits := by
  cases hv with
  | null =>
    obtain rfl := Except.ok.inj h
    simp
  | @object members hmembers =>
    obtain rfl := Except.ok.inj h
    intro v hv
    simp only [List.map_map, List.mem_map] at hv
    obtain ⟨m, hm, rfl⟩ := hv
    exact Value.fits_ofJson (hmembers m hm)
  | _ => cases h

/-- Every value of a request fits. -/
theorem Mapping.Makes.fits {m : Mapping} {target : String} {q : Query} {body : Json} {r : Request}
    (h : m.Makes target q body r) (hv : body.IsValue) (c : Convention) :
    ∀ v ∈ r.values c, v.Fits := by
  have hoperands : ∀ fs : List Filter, ∀ v ∈ fs.map (·.operand c), v.Fits := by
    intro fs v hmem
    obtain ⟨f, -, rfl⟩ := List.mem_map.1 hmem
    exact f.fits_operand c
  cases h with
  | read h =>
    obtain ⟨s, limit, rfl, -⟩ := read_eq_ok h
    exact hoperands s.filters
  | insert h =>
    obtain ⟨table, row, rfl, -, hcells⟩ := insert_eq_ok h
    exact fits_cells hv hcells
  | update h =>
    obtain ⟨u, rfl, -, hcells, -⟩ := update_eq_ok h
    exact List.forall_mem_append.2 ⟨fits_cells hv hcells, hoperands u.filters⟩
  | delete h =>
    obtain ⟨table, fs, rfl, -⟩ := delete_eq_ok h
    exact hoperands fs
  | call h =>
    obtain ⟨b, hb, h⟩ := ok_of_bind h
    obtain ⟨k, rfl, hargs⟩ := call_eq_ok h
    intro v hmem
    rw [Request.values, hargs] at hmem
    obtain ⟨a, ha, rfl⟩ := List.mem_map.1 hmem
    exact Value.fits_ofJson (RoutineBody.isValue_of_ofCall hv (ok_of_mapError hb) a ha)

theorem Mapping.Makes.fits_params {m : Mapping} {target : String} {q : Query} {body : Json}
    {r : Request} {c : Convention} {s : Statement} (h : m.Makes target q body r)
    (hbody : body.IsValue) (hs : r.compile c = .ok s) : ∀ p ∈ s.params, p.value.Fits := by
  intro p hp
  refine h.fits hbody c _ ?_
  rw [← Request.map_value_params hs]
  exact List.mem_map_of_mem hp

/-! ## Reading back -/

/-- The second double is the one that the text of the first one is read as. -/
def Double.Rereads (x y : Double) : Prop :=
  Json.ofText? (Json.Number.float x).text = some (.number (.float y))

-- The reader rounds more than once where there are many digits.
example : ¬ Double.Rereads (.finite false 7373866942699934 (-54))
    (.finite false 7373866942699934 (-54)) := by
  unfold Double.Rereads
  decide +kernel

/-- A double is read as a double, and everything else as itself. -/
def Value.Rereads : Value → Value → Prop
  | .float x, v => ∃ y, x.Rereads y ∧ v = .float y
  | u, v => v = u

def Param.Rereads (p p' : Param) : Prop := p'.name = p.name ∧ p.value.Rereads p'.value

def Statement.Rereads (s s' : Statement) : Prop :=
  s'.text = s.text ∧ List.Forall₂ Param.Rereads s.params s'.params

def Statement.ofText? (text : String) : Option Statement :=
  (Written.ofText? text).bind ofWritten?

open Json.Form

theorem Value.exists_written {v : Value} (h : v.Fits) :
    ∃ w, ReadInLines v.toJson w ∧ ∀ v', ofWritten? w = some v' ↔ v.Rereads v' := by
  cases v with
  | null => exact ⟨.null, Json.readInLines_null, fun v' => by simp [ofWritten?, Rereads, eq_comm]⟩
  | bool b =>
    exact ⟨.bool b, Json.readInLines_bool b, fun v' => by simp [ofWritten?, Rereads, eq_comm]⟩
  | int n =>
    obtain ⟨hlow, hhigh⟩ := h
    refine ⟨.number (.ofInt n), Json.readInLines_number (Json.Numeral.isProper_ofInt n)
      (Json.Numeral.chars_ofInt n).symm, fun v' => ?_⟩
    have hvalue := Json.Numeral.value?_ofInt (k := n) ⟨hlow, by omega⟩
    have hint : ofJson (.number (.whole n)) = .int n := if_pos hhigh
    rw [ofWritten?, hvalue, Option.map_some, hint, Option.some.injEq, Rereads, eq_comm]
    simp
  | float x =>
    obtain ⟨n, hproper, hfractional, htext⟩ := Json.Numeral.exists_numeral h.1 h.2
    have hread := Json.readInLines_number hproper htext
    refine ⟨.number n, hread, fun v' => ?_⟩
    have hnumber := Json.ofText?_number hread
    rw [Json.Numeral.value?_of_isFractional hfractional] at hnumber
    rw [ofWritten?, Json.Numeral.value?_of_isFractional hfractional, Rereads]
    unfold Double.Rereads
    rw [hnumber]
    cases n.float? with
    | none => simp
    | some y => simp [ofJson, eq_comm]
  | string s =>
    obtain ⟨ls, hls⟩ := Json.exists_spelledBy s
    refine ⟨.string ls, Json.readInLines_string hls, fun v' => ?_⟩
    simp [ofWritten?, hls.1, Rereads, eq_comm]

theorem Param.exists_written {p : Param} (h : p.value.Fits) :
    ∃ w, ReadInLines p.toJson w ∧ ∀ p', ofWritten? w = some p' ↔ p.Rereads p' := by
  obtain ⟨value, hvalue, hvalueRead⟩ := Value.exists_written h
  obtain ⟨valueName, hvalueName⟩ := Json.exists_spelledBy "value"
  obtain ⟨nameName, hnameName⟩ := Json.exists_spelledBy "name"
  obtain ⟨name, hname, hnameRead⟩ : ∃ w, ReadInLines (Json.ofOption Json.string p.name) w ∧
      optional? string? (some w) = some p.name := by
    cases p.name with
    | none => exact ⟨.null, Json.readInLines_null, rfl⟩
    | some n =>
      obtain ⟨ls, hls⟩ := Json.exists_spelledBy n
      exact ⟨.string ls, Json.readInLines_string hls, by simp [optional?, string?, hls.1]⟩
  refine ⟨.object [(nameName, name), (valueName, value)], Json.readInLines_object
    (.cons ⟨hnameName, hname⟩ (.cons ⟨hvalueName, hvalue⟩ .nil)), fun p' => ?_⟩
  have hfields : fields? false [⟨"name", .inArray⟩, ⟨"value", .required⟩]
      (.object [(nameName, name), (valueName, value)]) = some [some name, some value] := by
    simp [fields?, namedMembers?, hnameName.1, hvalueName.1, ofMembers?]
  have hparts : ofWritten? (.object [(nameName, name), (valueName, value)]) =
      (Value.ofWritten? value).map fun v => ⟨p.name, v⟩ := by
    simp only [ofWritten?, hfields, Option.bind_eq_bind, Option.bind_some, hnameRead]
    exact Option.map_eq_bind.symm
  rw [hparts, Option.map_eq_some_iff]
  constructor
  · rintro ⟨v, hv, rfl⟩
    exact ⟨rfl, (hvalueRead v).1 hv⟩
  · rintro ⟨hname, hv⟩
    exact ⟨p'.value, (hvalueRead _).2 hv, by rw [← hname]⟩

theorem Param.exists_list {params : List Param} (h : ∀ p ∈ params, p.value.Fits) :
    ∃ ws, List.Forall₂ ReadInLines (params.map toJson) ws ∧
      ∀ params', ws.mapM ofWritten? = some params' ↔ List.Forall₂ Rereads params params' := by
  induction params with
  | nil => exact ⟨[], .nil, fun params' => by simp [eq_comm]⟩
  | cons p params ih =>
    obtain ⟨hp, hparams⟩ := List.forall_mem_cons.1 h
    obtain ⟨w, hw, hread⟩ := exists_written hp
    obtain ⟨ws, hws, hreads⟩ := ih hparams
    refine ⟨w :: ws, .cons hw hws, fun params' => ?_⟩
    rw [mapM_eq_some, List.forall₂_cons_left_iff, List.forall₂_cons_left_iff]
    simp only [hread, ← hreads, mapM_eq_some]

/-- The JSON text of a statement is read as the statement, apart from its doubles. -/
theorem Statement.ofText?_eq_some {s s' : Statement} (h : ∀ p ∈ s.params, p.value.Fits) :
    ofText? (s.toJson.pretty ++ "\n") = some s' ↔ s.Rereads s' := by
  obtain ⟨text, htext⟩ := Json.exists_spelledBy s.text
  obtain ⟨textName, htextName⟩ := Json.exists_spelledBy "text"
  obtain ⟨params, hparams, hread⟩ := Param.exists_list h
  obtain ⟨paramsName, hparamsName⟩ := Json.exists_spelledBy "params"
  have hobject : ReadInLines s.toJson
      (.object [(textName, .string text), (paramsName, .array params)]) :=
    Json.readInLines_object (.cons ⟨htextName, Json.readInLines_string htext⟩
      (.cons ⟨hparamsName, Json.readInLines_array hparams⟩ .nil))
  have hfields : fields? false [⟨"text", .required⟩, ⟨"params", .required⟩]
      (.object [(textName, .string text), (paramsName, .array params)]) =
        some [some (.string text), some (.array params)] := by
    simp [fields?, namedMembers?, htextName.1, hparamsName.1, ofMembers?]
  have hparts : ofWritten? (.object [(textName, .string text), (paramsName, .array params)]) =
      (params.mapM Param.ofWritten?).map fun ps => ⟨s.text, ps⟩ := by
    simp only [ofWritten?, hfields, Option.bind_eq_bind, Option.bind_some, string?, htext.1, list?]
    exact Option.map_eq_bind.symm
  rw [ofText?, (Json.ofText?_pretty hobject).2, Option.bind_some, hparts, Option.map_eq_some_iff]
  constructor
  · rintro ⟨ps, hps, rfl⟩
    exact ⟨rfl, (hread ps).1 hps⟩
  · rintro ⟨htext, hps⟩
    exact ⟨s'.params, (hread _).2 hps, by rw [← htext]⟩

theorem Statement.rereads_self {s : Statement}
    (h : ∀ p ∈ s.params, ∀ x, p.value = .float x → x.Rereads x) : s.Rereads s := by
  refine ⟨rfl, List.forall₂_same.2 fun p hp => ⟨rfl, ?_⟩⟩
  have hfloat := h p hp
  cases hvalue : p.value with
  | float x => exact ⟨x, hfloat x hvalue, rfl⟩
  | _ => rfl

namespace Mapping

/-- The JSON text of a statement compiled from a request, in any convention, is read as a statement
with the same text, the same names and values of the same kinds, and as the statement itself where
each double is read back from its own text. No double in it is infinite or no number. -/
theorem statements_reread {m : Mapping} {target : String} {q : Query} {body : Json} {r : Request}
    {c : Convention} {s : Statement} (hbody : body.IsValue) (hr : m.Makes target q body r)
    (hs : r.compile c = .ok s) :
    (∀ p ∈ s.params, ∀ x, p.value = .float x → x.isFinite = true) ∧
      (∀ s', Statement.ofText? (s.toJson.pretty ++ "\n") = some s' ↔ s.Rereads s') ∧
      ((∀ p ∈ s.params, ∀ x, p.value = .float x → x.Rereads x) →
        Statement.ofText? (s.toJson.pretty ++ "\n") = some s) := by
  have hfits := hr.fits_params hbody hs
  refine ⟨fun p hp x hx => ?_, fun s' => Statement.ofText?_eq_some hfits, fun hdoubles =>
    (Statement.ofText?_eq_some hfits).2 (Statement.rereads_self hdoubles)⟩
  have hfit := hfits p hp
  rw [hx] at hfit
  exact hfit.2

theorem statements_reread_kinds :
    let c : Convention := { Convention.standard with typedFilters := true }
    let m : Mapping := ⟨c, .standard⟩
    let q : Query := ⟨none, none, ["e=eq.2.5"], none, none⟩
    let body : Json := .object [("a", .number (.whole 7)),
      ("b", .number (.float (.finite false (3 * 2 ^ 51) (-52)))), ("c", .string "5"), ("d", .null)]
    let s : Statement := ⟨"UPDATE [dbo].[t] SET [a] = ?, [b] = ?, [c] = ?, [d] = ? WHERE [e] = ?",
      [⟨none, .int 7⟩, ⟨none, .float (.finite false (3 * 2 ^ 51) (-52))⟩, ⟨none, .string "5"⟩,
        ⟨none, .null⟩, ⟨none, .float (.finite false (5 * 2 ^ 50) (-51))⟩]⟩
    body.IsValue ∧ (∃ r, m.Makes "t" q body r ∧ r.compile c = .ok s) ∧
      Statement.ofText? (s.toJson.pretty ++ "\n") = some s := by
  intro c m q body s
  have hbody : body.IsValue := by
    have htext : Json.ofText? "\x7b\"a\":7,\"b\":1.5,\"c\":\"5\",\"d\":null\x7d" =
        some body := by
      decide +kernel
    exact Json.isValue_of_ofText? htext
  have hcompiles : ((m.update "t" q body).bind fun r => r.compile c).toOption = some s := by
    decide +kernel
  obtain ⟨r, hr, hs⟩ := ok_of_bind (ok_of_toOption hcompiles)
  obtain ⟨-, -, hself⟩ := statements_reread hbody (.update hr) hs
  refine ⟨hbody, ⟨r, .update hr, hs⟩, hself ?_⟩
  have hthreeHalves : Double.Rereads (.finite false (3 * 2 ^ 51) (-52))
      (.finite false (3 * 2 ^ 51) (-52)) := by
    unfold Double.Rereads
    decide +kernel
  have hfiveHalves : Double.Rereads (.finite false (5 * 2 ^ 50) (-51))
      (.finite false (5 * 2 ^ 50) (-51)) := by
    unfold Double.Rereads
    decide +kernel
  simp only [s, List.forall_mem_cons]
  refine ⟨nofun, ?_, nofun, nofun, ?_, nofun⟩
  · rintro x ⟨⟩
    exact hthreeHalves
  · rintro x ⟨⟩
    exact hfiveHalves

end Mapping

end RestSql
