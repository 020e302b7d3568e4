import RestSql.Proofs.Failure
import RestSql.Proofs.Text.Pieces
import RestSql.Proofs.Text.Reading
import RestSql.Request.Filters

namespace RestSql

open RestSql.Text

/-! ## Columns, tokens and values -/

namespace Operator

theorem ofToken?_token (op : Operator) : ofToken? op.token = some op := by
  cases op <;> rfl

theorem token_of_ofToken? {token : String} {op : Operator} (h : ofToken? token = some op) :
    op.token = token := by
  simpa using List.find?_some h

theorem ofToken_token (op : Operator) : ofToken op.token = .ok op := by
  rw [ofToken, ofToken?_token, Option.elim_some]

theorem ofToken_eq_error {token : String} (h : ∀ op : Operator, op.token ≠ token) :
    ofToken token = .error (.unknownOperator token) := by
  rw [ofToken]
  cases hop : ofToken? token with
  | none => rfl
  | some op => exact absurd (token_of_ofToken? hop) (h op)

theorem ofToken_eq_ok {token : String} {op : Operator} (h : ofToken token = .ok op) :
    op.token = token := by
  rw [ofToken] at h
  cases hop : ofToken? token with
  | none => simp [hop] at h
  | some found =>
    obtain rfl : found = op := by simpa [hop] using h
    exact token_of_ofToken? hop

end Operator

namespace Filter

structure Parts where
  column : String
  token : String
  value : String
deriving DecidableEq, Repr

namespace Parts

def wire (p : Parts) : String := p.column ++ "=" ++ p.token ++ "." ++ p.value

/-- There are a column and a token, and neither holds the separators that end them. -/
structure Splits (p : Parts) : Prop where
  column_ne : p.column ≠ ""
  column_free : '=' ∉ p.column.toList
  token_ne : p.token ≠ ""
  token_free : '=' ∉ p.token.toList ∧ '.' ∉ p.token.toList

def read (p : Parts) : Except Failure Filter :=
  (Operator.ofToken p.token).map fun op => ⟨p.column, op, p.value⟩

variable {p q : Parts}

theorem toList_wire (p : Parts) :
    p.wire.toList = p.column.toList ++ '=' :: (p.token.toList ++ '.' :: p.value.toList) := by
  simp [wire]

theorem ofWire_wire (h : p.Splits) : ofWire p.wire = p.read := by
  obtain ⟨hcolumn, hfree, htoken, hequals, hpoint⟩ := h
  have hempty : (p.column.toList.isEmpty || p.token.toList.isEmpty || p.token.toList.contains '=')
      = false := by
    simp [hcolumn, htoken, hequals]
  rw [ofWire, toList_wire, cutFirst?_append hfree]
  simp only [cutFirst?_append hpoint, hempty, String.ofList_toList]
  rfl

theorem Splits.eq_of_wire_eq (hp : p.Splits) (hq : q.Splits) (h : p.wire = q.wire) : p = q := by
  have hcut := cutFirst?_append hp.column_free (p.token.toList ++ '.' :: p.value.toList)
  rw [← toList_wire, h, toList_wire, cutFirst?_append hq.column_free] at hcut
  obtain ⟨hcolumn, hrest⟩ := Prod.mk.inj (Option.some.inj hcut)
  have hcut' := cutFirst?_append hp.token_free.2 p.value.toList
  rw [← hrest, cutFirst?_append hq.token_free.2] at hcut'
  obtain ⟨htoken, hvalue⟩ := Prod.mk.inj (Option.some.inj hcut')
  obtain ⟨column, token, value⟩ := p
  rw [mk.injEq]
  exact ⟨(String.toList_inj.1 hcolumn).symm, (String.toList_inj.1 htoken).symm,
    (String.toList_inj.1 hvalue).symm⟩

theorem read_eq_ok {f : Filter} (h : p.read = .ok f) :
    f.column = p.column ∧ f.op.token = p.token ∧ f.value = p.value := by
  rw [read] at h
  cases hop : Operator.ofToken p.token with
  | error e => simp [hop, Except.map] at h
  | ok op =>
    obtain rfl : ⟨p.column, op, p.value⟩ = f := by simpa [hop, Except.map] using h
    exact ⟨rfl, Operator.ofToken_eq_ok hop, rfl⟩

theorem read_of_token {op : Operator} (h : op.token = p.token) :
    p.read = .ok ⟨p.column, op, p.value⟩ := by
  rw [read, ← h, Operator.ofToken_token]
  rfl

theorem read_of_no_token (h : ∀ op : Operator, op.token ≠ p.token) :
    p.read = .error (.unknownOperator p.token) := by
  rw [read, Operator.ofToken_eq_error h]
  rfl

end Parts

def parts (f : Filter) : Parts := ⟨f.column, f.op.token, f.value⟩

theorem wire_parts (f : Filter) : f.parts.wire = f.wire := rfl

theorem splits_parts {f : Filter} (hne : f.column ≠ "") (hfree : '=' ∉ f.column.toList) :
    f.parts.Splits := by
  refine ⟨hne, hfree, ?_, ?_⟩
  · show f.op.token ≠ ""
    cases f.op <;> decide
  · show '=' ∉ f.op.token.toList ∧ '.' ∉ f.op.token.toList
    cases f.op <;> decide

/-! ## Reading -/

/-- A text is the wire form of parts, or it is refused as it stands. -/
theorem splits_or_filterSyntax (raw : String) :
    (∃ p : Parts, p.Splits ∧ p.wire = raw) ∨ ofWire raw = .error (.filterSyntax raw) := by
  rw [ofWire]
  split
  · exact .inr rfl
  · rename_i column rest hcolumn
    split
    · exact .inr rfl
    · rename_i token value htoken
      split
      · exact .inr rfl
      · rename_i hok
        obtain ⟨hraw, hfree⟩ := eq_append_of_cutFirst? hcolumn
        obtain ⟨rfl, hpoint⟩ := eq_append_of_cutFirst? htoken
        simp only [Bool.or_eq_true, List.isEmpty_iff, List.contains_iff_mem, not_or] at hok
        obtain ⟨⟨hne, htokenNe⟩, hequals⟩ := hok
        refine .inl ⟨⟨String.ofList column, String.ofList token, String.ofList value⟩,
          ⟨?_, ?_, ?_, ?_⟩, ?_⟩
        · simpa [← String.toList_inj] using hne
        · simpa using hfree
        · simpa [← String.toList_inj] using htokenNe
        · simpa using And.intro hequals hpoint
        · rw [← String.toList_inj, Parts.toList_wire, hraw]
          simp

/-- Reading and writing undo each other: what is read is what was written, and every filter is read
back whose column can be told from what follows it. A text spells at most one column, token and
value; it is refused for its token if no operator bears that, and for its form if it spells none. -/
theorem ofWire_exact (raw : String) :
    (∀ f, ofWire raw = .ok f → f.wire = raw ∧ f.column ≠ "" ∧ '=' ∉ f.column.toList) ∧
      (∀ f : Filter, ofWire f.wire = .ok f ↔ f.column ≠ "" ∧ '=' ∉ f.column.toList) ∧
      (∀ p : Parts, p.Splits → p.wire = raw →
        (∀ q : Parts, q.Splits → q.wire = raw → q = p) ∧
          (∀ op : Operator, op.token = p.token → ofWire raw = .ok ⟨p.column, op, p.value⟩) ∧
          ((∀ op : Operator, op.token ≠ p.token) →
            ofWire raw = .error (.unknownOperator p.token))) ∧
      ((∀ p : Parts, p.Splits → p.wire ≠ raw) → ofWire raw = .error (.filterSyntax raw)) := by
  have hread : ∀ raw f, ofWire raw = .ok f →
      f.wire = raw ∧ f.column ≠ "" ∧ '=' ∉ f.column.toList := by
    intro raw f h
    rcases splits_or_filterSyntax raw with ⟨p, hp, rfl⟩ | herror
    · rw [Parts.ofWire_wire hp] at h
      obtain ⟨hcolumn, htoken, hvalue⟩ := Parts.read_eq_ok h
      refine ⟨?_, hcolumn ▸ hp.column_ne, hcolumn ▸ hp.column_free⟩
      rw [wire, Parts.wire, hcolumn, htoken, hvalue]
    · rw [herror] at h
      cases h
  refine ⟨hread raw, fun f => ⟨fun h => (hread f.wire f h).2, fun h => ?_⟩, fun p hp hraw => ?_,
    fun h => ?_⟩
  · rw [← wire_parts, Parts.ofWire_wire (splits_parts h.1 h.2)]
    exact Parts.read_of_token rfl
  · subst hraw
    rw [Parts.ofWire_wire hp]
    exact ⟨fun q hq hwire => hq.eq_of_wire_eq hp hwire, fun op hop => Parts.read_of_token hop,
      Parts.read_of_no_token⟩
  · rcases splits_or_filterSyntax raw with ⟨p, hp, hraw⟩ | herror
    · exact absurd hraw (h p hp)
    · exact herror

/-- Points and equals signs in the value, a token that no operator bears, and an equals sign in the
place of a token. -/
theorem ofWire_exact_samples :
    ofWire "a.b=in.x=1.y" = .ok ⟨"a.b", .among, "x=1.y"⟩ ∧
      (⟨"a.b", .among, "x=1.y"⟩ : Filter).wire = "a.b=in.x=1.y" ∧
      (⟨"a.b", "IN", "x"⟩ : Parts).Splits ∧
      ofWire "a.b=IN.x" = .error (.unknownOperator "IN") ∧
      ofWire "a=eq" = .error (.filterSyntax "a=eq") := by
  have hok : ofWire "a.b=in.x=1.y" = .ok ⟨"a.b", .among, "x=1.y"⟩ := rfl
  have hsplits : (⟨"a.b", "IN", "x"⟩ : Parts).Splits :=
    ⟨by decide, by decide, by decide, by decide⟩
  refine ⟨hok, ((ofWire_exact _).1 _ hok).1, hsplits,
    ((ofWire_exact "a.b=IN.x").2.2.1 _ hsplits rfl).2.2 fun op => by cases op <;> decide,
    (ofWire_exact "a=eq").2.2.2 fun p hp hraw => ?_⟩
  have hpoint : '.' ∈ p.wire.toList := by simp [Parts.toList_wire]
  rw [hraw] at hpoint
  exact absurd hpoint (by decide)

end Filter

end RestSql
