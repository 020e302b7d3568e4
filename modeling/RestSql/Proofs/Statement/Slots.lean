import RestSql.Proofs.Sql.Filling
import RestSql.Proofs.Statement.Decoding

namespace RestSql

open Piece

/-- The values of a request in order: assigned values, then what filters are compared with, or
arguments. -/
def Request.values (c : Convention) : Request → List Value
  | .select s => s.filters.map (·.operand c)
  | .insert _ row => row.cells.map (·.2)
  | .update u => u.row.cells.map (·.2) ++ u.filters.map (·.operand c)
  | .delete _ filters => filters.map (·.operand c)
  | .call k => k.args

theorem Filter.map_snd_bindings (c : Convention) (fs : List Filter) :
    (Filter.bindings c fs).map (·.2) = fs.map (·.operand c) := by
  have hfst : fs.zipIdx.map (fun f => f.1.operand c) =
      (fs.zipIdx.map Prod.fst).map (·.operand c) := by
    rw [List.map_map]
    rfl
  rw [Filter.bindings, List.map_map]
  apply hfst.trans
  rw [List.zipIdx_map_fst]

theorem Request.map_snd_bindings (c : Convention) (r : Request) :
    (r.bindings c).map (·.2) = r.values c := by
  have hrow : ∀ row : Row, row.bindings.map (·.2) = row.cells.map (·.2) := by
    intro row
    rw [Row.bindings, List.map_map]
    rfl
  cases r with
  | select s => exact Filter.map_snd_bindings c s.filters
  | insert table row => exact hrow row
  | update u => rw [bindings, List.map_append, hrow, Filter.map_snd_bindings, values]
  | delete table fs => exact Filter.map_snd_bindings c fs
  | call k =>
    rw [bindings, values]
    exact List.map_snd_zip (by simp [k.complete])

/-! ## Markers without labels -/

namespace Piece

def unlabelled : Piece → Piece
  | marker position _ => marker position ""
  | p => p

theorem map_unlabelled_separated (separator : String) (parts : List (List Piece)) :
    (separated separator parts).map unlabelled =
      separated separator (parts.map fun part => part.map unlabelled) :=
  apply_separated rfl (fun _ _ => List.map_append) separator parts

theorem map_unlabelled_of_content (ns : List String) {ps : List Piece}
    (h : content ps = ns.map ident) : ps.map unlabelled = ps := by
  have hfixed : ∀ p ∈ ps, p.unlabelled = p := by
    intro p hp
    cases p with
    | marker position label =>
      have hmem : marker position label ∈ content ps := by
        rw [content, List.mem_filter]
        exact ⟨hp, rfl⟩
      simp [h] at hmem
    | _ => rfl
  rw [List.map_congr_left hfixed, List.map_id'']
  exact fun _ => rfl

end Piece

section Requests

variable (markers : List Piece)

theorem Filter.map_unlabelled_pieces (f : Filter) (m : Piece) :
    (f.pieces m).map unlabelled = f.pieces m.unlabelled := by
  rw [Filter.pieces, Filter.pieces]
  split <;> rfl

theorem Filter.map_unlabelled_clause (fs : List Filter) :
    (Filter.clause fs markers).map unlabelled = Filter.clause fs (markers.map unlabelled) := by
  rw [Filter.clause, Filter.clause]
  split
  · rfl
  · rw [List.map_cons, map_unlabelled_separated, List.map_zipWith, List.zipWith_map_right]
    simp only [Filter.map_unlabelled_pieces]
    rfl

theorem map_unlabelled_markers :
    (separated ", " (markers.map fun m => [m])).map unlabelled =
      separated ", " ((markers.map unlabelled).map fun m => [m]) := by
  rw [map_unlabelled_separated, List.map_map, List.map_map]
  rfl

theorem Request.map_unlabelled_pieces {c : Convention} {r : Request} {ps : List Piece}
    (h : r.pieces c markers = .ok ps) :
    r.pieces c (markers.map unlabelled) = .ok (ps.map unlabelled) := by
  have htable : ∀ t : TableName, t.pieces.map unlabelled = t.pieces := fun _ => rfl
  have hnames : ∀ ns : List String, (Piece.names ns).map unlabelled = Piece.names ns :=
    fun ns => map_unlabelled_of_content ns (content_names ns)
  cases r with
  | select s =>
    obtain ⟨head, hh, rfl⟩ := Select.pieces_eq h
    have hhead : head.map unlabelled = head :=
      map_unlabelled_of_content [] (Window.content_head hh)
    have htail : (s.window.tail c.window !s.order.isEmpty).map unlabelled =
        s.window.tail c.window !s.order.isEmpty :=
      map_unlabelled_of_content [] (Window.content_tail _ _ _)
    have horder : (OrderItem.clause s.order).map unlabelled = OrderItem.clause s.order := by
      apply map_unlabelled_of_content (s.order.map (·.identifier))
      rw [OrderItem.content_clause, List.map_map]
      rfl
    have hcolumns : (if s.columns.isEmpty then [word "*"]
          else Piece.names s.columns).map unlabelled =
        if s.columns.isEmpty then [word "*"] else Piece.names s.columns := by
      split
      · rfl
      · exact hnames _
    simp only [List.map_append, List.map_cons, hhead, htail, horder, hcolumns, htable,
      Filter.map_unlabelled_clause]
    simp [Request.pieces, Select.pieces, hh, bind, Except.bind, pure, Except.pure, unlabelled]
  | insert table row =>
    obtain rfl := Except.ok.inj h
    rw [Request.pieces, insertPieces, insertPieces, List.map_append, List.map_cons, htable]
    split
    · rfl
    · simp only [List.map_append, List.map_cons, hnames, map_unlabelled_markers]
      rfl
  | update u =>
    obtain rfl := Except.ok.inj h
    have hcells : (separated ", " (List.zipWith (fun n m => [ident n, word " = ", m]) u.row.columns
        markers)).map unlabelled = separated ", " (List.zipWith
          (fun n m => [ident n, word " = ", m]) u.row.columns (markers.map unlabelled)) := by
      rw [map_unlabelled_separated, List.map_zipWith, List.zipWith_map_right]
      rfl
    rw [Request.pieces, Update.pieces, Update.pieces, List.map_append, List.map_append,
      List.map_cons, List.map_cons, htable, hcells, Filter.map_unlabelled_clause, List.map_drop]
    rfl
  | delete table fs =>
    obtain rfl := Except.ok.inj h
    rw [Request.pieces, deletePieces, deletePieces, List.map_append, List.map_cons, htable,
      Filter.map_unlabelled_clause]
    rfl
  | call k =>
    obtain rfl := Except.ok.inj h
    have harguments : (if markers.isEmpty then [word "()"]
        else word "( " :: separated ", " (markers.map fun m => [m]) ++ [word " )"]).map unlabelled =
        if (markers.map unlabelled).isEmpty then [word "()"]
        else word "( " :: separated ", " ((markers.map unlabelled).map fun m => [m]) ++
          [word " )"] := by
      rw [List.isEmpty_map]
      split
      · rfl
      · rw [List.map_append, List.map_cons, map_unlabelled_markers]
        rfl
    rw [Request.pieces, Call.pieces, Call.pieces]
    simp only [← harguments]
    split
    · simp only [List.map_append, List.map_cons]
      rfl
    split
    · simp only [List.map_append, List.map_cons]
      rfl
    · simp only [List.map_append, List.map_cons]
      rfl

end Requests

/-! ## Statements -/

def Value.nth (values : List Value) (position : Nat) : Value := values[position - 1]?.getD .null

theorem Param.slotsAt_nth {params : List Param} {values : List Value}
    (h : params.map (·.value) = values) :
    slotsAt (fun position _ => Value.nth values position) (places params) = values := by
  have hlength : params.length = values.length := by simp [← h]
  apply List.ext_getElem?
  intro i
  rw [slotsAt, places, List.map_map, List.getElem?_map, List.getElem?_zipIdx]
  cases hv : values[i]? with
  | none =>
    have hp : params[i]? = none := by
      rw [List.getElem?_eq_none_iff] at hv ⊢
      omega
    simp [hp]
  | some v =>
    obtain ⟨p, hp, -⟩ : ∃ p, params[i]? = some p ∧ p.value = v := by
      simpa [← h] using hv
    simp [Value.nth, hp, hv]

theorem Param.getElem?_places {params : List Param} {i : Nat} {place : Nat × String}
    (h : (places params)[i]? = some place) :
    ∃ p, params[i]? = some p ∧ place = (i + 1, p.name.getD "") := by
  rw [places, List.getElem?_map, List.getElem?_zipIdx] at h
  cases hp : params[i]? with
  | none => simp [hp] at h
  | some p => exact ⟨p, rfl, by simpa [hp] using h.symm⟩

/-- Lexemes with places in the slots, from which those with anything else are made. -/
theorem Piece.map_lexemes {α : Type} (slot : Nat → String → α) (ps : List Piece) :
    (ps.flatMap (lexemes Prod.mk)).map (Lexeme.map fun place => slot place.1 place.2) =
      ps.flatMap (lexemes slot) := by
  have hfixed : ∀ cs, (fixed cs : List (Lexeme (Nat × String))).map
      (Lexeme.map fun place => slot place.1 place.2) = fixed cs := by
    intro cs
    induction cs with
    | nil => rfl
    | cons ch cs ih =>
      simp only [fixed, ← ih]
      split
      · cases (fixed cs : List (Lexeme (Nat × String))) with
        | nil => rfl
        | cons l ls => cases l <;> rfl
      · rfl
  rw [List.map_flatMap]
  congr 1
  funext p
  cases p with
  | word t => exact hfixed _
  | _ => rfl

namespace Request

variable {c : Convention} {r : Request} {s : Statement}

theorem map_value_params (h : r.compile c = .ok s) : s.params.map (·.value) = r.values c := by
  rw [(compile_eq_ok h).1, MarkerStyle.map_value_params, map_snd_bindings]

theorem names_of_isNamed (h : r.compile c = .ok s) (hn : c.markers.isNamed = true) :
    (∀ p ∈ s.params, ∃ n, p.name = some n ∧ Binding.IsLabel n) ∧ (s.params.map (·.name)).Nodup := by
  rw [(compile_eq_ok h).1]
  exact ⟨fun p hp => MarkerStyle.name_params_of_isNamed hn hp,
    MarkerStyle.nodup_params_of_isNamed _ hn⟩

theorem names_of_not_isNamed (h : r.compile c = .ok s) (hn : c.markers.isNamed = false) :
    ∀ p ∈ s.params, p.name = none := by
  rw [(compile_eq_ok h).1]
  exact fun p hp => MarkerStyle.name_params_of_not_isNamed hn hp

/-- Every marker denotes the value of its parameter. -/
theorem resolved?_compile (h : r.compile c = .ok s) :
    ∃ ps, r.pieces c (markersAt (Param.places s.params)) = .ok ps ∧ s.resolved? c =
      some (ps.flatMap (lexemes fun position _ => Value.nth (r.values c) position)) := by
  obtain ⟨ps, hp, hs⟩ := exists_isSplit h
  refine ⟨ps, hp, ?_⟩
  have hslots : Lexeme.slots (ps.flatMap (lexemes Prod.mk)) = Param.places s.params := by
    rw [slots_pieces (by rw [Param.length_places, length_params h]) hp, slotsAt]
    exact List.map_id' _
  rw [Statement.resolved?, hs.list?, Option.bind_some, textLexemes,
    ← Piece.map_lexemes, ← Piece.map_lexemes (fun position _ => Value.nth (r.values c) position)]
  apply Lexeme.fill?_map
  intro i place hplace
  -- so the slot with this many before it is that of the parameter in the same place
  rw [hslots] at hplace
  obtain ⟨p, hi, rfl⟩ := Param.getElem?_places hplace
  have hvalue : Value.nth (r.values c) (i + 1) = p.value := by
    simp [Value.nth, ← map_value_params h, hi]
  rw [Nat.zero_add, hvalue]
  apply MarkerStyle.denoted?_render hi
  intro hn
  obtain ⟨hsome, hnodup⟩ := names_of_isNamed h hn
  obtain ⟨n, hname, -⟩ := hsome p (List.mem_of_getElem? hi)
  exact ⟨by simp [hname], hnodup⟩

end Request

end RestSql
