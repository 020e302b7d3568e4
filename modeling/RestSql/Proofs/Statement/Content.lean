import RestSql.Proofs.Statement.Sketch

/-!
The identifiers and the markers of a request's statement, in order: every name of the request has
its identifier and every parameter its marker, a filter's behind the column that it is compared
with.
-/

namespace RestSql

namespace Piece

def identName? : Piece → Option String
  | ident n => some n
  | _ => none

def place? : Piece → Option (Nat × String)
  | marker position label => some (position, label)
  | _ => none

def content (ps : List Piece) : List Piece :=
  ps.filter fun p => p.identName?.isSome || p.place?.isSome

@[simp] theorem content_nil : content [] = [] := rfl

@[simp] theorem content_ident (n : String) (ps : List Piece) :
    content (ident n :: ps) = ident n :: content ps := rfl

@[simp] theorem content_marker (position : Nat) (label : String) (ps : List Piece) :
    content (marker position label :: ps) = marker position label :: content ps := rfl

@[simp] theorem content_word (t : String) (ps : List Piece) :
    content (word t :: ps) = content ps := rfl

@[simp] theorem content_number (n : Nat) (ps : List Piece) :
    content (number n :: ps) = content ps := rfl

@[simp] theorem content_append (ps qs : List Piece) :
    content (ps ++ qs) = content ps ++ content qs :=
  List.filter_append ps qs

theorem content_fixed {α : Type} {l : Lexeme α} {cs : List Char} (h : l ∈ fixed cs) :
    l.identName? = none ∧ l.held? = none := by
  induction cs generalizing l with
  | nil => simp [fixed] at h
  | cons ch cs ih =>
    -- a letter changes only the word in front
    have hword : ∀ {w : String} {ls : List (Lexeme α)}, (∀ m ∈ ls, m ∈ fixed cs) →
        l ∈ .word w :: ls → l.identName? = none ∧ l.held? = none := by
      intro w ls hls hl
      rcases List.mem_cons.1 hl with rfl | hl
      · exact ⟨rfl, rfl⟩
      · exact ih (hls l hl)
    rw [fixed] at h
    split at h
    · split at h
      · rename_i w ls hf
        exact hword (fun m hm => by simp [hf, hm]) h
      · exact hword (fun m hm => hm) h
    · rcases List.mem_cons.1 h with rfl | h
      · exact ⟨rfl, rfl⟩
      · exact ih h

theorem identifiers_lexemes {α : Type} (slot : Nat → String → α) (ps : List Piece) :
    Lexeme.identifiers (ps.flatMap (lexemes slot)) = (content ps).filterMap identName? := by
  induction ps with
  | nil => rfl
  | cons p ps ih =>
    rw [List.flatMap_cons, Lexeme.identifiers, List.filterMap_append, ← Lexeme.identifiers,
      ← Lexeme.identifiers, ih]
    cases p with
    | word t =>
      have hfixed : Lexeme.identifiers (fixed t.toList : List (Lexeme α)) = [] :=
        List.filterMap_eq_nil_iff.2 fun l hl => (content_fixed hl).1
      rw [lexemes, hfixed, content_word, List.nil_append]
    | _ => rfl

theorem slots_lexemes {α : Type} (slot : Nat → String → α) (ps : List Piece) :
    Lexeme.slots (ps.flatMap (lexemes slot)) = slotsAt slot ((content ps).filterMap place?) := by
  induction ps with
  | nil => rfl
  | cons p ps ih =>
    rw [List.flatMap_cons, Lexeme.slots_append, ih]
    cases p with
    | word t =>
      have hfixed : Lexeme.slots (fixed t.toList : List (Lexeme α)) = [] :=
        List.filterMap_eq_nil_iff.2 fun l hl => (content_fixed hl).2
      rw [lexemes, hfixed, content_word, List.nil_append]
    | _ => rfl

@[simp] theorem content_separated (separator : String) (parts : List (List Piece)) :
    content (separated separator parts) = parts.flatMap content := by
  rw [apply_separated content_nil content_append, List.flatMap_def]
  induction parts.map content with
  | nil => rfl
  | cons ps pss ih =>
    cases pss with
    | nil => simp
    | cons qs pss => simpa [List.intercalate_cons_cons] using ih

@[simp] theorem content_names (ns : List String) : content (names ns) = ns.map ident := by
  rw [names, content_separated, List.flatMap_map, List.map_eq_flatMap]
  rfl

@[simp] theorem content_markers (places : List (Nat × String)) :
    content (separated ", " ((markersAt places).map fun m => [m])) = markersAt places := by
  rw [content_separated, List.flatMap_map, markersAt, List.flatMap_map, List.map_eq_flatMap]
  rfl

def marked (ns : List String) (places : List (Nat × String)) : List Piece :=
  (List.zipWith (fun n p => [ident n, marker p.1 p.2]) ns places).flatten

theorem flatMap_content_zipWith {β : Type} {f : β → Piece → List Piece} {g : β → String}
    (h : ∀ b position label,
      content (f b (marker position label)) = [ident (g b), marker position label])
    (bs : List β) (places : List (Nat × String)) :
    (List.zipWith f bs (markersAt places)).flatMap content = marked (bs.map g) places := by
  rw [List.flatMap_def, markersAt, List.zipWith_map_right, List.map_zipWith, marked,
    List.zipWith_map_left]
  simp only [h]

theorem filterMap_identName?_marked (ns : List String) (places : List (Nat × String))
    (h : ns.length ≤ places.length) : (marked ns places).filterMap identName? = ns := by
  induction ns generalizing places with
  | nil => rfl
  | cons n ns ih =>
    cases places with
    | nil => simp at h
    | cons p places => exact congrArg (n :: ·) (ih places (by simpa using h))

theorem filterMap_place?_marked (ns : List String) (places : List (Nat × String)) :
    (marked ns places).filterMap place? = places.take ns.length := by
  induction ns generalizing places with
  | nil => rfl
  | cons n ns ih =>
    cases places with
    | nil => rfl
    | cons p places => exact congrArg (p :: ·) (ih places)

theorem filterMap_identName?_idents (ns : List String) :
    (ns.map ident).filterMap identName? = ns := by
  rw [List.filterMap_map]
  exact List.filterMap_some

theorem filterMap_place?_idents (ns : List String) : (ns.map ident).filterMap place? = [] := by
  rw [List.filterMap_map]
  exact List.filterMap_none _

theorem filterMap_identName?_markersAt (places : List (Nat × String)) :
    (markersAt places).filterMap identName? = [] := by
  rw [markersAt, List.filterMap_map]
  exact List.filterMap_none _

theorem filterMap_place?_markersAt (places : List (Nat × String)) :
    (markersAt places).filterMap place? = places := by
  rw [markersAt, List.filterMap_map]
  exact List.filterMap_some

end Piece

/-! ## The content of requests -/

section Requests

open Piece

variable {places : List (Nat × String)}

def Request.content (places : List (Nat × String)) : Request → List Piece
  | .select s => s.columns.map ident ++ [ident s.table.schema, ident s.table.name] ++
      marked (s.filters.map (·.column)) places ++ (s.order.map (·.identifier)).map ident
  | .insert table row => [ident table.schema, ident table.name] ++ row.columns.map ident ++
      markersAt places
  | .update u => [ident u.table.schema, ident u.table.name] ++ marked u.row.columns places ++
      marked (u.filters.map (·.column)) (places.drop u.row.columns.length)
  | .delete table fs => [ident table.schema, ident table.name] ++
      marked (fs.map (·.column)) places
  | .call k => [ident k.routine.schema, ident k.routine.name] ++ markersAt places

/-- The names in a request, in the order in which its statement has them. -/
def Request.names : Request → List String
  | .select s => s.columns ++ [s.table.schema, s.table.name] ++ s.filters.map (·.column) ++
      s.order.map (·.identifier)
  | .insert table row => [table.schema, table.name] ++ row.columns
  | .update u => [u.table.schema, u.table.name] ++ u.row.columns ++ u.filters.map (·.column)
  | .delete table fs => [table.schema, table.name] ++ fs.map (·.column)
  | .call k => [k.routine.schema, k.routine.name]

theorem TableName.content_pieces (t : TableName) :
    content t.pieces = [ident t.schema, ident t.name] := rfl

theorem Filter.content_pieces (f : Filter) (position : Nat) (label : String) :
    content (f.pieces (marker position label)) = [ident f.column, marker position label] := by
  rw [Filter.pieces]
  split <;> rfl

theorem Filter.content_clause (fs : List Filter) :
    content (Filter.clause fs (markersAt places)) = marked (fs.map (·.column)) places := by
  rw [Filter.clause]
  split
  · rename_i hnil
    rw [List.isEmpty_iff.1 hnil]
    rfl
  · rw [content_word, content_separated, flatMap_content_zipWith Filter.content_pieces]

theorem OrderItem.content_pieces (o : OrderItem) : content o.pieces = [ident o.identifier] := by
  rw [OrderItem.pieces]
  split <;> rfl

theorem OrderItem.content_clause (order : List OrderItem) :
    content (OrderItem.clause order) = order.map fun o => ident o.identifier := by
  rw [OrderItem.clause]
  split
  · rename_i hnil
    rw [List.isEmpty_iff.1 hnil]
    rfl
  · rw [content_word, content_separated, List.flatMap_map, List.map_eq_flatMap]
    simp only [OrderItem.content_pieces]

theorem Window.content_head {style : WindowStyle} {w : Window} {ps : List Piece}
    (h : w.head style = .ok ps) : content ps = [] := by
  rw [Window.head_eq h]
  split
  · cases w.limit <;> rfl
  · rfl

theorem Window.content_tail (style : WindowStyle) (ordered : Bool) (w : Window) :
    content (w.tail style ordered) = [] := by
  cases style with
  | top => rfl
  | limitOffset =>
    rw [tail]
    cases w.limit <;> cases w.effectiveOffset <;> rfl
  | offsetFetch =>
    rw [tail]
    cases ordered <;> cases w.limit <;> cases w.effectiveOffset <;> rfl

theorem Request.content_pieces {c : Convention} {r : Request} {ps : List Piece}
    (hlength : places.length = r.slotCount) (h : r.pieces c (markersAt places) = .ok ps) :
    Piece.content ps = r.content places := by
  cases r with
  | select s =>
    obtain ⟨head, hh, rfl⟩ := Select.pieces_eq h
    have hcolumns : Piece.content (if s.columns.isEmpty then [word "*"]
        else Piece.names s.columns) = s.columns.map ident := by
      split
      · rename_i hnil
        rw [List.isEmpty_iff.1 hnil]
        rfl
      · exact content_names _
    simp only [content_append, content_word, List.cons_append, Window.content_head hh, hcolumns,
      TableName.content_pieces, Filter.content_clause, OrderItem.content_clause,
      Window.content_tail]
    simp [Request.content]
  | insert table row =>
    obtain rfl := Except.ok.inj h
    rw [insertPieces, content_append, content_word, TableName.content_pieces]
    split
    · rename_i hnil
      have hplaces : places = [] := by
        simpa [Request.slotCount, Row.columns, List.isEmpty_iff.1 hnil] using hlength
      simp [Request.content, Row.columns, List.isEmpty_iff.1 hnil, hplaces, markersAt]
    · simp only [content_append, content_word, List.cons_append, content_names, content_markers]
      simp [Request.content]
  | update u =>
    obtain rfl := Except.ok.inj h
    have hcells := flatMap_content_zipWith (f := fun n m => [ident n, word " = ", m]) (g := id)
      (fun _ _ _ => rfl) u.row.columns places
    rw [Update.pieces, drop_markersAt]
    simp [TableName.content_pieces, hcells, Filter.content_clause, Request.content]
  | delete table fs =>
    obtain rfl := Except.ok.inj h
    simp [deletePieces, TableName.content_pieces, Filter.content_clause, Request.content]
  | call k =>
    obtain rfl := Except.ok.inj h
    have harguments : Piece.content (if (markersAt places).isEmpty then [word "()"]
        else word "( " :: separated ", " ((markersAt places).map fun m => [m]) ++ [word " )"]) =
          markersAt places := by
      split
      · rename_i hnil
        rw [List.isEmpty_iff.1 hnil]
        rfl
      · rw [List.cons_append, content_word, content_append, content_markers]
        exact List.append_nil _
    rw [Call.pieces]
    split
    · rw [Piece.content_append, Piece.content_append, harguments]
      exact List.append_nil _
    split
    · rw [Piece.content_append, harguments]
      rfl
    · rw [Piece.content_append, harguments]
      rfl

/-- The identifiers are the names of the request, in order. -/
theorem Request.filterMap_identName?_content {r : Request} (hlength : places.length = r.slotCount) :
    (r.content places).filterMap identName? = r.names := by
  rw [slotCount.eq_def] at hlength
  cases r with
  | select s =>
    have hfilters := filterMap_identName?_marked (s.filters.map (·.column)) places
      (by simpa using hlength.ge)
    simp only [Request.content, List.filterMap_append, filterMap_identName?_idents, hfilters]
    rfl
  | insert table row =>
    simp only [Request.content, List.filterMap_append, filterMap_identName?_idents,
      filterMap_identName?_markersAt, List.append_nil]
    rfl
  | update u =>
    simp only at hlength
    have hcells := filterMap_identName?_marked u.row.columns places (by omega)
    have hfilters := filterMap_identName?_marked (u.filters.map (·.column))
      (places.drop u.row.columns.length) (by simp; omega)
    simp only [Request.content, List.filterMap_append, hcells, hfilters]
    rfl
  | delete table fs =>
    have hfilters := filterMap_identName?_marked (fs.map (·.column)) places
      (by simpa using hlength.ge)
    simp only [Request.content, List.filterMap_append, hfilters]
    rfl
  | call k =>
    simp only [Request.content, List.filterMap_append, filterMap_identName?_markersAt,
      List.append_nil]
    rfl

/-- Every marker is there once, in order. -/
theorem Request.filterMap_place?_content {r : Request} (hlength : places.length = r.slotCount) :
    (r.content places).filterMap place? = places := by
  rw [slotCount.eq_def] at hlength
  cases r with
  | select s =>
    have htake : places.take s.filters.length = places := List.take_of_length_le hlength.le
    simp only [Request.content, List.filterMap_append, filterMap_place?_idents,
      filterMap_place?_marked, List.length_map, htake, List.append_nil]
    rfl
  | insert table row =>
    simp only [Request.content, List.filterMap_append, filterMap_place?_idents,
      filterMap_place?_markersAt]
    rfl
  | update u =>
    simp only at hlength
    have hrest : ((places.drop u.row.columns.length).take u.filters.length) =
        places.drop u.row.columns.length :=
      List.take_of_length_le (by simp; omega)
    simp only [Request.content, List.filterMap_append, filterMap_place?_marked, List.length_map,
      hrest]
    exact List.take_append_drop _ _
  | delete table fs =>
    have htake : places.take fs.length = places := List.take_of_length_le hlength.le
    simp only [Request.content, List.filterMap_append, filterMap_place?_marked, List.length_map,
      htake]
    rfl
  | call k =>
    simp only [Request.content, List.filterMap_append, filterMap_place?_markersAt]
    rfl

/-- The identifiers of a request's lexemes are its names, and the markers are those of its slots. -/
theorem Request.identifiers_pieces {α : Type} {slot : Nat → String → α} {c : Convention}
    {r : Request} {ps : List Piece} (hlength : places.length = r.slotCount)
    (h : r.pieces c (markersAt places) = .ok ps) :
    Lexeme.identifiers (ps.flatMap (lexemes slot)) = r.names := by
  rw [identifiers_lexemes, content_pieces hlength h, filterMap_identName?_content hlength]

theorem Request.slots_pieces {α : Type} {slot : Nat → String → α} {c : Convention}
    {r : Request} {ps : List Piece} (hlength : places.length = r.slotCount)
    (h : r.pieces c (markersAt places) = .ok ps) :
    Lexeme.slots (ps.flatMap (lexemes slot)) = slotsAt slot places := by
  rw [slots_lexemes, content_pieces hlength h, filterMap_place?_content hlength]

end Requests

end RestSql
