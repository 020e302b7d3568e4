import RestSql.Proofs.Sql.Sketch
import RestSql.Proofs.Statement.Split

/-!
The sketch of a request: what its statement says. It is read back from the lexemes of the request's
pieces, with the slot of every marker where the request has the column, the filter or the argument
of the same place.
-/

namespace RestSql

open Piece Lexeme

/-! ## The sketch of a request -/

section Sketches

variable {α β : Type}

def Filter.conditions (fs : List Filter) (slots : List α) : List (Condition α) :=
  List.zipWith (fun f a => ⟨f.column, f.op, a⟩) fs slots

theorem Filter.conditions_ne_nil {fs : List Filter} {slots : List α} (hne : fs ≠ [])
    (hlength : slots.length = fs.length) : Filter.conditions fs slots ≠ [] := by
  intro h
  have hl := congrArg List.length h
  rw [Filter.conditions, List.length_zipWith, hlength, Nat.min_self, List.length_nil] at hl
  exact hne (List.length_eq_zero_iff.1 hl)

def Window.effective (w : Window) : Window := ⟨w.limit, w.effectiveOffset⟩

def Routine.form (r : Routine) : CallForm :=
  if !r.isFunction then .procedure else if r.returnsTable then .table else .scalar

/-- What the statement of a request says, with slots in order; those of assigned columns come before
those of filters. -/
def Request.sketch (slots : List α) : Request → Sketch α
  | .select s => .select s.table s.columns (Filter.conditions s.filters slots) s.order
      s.window.effective
  | .insert table row => .insert table (row.columns.zip slots)
  | .update u => .update u.table (u.row.columns.zip slots)
      (Filter.conditions u.filters (slots.drop u.row.columns.length))
  | .delete table filters => .delete table (Filter.conditions filters slots)
  | .call k => .call k.routine.form k.routine.schema k.routine.name slots

def Request.slotCount : Request → Nat
  | .select s => s.filters.length
  | .insert _ row => row.columns.length
  | .update u => u.row.columns.length + u.filters.length
  | .delete _ filters => filters.length
  | .call k => k.args.length

theorem Request.length_bindings (c : Convention) (r : Request) :
    (r.bindings c).length = r.slotCount := by
  cases r with
  | call k => simp [bindings, slotCount, k.complete]
  | _ => simp [bindings, slotCount, Filter.bindings, Row.bindings, Row.columns]

theorem Request.map_sketch (f : α → β) (slots : List α) (r : Request) :
    (r.sketch slots).map f = r.sketch (slots.map f) := by
  have hzip : ∀ (ns : List String) (slots : List α),
      (ns.zip slots).map (fun x => (x.1, f x.2)) = ns.zip (slots.map f) := by
    intro ns slots
    rw [List.zip_map_right]
    rfl
  have hfilters : ∀ (fs : List Filter) (slots : List α),
      (Filter.conditions fs slots).map (fun x => ⟨x.column, x.op, f x.operand⟩) =
        Filter.conditions fs (slots.map f) := by
    intro fs slots
    rw [Filter.conditions, Filter.conditions, List.map_zipWith, List.zipWith_map_right]
  cases r <;> simp [sketch, Sketch.map, hzip, hfilters, List.map_drop]

def Request.shape (r : Request) : Sketch Unit := r.sketch (List.replicate r.slotCount ())

theorem Request.shape_sketch {r : Request} {slots : List α} (h : slots.length = r.slotCount) :
    (r.sketch slots).shape = r.shape := by
  rw [Sketch.shape, map_sketch, List.map_const', h, shape]

end Sketches

namespace Piece

/-! ## Pieces without blanks -/

section Tokens

variable {α : Type} (slot : Nat → String → α)

/-- The lexemes of pieces without the blanks between them. -/
def tokens (ps : List Piece) : List (Lexeme α) := (ps.flatMap (lexemes slot)).filter (!·.isBlank)

theorem tokens_append (ps qs : List Piece) :
    tokens slot (ps ++ qs) = tokens slot ps ++ tokens slot qs := by
  simp [tokens]

theorem tokens_cons (p : Piece) (ps : List Piece) :
    tokens slot (p :: ps) = tokens slot [p] ++ tokens slot ps :=
  tokens_append slot [p] ps

@[simp] theorem tokens_nil : tokens slot [] = [] := rfl

@[simp] theorem tokens_ident (n : String) : tokens slot [ident n] = [.ident n] := rfl

@[simp] theorem tokens_number (n : Nat) : tokens slot [number n] = [.number n] := rfl

@[simp] theorem tokens_marker (position : Nat) (label : String) :
    tokens slot [marker position label] = [.marker (slot position label)] := rfl

def markersAt (places : List (Nat × String)) : List Piece := places.map fun p => marker p.1 p.2

def slotsAt (places : List (Nat × String)) : List α := places.map fun p => slot p.1 p.2

theorem length_slotsAt (places : List (Nat × String)) :
    (slotsAt slot places).length = places.length :=
  List.length_map _

theorem drop_markersAt (n : Nat) (places : List (Nat × String)) :
    (markersAt places).drop n = markersAt (places.drop n) :=
  List.map_drop.symm

theorem drop_slotsAt (n : Nat) (places : List (Nat × String)) :
    (slotsAt slot places).drop n = slotsAt slot (places.drop n) :=
  List.map_drop.symm

variable {slot} in
theorem map_tokens_zipWith {β : Type} {f : β → Piece → List Piece} {g : β → α → List (Lexeme α)}
    (h : ∀ b position label, tokens slot (f b (marker position label)) = g b (slot position label))
    (bs : List β) (places : List (Nat × String)) :
    (List.zipWith f bs (markersAt places)).map (tokens slot) =
      List.zipWith g bs (slotsAt slot places) := by
  rw [markersAt, slotsAt, List.zipWith_map_right, List.zipWith_map_right, List.map_zipWith]
  simp only [h]

/-- What goes through pieces one after the other goes through separated parts one by one. -/
theorem apply_separated {β : Type} {f : List Piece → List β} (hnil : f [] = [])
    (happend : ∀ ps qs, f (ps ++ qs) = f ps ++ f qs) (separator : String)
    (parts : List (List Piece)) :
    f (separated separator parts) = List.intercalate (f [word separator]) (parts.map f) := by
  unfold separated
  induction parts with
  | nil => exact hnil
  | cons part parts ih =>
    cases parts with
    | nil => simp
    | cons next parts =>
      rw [List.intercalate_cons_cons, List.map_cons, List.map_cons, List.intercalate_cons_cons,
        happend, happend, ih, List.map_cons]

theorem tokens_separated (separator : String) (parts : List (List Piece)) :
    tokens slot (separated separator parts) =
      List.intercalate (tokens slot [word separator]) (parts.map (tokens slot)) :=
  apply_separated rfl (tokens_append slot) separator parts

theorem tokens_commas {β : Type} (f : β → List Piece) (items : List β) :
    tokens slot (separated ", " (items.map f)) =
      commaSeparated (items.map fun b => tokens slot (f b)) := by
  rw [tokens_separated, List.map_map]
  rfl

end Tokens

end Piece

/-! ## The tokens of requests -/

section Requests

variable {α : Type} {slot : Nat → String → α}

theorem TableName.tokens_pieces (t : TableName) :
    tokens slot t.pieces = [.ident t.schema, .sign '.', .ident t.name] := rfl

theorem Filter.tokens_pieces (f : Filter) (position : Nat) (label : String) :
    tokens slot (f.pieces (marker position label)) =
      ofCondition ⟨f.column, f.op, slot position label⟩ := by
  have h1 : tokens slot [word (" " ++ f.op.sql ++ " (")] = ofOperator f.op ++ [.sign '('] := by
    cases f.op <;> rfl
  have h2 : tokens slot [word (" " ++ f.op.sql ++ " ")] = ofOperator f.op := by
    cases f.op <;> rfl
  have h3 : tokens slot [word ")"] = [.sign ')'] := rfl
  rw [Filter.pieces]
  split
  · rename_i h
    rw [tokens_cons, tokens_cons _ (word _), tokens_cons _ (marker _ _), h1, h3]
    simp [ofCondition, h]
  · rename_i h
    rw [tokens_cons, tokens_cons _ (word _), h2]
    simp [ofCondition, h]

theorem OrderItem.tokens_pieces (o : OrderItem) : tokens slot o.pieces = ofOrderItem o := by
  obtain ⟨n, direction⟩ := o
  cases direction with
  | none => rfl
  | some d => cases d <;> rfl

variable {places : List (Nat × String)}

theorem Filter.tokens_clause {fs : List Filter} (hne : fs ≠ []) :
    tokens slot (Filter.clause fs (markersAt places)) =
      .word "WHERE" :: List.intercalate [.word "AND"]
        ((Filter.conditions fs (slotsAt slot places)).map ofCondition) := by
  have hmap : (List.zipWith Filter.pieces fs (markersAt places)).map (tokens slot) =
      List.zipWith (fun f a => ofCondition ⟨f.column, f.op, a⟩) fs (slotsAt slot places) :=
    map_tokens_zipWith Filter.tokens_pieces fs places
  rw [Filter.clause, if_neg (by simpa using hne), tokens_cons, tokens_separated, hmap,
    Filter.conditions, List.map_zipWith]
  rfl

theorem OrderItem.tokens_clause {order : List OrderItem} (hne : order ≠ []) :
    tokens slot (OrderItem.clause order) =
      .word "ORDER" :: .word "BY" :: commaSeparated (order.map ofOrderItem) := by
  rw [OrderItem.clause, if_neg (by simpa using hne), tokens_cons, tokens_commas]
  simp only [OrderItem.tokens_pieces]
  rfl

theorem tokens_names (ns : List String) :
    tokens slot (names ns) = commaSeparated (ns.map fun n => [.ident n]) :=
  tokens_commas slot _ _

theorem tokens_markers :
    tokens slot (separated ", " ((markersAt places).map fun m => [m])) =
      commaSeparated ((slotsAt slot places).map fun a => [.marker a]) := by
  rw [tokens_commas, markersAt, slotsAt, List.map_map, List.map_map]
  rfl

/-! ## Clauses are read back -/

/-- What is there begins with one of these keywords. -/
def BeginsWith (ws : List String) (ls : List (Lexeme α)) : Prop :=
  ∀ l ∈ ls.head?, ∃ w ∈ ws, l = .word w

theorem BeginsWith.nil (ws : List String) : BeginsWith ws ([] : List (Lexeme α)) := by
  simp [BeginsWith]

theorem BeginsWith.append {ws : List String} {ls ms : List (Lexeme α)} (h : BeginsWith ws ls)
    (h' : BeginsWith ws ms) : BeginsWith ws (ls ++ ms) := by
  intro l hl
  cases ls with
  | nil => exact h' l hl
  | cons k ls => exact h l hl

theorem BeginsWith.mono {ws vs : List String} {ls : List (Lexeme α)} (h : BeginsWith ws ls)
    (hs : ∀ w ∈ ws, w ∈ vs) : BeginsWith vs ls := by
  intro l hl
  obtain ⟨w, hw, he⟩ := h l hl
  exact ⟨w, hs w hw, he⟩

theorem BeginsWith.isComma {ws : List String} {ls : List (Lexeme α)} (h : BeginsWith ws ls) :
    ∀ l ∈ ls.head?, isComma l = false := by
  intro l hl
  obtain ⟨w, -, rfl⟩ := h l hl
  rfl

theorem Filter.beginsWith_clause (fs : List Filter) :
    BeginsWith ["WHERE"] (tokens slot (Filter.clause fs (markersAt places))) := by
  by_cases hne : fs = []
  · subst hne
    exact BeginsWith.nil _
  · rw [Filter.tokens_clause hne]
    exact fun l hl => ⟨"WHERE", by simp, (Option.some.inj hl).symm⟩

theorem Filter.filters?_clause {fs : List Filter} {rest : List (Lexeme α)}
    (hlength : places.length = fs.length) (hr : BeginsWith ["ORDER", "LIMIT", "OFFSET"] rest) :
    filters? (tokens slot (Filter.clause fs (markersAt places)) ++ rest) =
      some (Filter.conditions fs (slotsAt slot places), rest) := by
  by_cases hne : fs = []
  · subst hne
    cases rest with
    | nil => rfl
    | cons l rest =>
      obtain ⟨w, hw, rfl⟩ := hr l (by simp)
      have hwhere : w ≠ "WHERE" := by
        rintro rfl
        simp at hw
      simp [Filter.clause, Filter.conditions, filters?, hwhere]
  · have hconditions : Filter.conditions fs (slotsAt slot places) ≠ [] :=
      Filter.conditions_ne_nil hne (by rw [length_slotsAt, hlength])
    rw [Filter.tokens_clause hne, List.cons_append]
    apply filters?_conditions hconditions
    intro l hl
    obtain ⟨w, hw, rfl⟩ := hr l hl
    have hand : w ≠ "AND" := by
      rintro rfl
      simp at hw
    simpa [isAnd] using hand

theorem Filter.filters?_last {fs : List Filter} (hlength : places.length = fs.length) :
    filters? (tokens slot (Filter.clause fs (markersAt places))) =
      some (Filter.conditions fs (slotsAt slot places), []) := by
  have h : filters? (tokens slot (Filter.clause fs (markersAt places)) ++ []) =
      some (Filter.conditions fs (slotsAt slot places), []) :=
    Filter.filters?_clause hlength (BeginsWith.nil _)
  rwa [List.append_nil] at h

namespace Window

theorem beginsWith_tail (style : WindowStyle) (ordered : Bool) (w : Window) :
    BeginsWith ["ORDER", "LIMIT", "OFFSET"] (tokens slot (w.tail style ordered)) := by
  intro l hl
  cases style with
  | top => simp [tail] at hl
  | limitOffset =>
    rw [tail] at hl
    cases h1 : w.limit <;> cases h2 : w.effectiveOffset <;> rw [h1, h2] at hl
    · simp at hl
    · exact ⟨"OFFSET", by simp, (Option.some.inj hl).symm⟩
    · exact ⟨"LIMIT", by simp, (Option.some.inj hl).symm⟩
    · exact ⟨"LIMIT", by simp, (Option.some.inj hl).symm⟩
  | offsetFetch =>
    rw [tail] at hl
    split at hl
    · simp at hl
    · cases ordered with
      | true => exact ⟨"OFFSET", by simp, (Option.some.inj hl).symm⟩
      | false => exact ⟨"ORDER", by simp, (Option.some.inj hl).symm⟩

/-- Without an order, one that orders nothing is read past. -/
theorem order?_clause (style : WindowStyle) (order : List OrderItem) (w : Window) :
    order? (tokens slot (OrderItem.clause order) ++ tokens slot (w.tail style !order.isEmpty)) =
      some (order, tokens slot (w.tail style true)) := by
  by_cases hne : order = []
  · subst hne
    cases style with
    | top => rfl
    | _ =>
      simp only [tail]
      cases w.limit <;> cases w.effectiveOffset <;> rfl
  · have hordered : (!order.isEmpty) = true := by simpa using hne
    rw [OrderItem.tokens_clause hne, hordered]
    apply order?_items hne
    intro l hl
    obtain ⟨v, hv, rfl⟩ := beginsWith_tail style true w l hl
    have hkeywords : ∀ v ∈ ["ORDER", "LIMIT", "OFFSET"], (v == "ASC" || v == "DESC") = false := by
      decide
    exact ⟨rfl, hkeywords v hv⟩

theorem window?_tail (style : WindowStyle) (w : Window) :
    window? (tokens slot (w.tail style true)) =
      some (if style = .top then ⟨none, none⟩ else w.effective) := by
  have hoffset : ∀ m, w.effectiveOffset = some m → (some m).filter (0 < ·) = some m := by
    intro m hm
    have hpos := (Option.filter_eq_some_iff.1 hm).2
    rw [Option.filter_some, if_pos hpos]
  cases style with
  | top => rfl
  | _ =>
    simp only [tail, effective]
    cases h1 : w.limit <;> cases h2 : w.effectiveOffset
    · rfl
    · exact congrArg (fun o => some (Window.mk none o)) (hoffset _ h2)
    · rfl
    · exact congrArg (fun o => some (Window.mk (some _) o)) (hoffset _ h2)

end Window

/-! ## Requests are read back -/

theorem ofTokens?_deletePieces {table : TableName} {fs : List Filter}
    (hlength : places.length = fs.length) :
    Sketch.ofTokens? (tokens slot (deletePieces table fs (markersAt places))) =
      some ((Request.delete table fs).sketch (slotsAt slot places)) := by
  have hhead : tokens slot (word "DELETE FROM " :: table.pieces) =
      [.word "DELETE", .word "FROM", .ident table.schema, .sign '.', .ident table.name] := rfl
  rw [deletePieces, tokens_append, hhead]
  simp [Sketch.ofTokens?, delete?, table?, Filter.filters?_last hlength, Request.sketch]

theorem tokens_assignments (ns : List String) :
    tokens slot (separated ", " (List.zipWith (fun n m => [ident n, word " = ", m]) ns
      (markersAt places))) = commaSeparated ((ns.zip (slotsAt slot places)).map ofAssignment) := by
  rw [tokens_separated, map_tokens_zipWith (g := fun n a => ofAssignment (n, a)) fun _ _ _ => rfl,
    List.map_zip_eq_zipWith]
  rfl

theorem Update.ofTokens?_pieces {u : Update}
    (hlength : places.length = u.row.columns.length + u.filters.length) :
    Sketch.ofTokens? (tokens slot (u.pieces (markersAt places))) =
      some ((Request.update u).sketch (slotsAt slot places)) := by
  have hhead : tokens slot (word "UPDATE " :: u.table.pieces) =
      [.word "UPDATE", .ident u.table.schema, .sign '.', .ident u.table.name] := rfl
  have hset : tokens slot [word " SET "] = [.word "SET"] := rfl
  have hcells : u.row.columns.zip (slotsAt slot places) ≠ [] := by
    intro h
    have hl := congrArg List.length h
    have hcolumns : u.row.columns.length ≠ 0 := by
      simpa [Row.columns] using u.cells_ne
    simp only [List.length_zip, length_slotsAt, List.length_nil] at hl
    omega
  have hwhere : BeginsWith ["WHERE"]
      (tokens slot (Filter.clause u.filters (markersAt (places.drop u.row.columns.length)))) :=
    Filter.beginsWith_clause u.filters
  have hfilters : filters?
      (tokens slot (Filter.clause u.filters (markersAt (places.drop u.row.columns.length)))) =
      some (Filter.conditions u.filters (slotsAt slot (places.drop u.row.columns.length)), []) :=
    Filter.filters?_last (by simp [hlength])
  rw [Update.pieces, tokens_append, tokens_append, tokens_cons slot (word " SET "),
    tokens_assignments, hhead, hset, drop_markersAt]
  simp [Sketch.ofTokens?, update?, table?, assignments hcells hwhere.isComma, hfilters,
    Request.sketch, drop_slotsAt]

theorem ofTokens?_insertPieces {table : TableName} {row : Row}
    (hlength : places.length = row.columns.length) :
    Sketch.ofTokens? (tokens slot (insertPieces table row (markersAt places))) =
      some ((Request.insert table row).sketch (slotsAt slot places)) := by
  have hhead : tokens slot (word "INSERT INTO " :: table.pieces) =
      [.word "INSERT", .word "INTO", .ident table.schema, .sign '.', .ident table.name] := rfl
  rw [insertPieces, tokens_append, hhead]
  by_cases hne : row.cells = []
  · have hcolumns : row.columns = [] := by simp [Row.columns, hne]
    have htail : tokens slot [word " DEFAULT VALUES"] = [.word "DEFAULT", .word "VALUES"] := rfl
    simp [hne, Sketch.ofTokens?, insert?, table?, htail, Request.sketch, hcolumns]
  · have hopen : tokens slot [word " ("] = [.sign '('] := rfl
    have hvalues : tokens slot [word ") VALUES ("] = [.sign ')', .word "VALUES", .sign '('] := rfl
    have hclose : tokens slot [word ")"] = [.sign ')'] := rfl
    rw [if_neg (by simpa using hne), tokens_append, tokens_append, tokens_cons slot (word " ("),
      tokens_cons slot (word ") VALUES ("), tokens_names, tokens_markers, hopen, hvalues, hclose]
    simp [Sketch.ofTokens?, insert?, table?, enclosed?_names, enclosed?_slots, Request.sketch,
      length_slotsAt, hlength]

/-- Arguments in parentheses; without any there is no blank between them. -/
theorem tokens_arguments :
    tokens slot (if (markersAt places).isEmpty then [Piece.word "()"]
      else Piece.word "( " :: separated ", " ((markersAt places).map fun m => [m]) ++
        [Piece.word " )"]) =
      .sign '(' :: (commaSeparated ((slotsAt slot places).map fun a => [.marker a]) ++
        [.sign ')']) := by
  have hopen : tokens slot [word "( "] = [.sign '('] := rfl
  have hclose : tokens slot [word " )"] = [.sign ')'] := rfl
  cases places with
  | nil => rfl
  | cons p places =>
    have hne : (markersAt (p :: places)).isEmpty = false := rfl
    rw [hne, if_neg (by simp), tokens_append, tokens_cons, tokens_markers, hopen, hclose]
    rfl

theorem Call.ofTokens?_pieces (k : Call) :
    Sketch.ofTokens? (tokens slot (k.pieces (markersAt places))) =
      some ((Request.call k).sketch (slotsAt slot places)) := by
  have htarget : ∀ n,
      tokens slot (word n :: [ident k.routine.schema, word ".", ident k.routine.name]) =
        tokens slot [word n] ++ [.ident k.routine.schema, .sign '.', .ident k.routine.name] :=
    fun n => tokens_cons _ _ _
  rw [Call.pieces]
  cases hfunction : k.routine.isFunction with
  | false =>
    have hopen : tokens slot [word "\x7bcall "] = [.sign '\x7b', .word "call"] := rfl
    have hclose : tokens slot [word "\x7d"] = [.sign '\x7d'] := rfl
    rw [if_pos (by simp), tokens_append, tokens_append, tokens_arguments, htarget, hopen, hclose]
    simp [Sketch.ofTokens?, procedure?, table?, enclosed?_slots, Request.sketch,
      Routine.form, hfunction]
  | true =>
    rw [if_neg (by simp)]
    cases htable : k.routine.returnsTable with
    | true =>
      have hopen : tokens slot [word "SELECT * FROM "] =
          [.word "SELECT", .sign '*', .word "FROM"] := rfl
      rw [if_pos rfl, tokens_append, tokens_arguments, htarget, hopen]
      simp [Sketch.ofTokens?, select?, top, columns?, table?, source?, enclosed?_slots,
        Request.sketch, Routine.form, hfunction, htable]
    | false =>
      have hopen : tokens slot [word "SELECT "] = [.word "SELECT"] := rfl
      rw [if_neg (by simp), tokens_append, tokens_arguments, htarget, hopen]
      simp [Sketch.ofTokens?, select?, enclosed?_slots, Request.sketch, Routine.form, hfunction,
        htable]

theorem OrderItem.beginsWith_clause (order : List OrderItem) :
    BeginsWith ["ORDER"] (tokens slot (OrderItem.clause order)) := by
  by_cases hne : order = []
  · subst hne
    exact BeginsWith.nil _
  · rw [OrderItem.tokens_clause hne]
    exact fun l hl => ⟨"ORDER", by simp, (Option.some.inj hl).symm⟩

theorem BeginsWith.source?_eq {ws : List String} {ls : List (Lexeme α)} (h : BeginsWith ws ls)
    (limit : Option Nat) (columns : List String) (table : TableName) :
    source? limit columns table ls =
      (filters? ls).bind fun fs => (order? fs.2).bind fun order => (window? order.2).map fun w =>
        .select table columns fs.1 order.1 ⟨limit.or w.limit, w.offset⟩ := by
  cases ls with
  | nil => rfl
  | cons l ls =>
    obtain ⟨w, -, rfl⟩ := h l (by simp)
    rfl

/-- The clauses of a select are read back, whatever limit stands in front of its columns. -/
theorem source?_clauses {fs : List Filter} {order : List OrderItem} {columns : List String}
    (limit : Option Nat) (table : TableName) (style : WindowStyle) (w : Window)
    (hlength : places.length = fs.length) :
    source? limit columns table
      (tokens slot (Filter.clause fs (markersAt places)) ++
        (tokens slot (OrderItem.clause order) ++ tokens slot (w.tail style !order.isEmpty))) =
      some (.select table columns (Filter.conditions fs (slotsAt slot places)) order
        (if style = .top then ⟨limit, none⟩ else ⟨limit.or w.limit, w.effectiveOffset⟩)) := by
  -- every clause ends where the keyword of a later one begins
  have htail : BeginsWith ["ORDER", "LIMIT", "OFFSET"]
      (tokens slot (OrderItem.clause order) ++ tokens slot (w.tail style !order.isEmpty)) :=
    ((OrderItem.beginsWith_clause order).mono (by simp)).append (Window.beginsWith_tail _ _ _)
  have hclauses : BeginsWith ["WHERE", "ORDER", "LIMIT", "OFFSET"]
      (tokens slot (Filter.clause fs (markersAt places)) ++
        (tokens slot (OrderItem.clause order) ++ tokens slot (w.tail style !order.isEmpty))) :=
    ((Filter.beginsWith_clause fs).mono (by simp)).append (htail.mono (by simp))
  rw [hclauses.source?_eq, Filter.filters?_clause hlength htail, Option.bind_some,
    Window.order?_clause, Option.bind_some, Window.window?_tail, Option.map_some]
  split <;> simp [Window.effective]

/-- Columns are read back before `FROM`; none are all. -/
theorem columns?_tokens (columns : List String) (rest : List (Lexeme α)) :
    columns? (tokens slot (if columns.isEmpty then [Piece.word "*"] else names columns) ++
      .word "FROM" :: rest) = some (columns, .word "FROM" :: rest) := by
  by_cases hne : columns = []
  · subst hne
    rfl
  · rw [if_neg (by simpa using hne), tokens_names]
    exact columns?_names hne (by simp [isComma])

def frontTokens (limit : Option Nat) : List (Lexeme α) :=
  limit.elim [] fun n => [.word "TOP", .sign '(', .number n, .sign ')']

/-- Columns are no name of a function: behind the first of them stands no dot. -/
theorem select?_columns (limit : Option Nat) (columns : List String) (rest : List (Lexeme α)) :
    select? (frontTokens limit ++
      (tokens slot (if columns.isEmpty then [Piece.word "*"] else names columns) ++
        .word "FROM" :: rest)) = (table? rest).bind fun t => source? limit columns t.1 t.2 := by
  have hcolumns : columns?
      (tokens slot (if columns.isEmpty then [Piece.word "*"] else names columns) ++
        .word "FROM" :: rest) = some (columns, .word "FROM" :: rest) := columns?_tokens columns rest
  cases limit with
  | some n => simp only [frontTokens, Option.elim, List.cons_append, List.nil_append, select?, top,
      hcolumns]
  | none =>
    rcases columns with - | ⟨n, - | ⟨m, columns⟩⟩
    · rfl
    · rfl
    · -- a comma stands behind the first of several columns
      obtain ⟨ls, hls⟩ : ∃ ls, tokens slot (if (n :: m :: columns).isEmpty then [Piece.word "*"]
          else names (n :: m :: columns)) ++ .word "FROM" :: rest =
            .ident n :: .sign ',' :: ls := by
        rw [if_neg (by simp), tokens_names, commaSeparated, List.map_cons, List.map_cons,
          List.intercalate_cons_cons]
        exact ⟨_, rfl⟩
      rw [hls] at hcolumns ⊢
      simp [frontTokens, select?, top, hcolumns]

namespace Window

def front (style : WindowStyle) (w : Window) : Option Nat := if style = .top then w.limit else none

theorem tokens_head {style : WindowStyle} {w : Window} {ps : List Piece}
    (h : w.head style = .ok ps) : tokens slot ps = frontTokens (w.front style) := by
  rw [head_eq h, front]
  split
  · cases w.limit <;> rfl
  · rfl

/-- The limit is at one of its places, and with a limit in front there is no offset. -/
theorem front_or_tail {style : WindowStyle} {w : Window} {ps : List Piece}
    (h : w.head style = .ok ps) :
    (if style = .top then ⟨w.front style, none⟩
      else ⟨(w.front style).or w.limit, w.effectiveOffset⟩) = w.effective := by
  cases style with
  | top =>
    cases ho : w.effectiveOffset with
    | none => simp [front, effective, ho]
    | some m => simp [head, ho] at h
  | _ => simp [front, effective]

end Window

theorem Select.ofTokens?_pieces {c : Convention} {s : Select} {ps : List Piece}
    (hlength : places.length = s.filters.length)
    (h : s.pieces c.window (markersAt places) = .ok ps) :
    Sketch.ofTokens? (tokens slot ps) =
      some ((Request.select s).sketch (slotsAt slot places)) := by
  obtain ⟨head, hh, rfl⟩ := Select.pieces_eq h
  have hclauses : source? (s.window.front c.window) s.columns s.table
      (tokens slot (Filter.clause s.filters (markersAt places)) ++
        (tokens slot (OrderItem.clause s.order) ++
          tokens slot (s.window.tail c.window !s.order.isEmpty))) =
      some (.select s.table s.columns (Filter.conditions s.filters (slotsAt slot places)) s.order
        s.window.effective) := by
    rw [source?_clauses _ _ _ _ hlength, Window.front_or_tail hh]
  have hselect : tokens slot [Piece.word "SELECT "] = [.word "SELECT"] := rfl
  have hfrom : tokens slot [Piece.word " FROM "] = [.word "FROM"] := rfl
  simp only [List.cons_append, List.append_assoc]
  rw [tokens_cons, tokens_append, tokens_append, tokens_cons slot (.word " FROM "), tokens_append,
    tokens_append, tokens_append, hselect, hfrom, TableName.tokens_pieces, Window.tokens_head hh]
  simp only [List.cons_append, List.nil_append, Sketch.ofTokens?]
  rw [select?_columns, table?, Option.bind_some, hclauses]
  rfl

/-- The lexemes of a request's pieces say what the request is. -/
theorem Request.ofLexemes?_pieces {c : Convention} {r : Request} {ps : List Piece}
    (hlength : places.length = r.slotCount)
    (h : r.pieces c (markersAt places) = .ok ps) :
    Sketch.ofLexemes? (ps.flatMap (lexemes slot)) =
      some (r.sketch (slotsAt slot places)) := by
  cases r with
  | select s => exact Select.ofTokens?_pieces hlength h
  | insert table row => exact Except.ok.inj h ▸ ofTokens?_insertPieces hlength
  | update u => exact Except.ok.inj h ▸ Update.ofTokens?_pieces hlength
  | delete table fs => exact Except.ok.inj h ▸ ofTokens?_deletePieces hlength
  | call k => exact Except.ok.inj h ▸ k.ofTokens?_pieces

end Requests

end RestSql
