import RestSql.Proofs.Sql.Lexeme
import RestSql.Request.Basic

/-!
What a statement says, read from its lexemes: its kind, its names in order, the operators of its
conditions, its order and its window, with a slot where each parameter stands. Blanks between the
lexemes carry nothing. Every part is read back whatever follows it, as far as that does not go on
with the part.
-/

namespace RestSql

/-- A column compared with what its slot holds. -/
structure Condition (α : Type) where
  column : String
  op : Operator
  operand : α
deriving DecidableEq, Repr

/-- A procedure is called, a function is selected, and one that returns a table is selected from. -/
inductive CallForm
  | procedure | scalar | table
deriving DecidableEq, Repr

inductive Sketch (α : Type)
  | select (table : TableName) (columns : List String) (filters : List (Condition α))
    (order : List OrderItem) (window : Window)
  | insert (table : TableName) (cells : List (String × α))
  | update (table : TableName) (cells : List (String × α)) (filters : List (Condition α))
  | delete (table : TableName) (filters : List (Condition α))
  | call (form : CallForm) (schema name : String) (args : List α)
deriving DecidableEq, Repr

namespace Sketch

variable {α β : Type}

def map (f : α → β) : Sketch α → Sketch β
  | select table columns filters order window =>
    select table columns (filters.map fun x => ⟨x.column, x.op, f x.operand⟩) order window
  | insert table cells => insert table (cells.map fun x => (x.1, f x.2))
  | update table cells filters => update table (cells.map fun x => (x.1, f x.2))
      (filters.map fun x => ⟨x.column, x.op, f x.operand⟩)
  | delete table filters => delete table (filters.map fun x => ⟨x.column, x.op, f x.operand⟩)
  | call form schema name args => call form schema name (args.map f)

def shape (sketch : Sketch α) : Sketch Unit := sketch.map fun _ => ()

end Sketch

namespace Lexeme

variable {α β : Type}

def isBlank : Lexeme α → Bool
  | sign ch => ch == ' '
  | _ => false

def isComma : Lexeme α → Bool
  | sign ch => ch == ','
  | _ => false

def isAnd : Lexeme α → Bool
  | word w => w == "AND"
  | _ => false

/-! ## Lists with separators -/

def items? (isSeparator : Lexeme α → Bool)
    (item? : List (Lexeme α) → Option (β × List (Lexeme α))) :
    Nat → List (Lexeme α) → Option (List β × List (Lexeme α))
  | 0, _ => none
  | fuel + 1, ls =>
    match item? ls with
    | none => none
    | some (b, l :: rest) =>
      if isSeparator l then (items? isSeparator item? fuel rest).map fun p => (b :: p.1, p.2)
      else some ([b], l :: rest)
    | some (b, []) => some ([b], [])

/-- There is at most one more item than lexemes. -/
def separated? (isSeparator : Lexeme α → Bool)
    (item? : List (Lexeme α) → Option (β × List (Lexeme α))) (ls : List (Lexeme α)) :
    Option (List β × List (Lexeme α)) :=
  items? isSeparator item? (ls.length + 1) ls

theorem length_le_intercalate (l : Lexeme α) (parts : List (List (Lexeme α))) :
    parts.length ≤ (List.intercalate [l] parts).length + 1 := by
  induction parts with
  | nil => simp
  | cons part parts ih =>
    cases parts with
    | nil => simp
    | cons next parts =>
      rw [List.intercalate_cons_cons]
      simp only [List.length_cons, List.length_append, List.length_nil] at ih ⊢
      omega

/-- Items are read back from their spellings with separators between them, where every item is
read back before a separator and before what follows the last one. -/
theorem separated?_intercalate {isSeparator : Lexeme α → Bool}
    {item? : List (Lexeme α) → Option (β × List (Lexeme α))} {spell : β → List (Lexeme α)}
    {separator : Lexeme α} {items : List β} {rest : List (Lexeme α)} (hne : items ≠ [])
    (hs : isSeparator separator = true) (hr : ∀ l ∈ rest.head?, isSeparator l = false)
    (hmiddle : ∀ b ∈ items, ∀ ls, item? (spell b ++ separator :: ls) = some (b, separator :: ls))
    (hlast : ∀ b ∈ items, item? (spell b ++ rest) = some (b, rest)) :
    separated? isSeparator item? (List.intercalate [separator] (items.map spell) ++ rest) =
      some (items, rest) := by
  -- the fuel is counted down once for every item
  have hfuel : ∀ fuel, items.length ≤ fuel → items? isSeparator item? fuel
      (List.intercalate [separator] (items.map spell) ++ rest) = some (items, rest) := by
    intro fuel hf
    induction items generalizing fuel with
    | nil => exact absurd rfl hne
    | cons b items ih =>
      obtain ⟨fuel, rfl⟩ : ∃ k, fuel = k + 1 := ⟨fuel - 1, by simp at hf; omega⟩
      cases items with
      | nil =>
        have hb := hlast b (by simp)
        simp only [List.map_cons, List.map_nil, List.intercalate_singleton, items?, hb]
        cases rest with
        | nil => rfl
        | cons l rest => simp [hr l (by simp)]
      | cons next items =>
        have hb := hmiddle b (by simp)
        have hnext := ih (by simp) (fun d hd => hmiddle d (by simp [hd]))
          (fun d hd => hlast d (by simp [hd])) fuel (by simp at hf ⊢; omega)
        simp only [List.map_cons] at hnext ⊢
        rw [List.intercalate_cons_cons, List.append_assoc, List.append_assoc]
        simp only [items?, List.singleton_append, hb, hs, if_true, hnext, Option.map_some]
  apply hfuel
  have h1 := length_le_intercalate separator (items.map spell)
  rw [List.length_map] at h1
  rw [List.length_append]
  omega

/-! ## Parts of statements -/

def name? : List (Lexeme α) → Option (String × List (Lexeme α))
  | .ident n :: rest => some (n, rest)
  | _ => none

def slot? : List (Lexeme α) → Option (α × List (Lexeme α))
  | .marker a :: rest => some (a, rest)
  | _ => none

def table? : List (Lexeme α) → Option (TableName × List (Lexeme α))
  | .ident schema :: .sign '.' :: .ident name :: rest => some (⟨schema, name⟩, rest)
  | _ => none

def assignment? : List (Lexeme α) → Option ((String × α) × List (Lexeme α))
  | .ident n :: .sign '=' :: .marker a :: rest => some ((n, a), rest)
  | _ => none

def operator? : List (Lexeme α) → Option (Operator × List (Lexeme α))
  | .sign '=' :: rest => some (.eq, rest)
  | .sign '<' :: .sign '>' :: rest => some (.neq, rest)
  | .sign '<' :: .sign '=' :: rest => some (.lte, rest)
  | .sign '<' :: rest => some (.lt, rest)
  | .sign '>' :: .sign '=' :: rest => some (.gte, rest)
  | .sign '>' :: rest => some (.gt, rest)
  | .word "LIKE" :: rest => some (.like, rest)
  | .word "IN" :: rest => some (.among, rest)
  | .word "NOT" :: .word "LIKE" :: rest => some (.notLike, rest)
  | .word "NOT" :: .word "IN" :: rest => some (.notAmong, rest)
  | _ => none

def operand? (op : Operator) (ls : List (Lexeme α)) : Option (α × List (Lexeme α)) :=
  match op.isMembership, ls with
  | true, .sign '(' :: .marker a :: .sign ')' :: rest => some (a, rest)
  | false, .marker a :: rest => some (a, rest)
  | _, _ => none

def condition? : List (Lexeme α) → Option (Condition α × List (Lexeme α))
  | .ident column :: ls =>
    (operator? ls).bind fun p => (operand? p.1 p.2).map fun q => (⟨column, p.1, q.1⟩, q.2)
  | _ => none

def filters? : List (Lexeme α) → Option (List (Condition α) × List (Lexeme α))
  | .word "WHERE" :: rest => separated? isAnd condition? rest
  | ls => some ([], ls)

def orderItem? : List (Lexeme α) → Option (OrderItem × List (Lexeme α))
  | .ident n :: .word "ASC" :: rest => some (⟨n, some .ascending⟩, rest)
  | .ident n :: .word "DESC" :: rest => some (⟨n, some .descending⟩, rest)
  | .ident n :: rest => some (⟨n, none⟩, rest)
  | _ => none

/-- An order by nothing is no order. -/
def order? : List (Lexeme α) → Option (List OrderItem × List (Lexeme α))
  | .word "ORDER" :: .word "BY" :: .sign '(' :: .word "SELECT" :: .word "NULL" :: .sign ')' ::
      rest => some ([], rest)
  | .word "ORDER" :: .word "BY" :: rest => separated? isComma orderItem? rest
  | ls => some ([], ls)

def top : List (Lexeme α) → Option Nat × List (Lexeme α)
  | .word "TOP" :: .sign '(' :: .number n :: .sign ')' :: rest => (some n, rest)
  | ls => (none, ls)

/-- The window at the end; an offset of zero is no offset. -/
def window? : List (Lexeme α) → Option Window
  | [] => some ⟨none, none⟩
  | [.word "LIMIT", .number n] => some ⟨some n, none⟩
  | [.word "LIMIT", .number n, .word "OFFSET", .number m] =>
    some ⟨some n, (some m).filter (0 < ·)⟩
  | [.word "OFFSET", .number m] | [.word "OFFSET", .number m, .word "ROWS"] =>
    some ⟨none, (some m).filter (0 < ·)⟩
  | [.word "OFFSET", .number m, .word "ROWS", .word "FETCH", .word "NEXT", .number n, .word "ROWS",
      .word "ONLY"] =>
    some ⟨some n, (some m).filter (0 < ·)⟩
  | _ => none

def columns? : List (Lexeme α) → Option (List String × List (Lexeme α))
  | .sign '*' :: rest => some ([], rest)
  | ls => separated? isComma name? ls

def enclosed? (item? : List (Lexeme α) → Option (β × List (Lexeme α))) :
    List (Lexeme α) → Option (List β × List (Lexeme α))
  | .sign '(' :: .sign ')' :: rest => some ([], rest)
  | .sign '(' :: ls =>
    match separated? isComma item? ls with
    | some (bs, .sign ')' :: rest) => some (bs, rest)
    | _ => none
  | _ => none

/-! ## Statements -/

/-- What follows the name of what is selected from: a function has arguments, and takes no columns
and no window; a table has clauses. -/
def source? (limit : Option Nat) (columns : List String) (table : TableName) :
    List (Lexeme α) → Option (Sketch α)
  | .sign '(' :: rest =>
    match enclosed? slot? (.sign '(' :: rest) with
    | some (args, []) =>
      if columns = [] ∧ limit = none then some (.call .table table.schema table.name args) else none
    | _ => none
  | ls =>
    (filters? ls).bind fun fs => (order? fs.2).bind fun order => (window? order.2).map fun w =>
      .select table columns fs.1 order.1 ⟨limit.or w.limit, w.offset⟩

/-- What follows `SELECT`: a function with its arguments, or columns of something. -/
def select? : List (Lexeme α) → Option (Sketch α)
  | .ident schema :: .sign '.' :: .ident name :: rest =>
    match enclosed? slot? rest with
    | some (args, []) => some (.call .scalar schema name args)
    | _ => none
  | ls =>
    match columns? (top ls).2 with
    | some (columns, .word "FROM" :: rest) =>
      (table? rest).bind fun t => source? (top ls).1 columns t.1 t.2
    | _ => none

def insert? (ls : List (Lexeme α)) : Option (Sketch α) :=
  match table? ls with
  | some (table, [.word "DEFAULT", .word "VALUES"]) => some (.insert table [])
  | some (table, rest) =>
    match enclosed? name? rest with
    | some (columns, .word "VALUES" :: rest) =>
      match enclosed? slot? rest with
      | some (slots, []) =>
        if columns.length = slots.length then some (.insert table (columns.zip slots)) else none
      | _ => none
    | _ => none
  | none => none

def update? (ls : List (Lexeme α)) : Option (Sketch α) :=
  match table? ls with
  | some (table, .word "SET" :: rest) =>
    match separated? isComma assignment? rest with
    | some (cells, rest) =>
      match filters? rest with
      | some (filters, []) => some (.update table cells filters)
      | _ => none
    | none => none
  | _ => none

def delete? (ls : List (Lexeme α)) : Option (Sketch α) :=
  match table? ls with
  | some (table, rest) =>
    match filters? rest with
    | some (filters, []) => some (.delete table filters)
    | _ => none
  | none => none

def procedure? (ls : List (Lexeme α)) : Option (Sketch α) :=
  match table? ls with
  | some (name, rest) =>
    match enclosed? slot? rest with
    | some (args, [.sign '\x7d']) => some (.call .procedure name.schema name.name args)
    | _ => none
  | none => none

end Lexeme

namespace Sketch

open Lexeme

variable {α β : Type}

def ofTokens? : List (Lexeme α) → Option (Sketch α)
  | .word "SELECT" :: ls => select? ls
  | .word "INSERT" :: .word "INTO" :: ls => insert? ls
  | .word "UPDATE" :: ls => update? ls
  | .word "DELETE" :: .word "FROM" :: ls => delete? ls
  | .sign '\x7b' :: .word "call" :: ls => procedure? ls
  | _ => none

def ofLexemes? (ls : List (Lexeme α)) : Option (Sketch α) := ofTokens? (ls.filter (!·.isBlank))

/-- What a text says under a convention, with the characters of its markers in the slots. -/
def ofText? (c : Convention) (text : String) : Option (Sketch (List Char)) :=
  (Lexeme.list? c text.toList).bind ofLexemes?

end Sketch

/-! ## Parts are read back -/

namespace Lexeme

variable {α β : Type}

def ofOperator : Operator → List (Lexeme α)
  | .eq => [.sign '=']
  | .neq => [.sign '<', .sign '>']
  | .gt => [.sign '>']
  | .lt => [.sign '<']
  | .gte => [.sign '>', .sign '=']
  | .lte => [.sign '<', .sign '=']
  | .like => [.word "LIKE"]
  | .notLike => [.word "NOT", .word "LIKE"]
  | .among => [.word "IN"]
  | .notAmong => [.word "NOT", .word "IN"]

def ofCondition (x : Condition α) : List (Lexeme α) :=
  .ident x.column :: ofOperator x.op ++
    if x.op.isMembership then [.sign '(', .marker x.operand, .sign ')'] else [.marker x.operand]

def ofAssignment (cell : String × α) : List (Lexeme α) :=
  [.ident cell.1, .sign '=', .marker cell.2]

def ofOrderItem (o : OrderItem) : List (Lexeme α) :=
  .ident o.identifier :: o.direction.elim [] fun d => [.word d.sql]

def commaSeparated (parts : List (List (Lexeme α))) : List (Lexeme α) :=
  List.intercalate [.sign ','] parts

theorem condition?_ofCondition (x : Condition α) (rest : List (Lexeme α)) :
    condition? (ofCondition x ++ rest) = some (x, rest) := by
  obtain ⟨column, op, operand⟩ := x
  cases op <;> rfl

theorem filters?_conditions {xs : List (Condition α)} {rest : List (Lexeme α)} (hne : xs ≠ [])
    (hr : ∀ l ∈ rest.head?, isAnd l = false) :
    filters? (.word "WHERE" :: (List.intercalate [.word "AND"] (xs.map ofCondition) ++ rest)) =
      some (xs, rest) :=
  separated?_intercalate hne rfl hr (fun x _ _ => condition?_ofCondition x _)
    (fun x _ => condition?_ofCondition x _)

def isDirection : Lexeme α → Bool
  | word w => w == "ASC" || w == "DESC"
  | _ => false

theorem orderItem?_ofOrderItem (o : OrderItem) {rest : List (Lexeme α)}
    (hr : ∀ l ∈ rest.head?, isDirection l = false) :
    orderItem? (ofOrderItem o ++ rest) = some (o, rest) := by
  obtain ⟨n, direction⟩ := o
  cases direction with
  | some d => cases d <;> rfl
  | none =>
    cases rest with
    | nil => rfl
    | cons l rest =>
      have hl := hr l (by simp)
      cases l with
      | word w =>
        have h1 : w ≠ "ASC" ∧ w ≠ "DESC" := by simpa [isDirection] using hl
        simp [ofOrderItem, orderItem?, h1]
      | _ => rfl

theorem order?_items {order : List OrderItem} {rest : List (Lexeme α)} (hne : order ≠ [])
    (hr : ∀ l ∈ rest.head?, isComma l = false ∧ isDirection l = false) :
    order? (.word "ORDER" :: .word "BY" :: (commaSeparated (order.map ofOrderItem) ++ rest)) =
      some (order, rest) := by
  have hitems : separated? isComma orderItem?
      (commaSeparated (order.map ofOrderItem) ++ rest) = some (order, rest) :=
    separated?_intercalate hne rfl (fun l hl => (hr l hl).1)
      (fun o _ _ => orderItem?_ofOrderItem o (by simp [isDirection]))
      (fun o _ => orderItem?_ofOrderItem o fun l hl => (hr l hl).2)
  -- the first item begins with an identifier, so this is not an order by nothing
  obtain ⟨o, order, rfl⟩ := List.exists_cons_of_ne_nil hne
  obtain ⟨ls, hls⟩ : ∃ ls, commaSeparated ((o :: order).map ofOrderItem) ++ rest =
      (.ident o.identifier :: ls : List (Lexeme α)) := by
    cases order <;> simp [commaSeparated, ofOrderItem, List.intercalate_cons_cons]
  rw [hls] at hitems ⊢
  exact hitems

theorem columns?_names {names : List String} {rest : List (Lexeme α)} (hne : names ≠ [])
    (hr : ∀ l ∈ rest.head?, isComma l = false) :
    columns? (commaSeparated (names.map fun n => [.ident n]) ++ rest) = some (names, rest) := by
  have hitems : separated? isComma name?
      (commaSeparated (names.map fun n => [.ident n]) ++ rest) = some (names, rest) :=
    separated?_intercalate hne rfl hr (fun _ _ _ => rfl) (fun _ _ => rfl)
  obtain ⟨n, names, rfl⟩ := List.exists_cons_of_ne_nil hne
  obtain ⟨ls, hls⟩ : ∃ ls, commaSeparated ((n :: names).map fun n => [.ident n]) ++ rest =
      (.ident n :: ls : List (Lexeme α)) := by
    cases names <;> simp [commaSeparated, List.intercalate_cons_cons]
  rw [hls] at hitems ⊢
  exact hitems

theorem assignments {cells : List (String × α)} {rest : List (Lexeme α)} (hne : cells ≠ [])
    (hr : ∀ l ∈ rest.head?, isComma l = false) :
    separated? isComma assignment? (commaSeparated (cells.map ofAssignment) ++ rest) =
      some (cells, rest) :=
  separated?_intercalate hne rfl hr (fun _ _ _ => rfl) (fun _ _ => rfl)

/-- A list in parentheses is read back, where its items are lexemes of their own that do not close
it. -/
theorem enclosed?_items {item? : List (Lexeme α) → Option (β × List (Lexeme α))}
    {spell : β → Lexeme α} (items : List β) (rest : List (Lexeme α))
    (hspell : ∀ b, spell b ≠ .sign ')') (hitem : ∀ b ls, item? (spell b :: ls) = some (b, ls)) :
    enclosed? item? (.sign '(' :: (commaSeparated (items.map fun b => [spell b]) ++
      .sign ')' :: rest)) = some (items, rest) := by
  cases items with
  | nil => rfl
  | cons b items =>
    have hitems : separated? isComma item? (commaSeparated ((b :: items).map fun b => [spell b]) ++
        .sign ')' :: rest) = some (b :: items, .sign ')' :: rest) :=
      separated?_intercalate (by simp) rfl (by simp [isComma]) (fun _ _ _ => hitem _ _)
        (fun _ _ => hitem _ _)
    obtain ⟨ls, hls⟩ : ∃ ls, commaSeparated ((b :: items).map fun b => [spell b]) ++
        .sign ')' :: rest = spell b :: ls := by
      cases items <;> simp [commaSeparated, List.intercalate_cons_cons]
    rw [hls] at hitems ⊢
    simp [enclosed?, hspell b, hitems]

theorem enclosed?_slots (slots : List α) (rest : List (Lexeme α)) :
    enclosed? slot? (.sign '(' :: (commaSeparated (slots.map fun a => [.marker a]) ++
      .sign ')' :: rest)) = some (slots, rest) :=
  enclosed?_items slots rest (by simp) fun _ _ => rfl

theorem enclosed?_names (ns : List String) (rest : List (Lexeme α)) :
    enclosed? name? (.sign '(' :: (commaSeparated (ns.map fun n => [.ident n]) ++
      .sign ')' :: rest)) = some (ns, rest) :=
  enclosed?_items ns rest (by simp) fun _ _ => rfl

end Lexeme

end RestSql
