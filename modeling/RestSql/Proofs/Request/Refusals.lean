import RestSql.Proofs.Failure
import RestSql.Request.Mapping

namespace RestSql

/-- Every failure is the client's. -/
def Refuses {α : Type} (x : Except Failure α) : Prop := ∀ f, x = .error f → f.status = 400

namespace Refuses

variable {α β : Type}

theorem ok (a : α) : Refuses (.ok a : Except Failure α) := by
  intro f h
  cases h

theorem error {f : Failure} (h : f.status = 400) : Refuses (.error f : Except Failure α) := by
  intro g hg
  obtain rfl := Except.error.inj hg
  exact h

theorem bind {x : Except Failure α} {f : α → Except Failure β} (hx : Refuses x)
    (hf : ∀ a, Refuses (f a)) : Refuses (x >>= f) := by
  cases x with
  | error e => exact error (hx e rfl)
  | ok a => exact hf a

theorem map {x : Except Failure α} (f : α → β) (hx : Refuses x) : Refuses (x.map f) := by
  cases x with
  | error e => exact error (hx e rfl)
  | ok a => exact ok (f a)

theorem mapM {f : α → Except Failure β} (hf : ∀ a, Refuses (f a)) (xs : List α) :
    Refuses (xs.mapM f) := by
  induction xs with
  | nil => exact ok []
  | cons x xs ih =>
    rw [List.mapM_cons]
    exact (hf x).bind fun b => ih.bind fun bs => ok (b :: bs)

theorem check {p : Prop} [Decidable p] {f : Failure} {rest : PUnit → Except Failure α}
    (hf : f.status = 400) (hrest : Refuses (rest PUnit.unit)) :
    Refuses (if p then throw f >>= rest else rest PUnit.unit) := by
  split
  · exact (error hf : Refuses (.error f : Except Failure PUnit)).bind fun _ => by assumption
  · exact hrest

end Refuses

/-! ## Filters -/

theorem Operator.refuses_ofToken (token : String) : Refuses (ofToken token) := by
  rw [ofToken]
  cases ofToken? token with
  | none => exact .error rfl
  | some op => exact .ok op

namespace Filter

theorem refuses_ofWire (raw : String) : Refuses (ofWire raw) := by
  rw [ofWire]
  split
  · exact .error rfl
  split
  · exact .error rfl
  split
  · exact .error rfl
  · exact (Operator.refuses_ofToken _).map _

theorem OperatorName.refuses_resolve (name : OperatorName) : Refuses name.resolve := by
  cases name with
  | token t => exact Operator.refuses_ofToken t
  | literal text sql =>
    rw [resolve]
    split
    · exact .error rfl
    · rename_i op _
      cases sql with
      | none => exact .ok op
      | some s =>
        dsimp only
        split
        · exact .ok op
        · exact .error rfl

theorem refuses_ofMember (raw : String) (member : String × Json) :
    Refuses (ofMember raw member) := by
  rw [ofMember]
  split
  · exact .error rfl
  split
  · exact .error rfl
  · rename_i name value _
    refine (OperatorName.refuses_resolve name).bind fun op => ?_
    split
    · exact .ok _
    · exact .error rfl

theorem refuses_ofEntry (raw : String) : Refuses (ofEntry raw) := by
  rw [ofEntry.eq_def]
  split
  · exact .ok []
  · rw [ofObject]
    split
    · exact .mapM (refuses_ofMember raw) _
    · exact .error rfl
  · exact (refuses_ofWire raw).map _

theorem refuses_ofEntries (entries : List String) : Refuses (ofEntries entries) := by
  induction entries with
  | nil => exact .ok []
  | cons raw rest ih => exact (refuses_ofEntry raw).bind fun fs => ih.bind fun gs => .ok (fs ++ gs)

end Filter

/-! ## Parts of requests -/

theorem CountKey.refuses_read (key : CountKey) (raw : Option String) : Refuses (key.read raw) := by
  cases raw with
  | none => exact .ok none
  | some raw =>
    rw [read]
    split
    · exact .ok none
    split
    · exact .ok _
    · exact .error rfl

theorem refuses_cellsOfJson (body : Json) : Refuses (cellsOfJson body) := by
  rw [cellsOfJson.eq_def]
  split
  · exact .ok _
  · exact .ok []
  · exact .error rfl

theorem Row.refuses_of (kind : WriteKind) (columns : List String) (values : List Value) :
    Refuses (Row.of kind columns values) := by
  rw [Row.of]
  split
  · exact .error rfl
  split
  · exact .error rfl
  · exact .ok _

theorem Update.refuses_of (table : TableName) (columns : List String) (values : List Value)
    (filters : List Filter) : Refuses (Update.of table columns values filters) := by
  rw [Update.of]
  split
  · exact .error rfl
  refine (Row.refuses_of .update columns values).bind fun row => ?_
  split
  · exact .ok _
  · exact .error rfl

theorem Call.refuses_of (routine : Routine) (args : List Value) :
    Refuses (Call.of routine args) := by
  rw [Call.of]
  split
  · split
    · exact .error rfl
    · exact .ok _
  · exact .error rfl

/-! ## Operations -/

namespace Mapping

variable (m : Mapping) (target : String) (q : Query) (body : Json)

theorem refuses_table : Refuses (m.table target) := by
  rw [table, TableName.of]
  split
  · exact .error rfl
  split
  · exact .error rfl
  · exact .ok _

theorem refuses_read : Refuses (m.read target q) :=
  (m.refuses_table target).bind fun _ => (Filter.refuses_ofEntries _).bind fun _ =>
    (CountKey.refuses_read _ _).bind fun _ => (CountKey.refuses_read _ _).bind fun _ => .ok _

theorem refuses_insert : Refuses (m.insert target body) :=
  (m.refuses_table target).bind fun _ => (refuses_cellsOfJson body).bind fun _ =>
    (Row.refuses_of _ _ _).bind fun _ => .ok _

theorem refuses_writeFilters (kind : WriteKind) : Refuses (m.writeFilters kind q) :=
  (Filter.refuses_ofEntries _).bind fun _ => .check rfl (.ok _)

theorem refuses_update : Refuses (m.update target q body) :=
  (m.refuses_table target).bind fun _ => (m.refuses_writeFilters q .update).bind fun _ =>
    (refuses_cellsOfJson body).bind fun _ =>
      .check rfl ((Update.refuses_of _ _ _ _).bind fun _ => .ok _)

theorem refuses_delete : Refuses (m.delete target q) :=
  (m.refuses_table target).bind fun _ => (m.refuses_writeFilters q .delete).bind fun _ => .ok _

theorem refuses_call (body : RoutineBody) : Refuses (m.call target body) := by
  rw [call]
  exact .check rfl ((Call.refuses_of _ _).bind fun _ => .ok _)

theorem refuses_callJson : Refuses (m.callJson target body) := by
  refine Refuses.bind ?_ fun b => m.refuses_call target b
  cases RoutineBody.ofCall body with
  | error f => exact .error rfl
  | ok b => exact .ok b

theorem refuses_compile (r : Request) : Refuses (m.compile r) := by
  refine Refuses.bind ?_ fun ps => .ok _
  cases r with
  | select s =>
    refine Refuses.bind ?_ fun head => .ok _
    rw [Window.head.eq_def]
    split
    · exact .error rfl
    · exact .ok _
    · exact .ok []
  | insert table row => exact .ok _
  | update u => exact .ok _
  | delete table fs => exact .ok _
  | call k => exact .ok _

end Mapping

end RestSql
