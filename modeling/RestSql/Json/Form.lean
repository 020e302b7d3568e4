import RestSql.Json.Meaning

/-!
Structures and enumerations in JSON text. A structure is an object or an array with its fields in
order; what an object holds besides its fields has to be well written only. An enumeration is a
name, or an object whose one member is the name with null.
-/

namespace RestSql.Json.Form

open RestSql.Json (Written)

/-- Whether a field has to be there: always, in an array only, or nowhere. -/
inductive Presence
  | required | inArray | optional
deriving DecidableEq, Repr

structure Field where
  name : String
  presence : Presence
deriving DecidableEq, Repr

def namedMembers? (members : List (List Letter × Written)) : Option (List (String × Written)) :=
  members.mapM fun m => (letters m.1).map (·, m.2)

/-- The fields of an object: none twice, and none missing that is required. -/
def ofMembers? (isStrict : Bool) (fields : List Field) (members : List (String × Written)) :
    Option (List (Option Written)) :=
  let known := fun m : String × Written => fields.any (·.name = m.1)
  let names := (members.filter known).map (·.1)
  if !names.Nodup || (isStrict && !members.all known) then none
  else
    fields.mapM fun f =>
      match members.find? (·.1 = f.name) with
      | some m => some (some m.2)
      | none => if f.presence = .required then none else some none

/-- The fields of an array: no more items than fields, and only optional fields missing. -/
def ofItems? (fields : List Field) (items : List Written) : Option (List (Option Written)) :=
  if fields.length < items.length then none
  else
    fields.zipIdx.mapM fun f =>
      match items[f.2]? with
      | some w => some (some w)
      | none => if f.1.presence = .optional then some none else none

/-- What is given for each field. A strict structure holds nothing besides its fields. -/
def fields? (isStrict : Bool) (fields : List Field) : Written → Option (List (Option Written))
  | .object members => (namedMembers? members).bind (ofMembers? isStrict fields)
  | .array items => ofItems? fields items
  | _ => none

def string? : Written → Option String
  | .string ls => letters ls
  | _ => none

def bool? : Written → Option Bool
  | .bool b => some b
  | _ => none

def list? {α : Type} (read? : Written → Option α) : Written → Option (List α)
  | .array items => items.mapM read?
  | _ => none

/-- Null is as good as nothing. -/
def optional? {α : Type} (read? : Written → Option α) : Option Written → Option (Option α)
  | none | some .null => some none
  | some w => (read? w).map some

def named? {α : Type} (ofName? : String → Option α) : Written → Option α
  | .string ls => (letters ls).bind ofName?
  | .object [(ls, .null)] => (letters ls).bind ofName?
  | _ => none

def count? : Written → Option Nat
  | .number n =>
    match n.value? with
    | some (.whole k) => if 0 ≤ k then some k.toNat else none
    | _ => none
  | _ => none

end RestSql.Json.Form
