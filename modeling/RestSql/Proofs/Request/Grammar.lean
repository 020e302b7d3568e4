import RestSql.Proofs.Json.Order
import RestSql.Proofs.Request.Wire

/-!
The grammar of filter objects. It is stated as relations on JSON values, and reading an object gives
filters exactly where the relations hold. Besides the forms that are documented they admit an entry
that is an array of its operator and its value, and members of an operator that say nothing.
-/

namespace RestSql

/-! ## Operators -/

namespace Operator

def spacedWords (text : String) : List Char := List.intercalate [' '] (Text.words text.toList)

/-- The text spells the operator in SQL, with any blanks between its words and in any ASCII case, or
it is the other spelling of inequality. -/
def IsSql (op : Operator) (text : String) : Prop :=
  (op = neq ∧ spacedWords text = ['!', '=']) ∨ lower op.sql.toList = lower (spacedWords text)

variable {op : Operator} {text : String}

theorem ofSql?_eq_some : ofSql? text = some op ↔ op.IsSql text := by
  have hdef : ofSql? text = if spacedWords text = ['!', '='] then some neq
      else all.find? fun op => lower op.sql.toList = lower (spacedWords text) := rfl
  rw [hdef, IsSql]
  generalize spacedWords text = spelling
  split
  · rename_i hspelling
    subst hspelling
    cases op <;> decide
  · rename_i hspelling
    rw [or_iff_right fun h => hspelling h.2]
    constructor
    · intro h
      simpa using List.find?_some h
    · intro h
      rw [← h]
      cases op <;> rfl

/-- A token that is also SQL text names one operator. -/
theorem ofSql?_token (op : Operator) : ofSql? op.token = none ∨ ofSql? op.token = some op := by
  cases op <;> decide

theorem ofName?_eq_some : (ofToken? text).or (ofSql? text) = some op ↔
    op.token = text ∨ op.IsSql text := by
  rw [Option.or_eq_some_iff, ofSql?_eq_some]
  constructor
  · rintro (h | ⟨-, h⟩)
    · exact .inl (token_of_ofToken? h)
    · exact .inr h
  · rintro (rfl | h)
    · exact .inl (ofToken?_token op)
    · cases htoken : ofToken? text with
      | none => exact .inr ⟨rfl, h⟩
      | some found =>
        obtain rfl := token_of_ofToken? htoken
        rcases ofSql?_token found with hsql | hsql
        · rw [ofSql?_eq_some.2 h] at hsql
          cases hsql
        · rw [ofSql?_eq_some.2 h] at hsql
          exact .inl hsql.symm

end Operator

namespace Filter

/-! ## Entries -/

/-- The value names the operator: it is its token, or an object with a literal that is its token or
its SQL text, and with SQL text of the same operator or without any. Other members say nothing. -/
inductive NamesOperator : Json → Operator → Prop
  | token (op : Operator) : NamesOperator (.string op.token) op
  | literal {members : List (String × Json)} {text : String} {op : Operator}
    (hliteral : ("literal", .string text) ∈ members) (hop : op.token = text ∨ op.IsSql text)
    (hsql : ∀ v, ("sql", v) ∈ members → v = .null ∨ ∃ s, v = .string s ∧ op.IsSql s) :
    NamesOperator (.object members) op

/-- The entry gives an operator and a value: by a member for each and no others, or as an array. -/
inductive EntryOf : Json → Json → Json → Prop
  | object {members : List (String × Json)} {op value : Json}
    (h : members.Perm [("op", op), ("value", value)]) : EntryOf (.object members) op value
  | array (op value : Json) : EntryOf (.array [op, value]) op value

inductive ScalarText : Json → String → Prop
  | string (s : String) : ScalarText (.string s) s
  | number (n : Json.Number) : ScalarText (.number n) n.text
  | bool (b : Bool) : ScalarText (.bool b) (if b then "true" else "false")

inductive ValueText : Json → String → Prop
  | scalar {v : Json} {text : String} (h : ScalarText v text) : ValueText v text
  | array {items : List Json} {texts : List String} (h : List.Forall₂ ScalarText items texts) :
    ValueText (.array items) (String.intercalate "," texts)

def ReadsAs (member : String × Json) (f : Filter) : Prop :=
  member.1 ≠ "" ∧ f.column = member.1 ∧ ∃ op value, EntryOf member.2 op value ∧
    NamesOperator op f.op ∧ ValueText value f.value

/-- The member has the documented form of the filter: its entry is an object of an operator and a
value, and what an object for the operator has is a literal and SQL text. -/
def IsDocumented (member : String × Json) (f : Filter) : Prop :=
  member.1 ≠ "" ∧ f.column = member.1 ∧ ∃ members op value, member.2 = .object members ∧
    members.Perm [("op", op), ("value", value)] ∧ NamesOperator op f.op ∧
    (∀ rest, op = .object rest → ∀ m ∈ rest, m.1 ∈ ["literal", "sql"]) ∧ ValueText value f.value

/-- The value is an object with a member of another name than these. -/
def hasMemberBesides (names : List String) : Json → Bool
  | .object members => members.any fun m => !names.contains m.1
  | _ => false

/-- The entry is an array, or an object whose operator has a member that says nothing. -/
def isLoose : Json → Bool
  | .array _ => true
  | .object members => members.any fun m => m.1 = "op" && hasMemberBesides ["literal", "sql"] m.2
  | _ => false

variable {raw text : String} {v op value entry : Json} {o : Operator}
  {member : String × Json} {f : Filter}

theorem scalarText?_eq_some : scalarText? v = some text ↔ ScalarText v text := by
  constructor
  · intro h
    cases v with
    | string s => obtain rfl := Option.some.inj h; exact .string s
    | number n => obtain rfl := Option.some.inj h; exact .number n
    | bool b => obtain rfl := Option.some.inj h; exact .bool b
    | _ => cases h
  · intro h
    cases h <;> rfl

theorem mapM_scalarText?_eq_some {items : List Json} {texts : List String} :
    items.mapM scalarText? = some texts ↔ List.Forall₂ ScalarText items texts := by
  induction items generalizing texts with
  | nil => simp [eq_comm]
  | cons v vs ih =>
    rw [List.mapM_cons]
    constructor
    · intro h
      obtain ⟨t, ht, h⟩ := Option.bind_eq_some_iff.1 h
      obtain ⟨ts, hts, h⟩ := Option.bind_eq_some_iff.1 h
      obtain rfl := Option.some.inj h
      exact .cons (scalarText?_eq_some.1 ht) (ih.1 hts)
    · rintro (_ | ⟨ht, hts⟩)
      rw [scalarText?_eq_some.2 ht, ih.2 hts]
      rfl

theorem valueText?_eq_some : valueText? v = some text ↔ ValueText v text := by
  constructor
  · intro h
    cases v with
    | array items =>
      obtain ⟨texts, htexts, rfl⟩ := Option.map_eq_some_iff.1 h
      exact .array (mapM_scalarText?_eq_some.1 htexts)
    | _ => exact .scalar (scalarText?_eq_some.1 h)
  · rintro (hscalar | hitems)
    · have htext := scalarText?_eq_some.2 hscalar
      cases hscalar <;> exact htext
    · rw [valueText?, mapM_scalarText?_eq_some.2 hitems, Option.map_some]

theorem resolve_token {t : String} : (OperatorName.token t).resolve = .ok o ↔ o.token = t := by
  constructor
  · exact Operator.ofToken_eq_ok
  · rintro rfl
    exact Operator.ofToken_token o

theorem resolve_literal {sql : Option String} : (OperatorName.literal text sql).resolve = .ok o ↔
    (o.token = text ∨ o.IsSql text) ∧ ∀ s ∈ sql, o.IsSql s := by
  rw [OperatorName.resolve, ← Operator.ofName?_eq_some]
  cases hname : (Operator.ofToken? text).or (Operator.ofSql? text) with
  | none => simp
  | some found =>
    cases sql with
    | none => simp
    | some s =>
      dsimp only
      split
      · rename_i hsql
        rw [Operator.ofSql?_eq_some] at hsql
        constructor
        · intro h
          obtain rfl := Except.ok.inj h
          exact ⟨rfl, fun s' hs' => Option.some.inj hs' ▸ hsql⟩
        · rintro ⟨h, -⟩
          exact congrArg Except.ok (Option.some.inj h)
      · rename_i hsql
        rw [Operator.ofSql?_eq_some] at hsql
        constructor
        · intro h
          cases h
        · rintro ⟨h, hs⟩
          exact absurd (Option.some.inj h ▸ hs s rfl) hsql

theorem exists_operatorName (hv : v.IsMeaning) :
    (∃ name, OperatorName.ofJson? v = some name ∧ name.resolve = .ok o) ↔ NamesOperator v o := by
  cases v with
  | string t =>
    constructor
    · rintro ⟨name, hname, h⟩
      obtain rfl := Option.some.inj hname
      obtain rfl := resolve_token.1 h
      exact .token o
    · rintro (_ | _)
      exact ⟨_, rfl, resolve_token.2 rfl⟩
  | object members =>
    have hfound : ∀ {name value},
        Json.member? members name = some value ↔ (name, value) ∈ members :=
      Json.member?_eq_some hv.object.1
    constructor
    · rintro ⟨name, hname, h⟩
      rw [OperatorName.ofJson?] at hname
      split at hname
      · rename_i text hliteral hsql
        obtain rfl := Option.some.inj hname
        refine .literal (hfound.1 hliteral) (resolve_literal.1 h).1 fun v hv => ?_
        rw [hfound.2 hv] at hsql
        cases hsql
      · rename_i text hliteral hsql
        obtain rfl := Option.some.inj hname
        refine .literal (hfound.1 hliteral) (resolve_literal.1 h).1 fun v hv => .inl ?_
        rw [hfound.2 hv] at hsql
        exact Option.some.inj hsql
      · rename_i text sql hliteral hsql
        obtain rfl := Option.some.inj hname
        obtain ⟨hop, hs⟩ := resolve_literal.1 h
        refine .literal (hfound.1 hliteral) hop fun v hv => .inr ⟨sql, ?_, hs sql rfl⟩
        rw [hfound.2 hv] at hsql
        exact Option.some.inj hsql
      · cases hname
    · rintro (_ | ⟨hliteral, hop, hsql⟩)
      rw [OperatorName.ofJson?, hfound.2 hliteral]
      cases hmember : Json.member? members "sql" with
      | none => exact ⟨_, rfl, resolve_literal.2 ⟨hop, fun s hs => by cases hs⟩⟩
      | some v =>
        rcases hsql v (hfound.1 hmember) with rfl | ⟨s, rfl, hs⟩
        · exact ⟨_, rfl, resolve_literal.2 ⟨hop, fun s hs => by cases hs⟩⟩
        · exact ⟨_, rfl, resolve_literal.2 ⟨hop, fun s' hs' => Option.some.inj hs' ▸ hs⟩⟩
  | _ =>
    constructor
    · rintro ⟨name, hname, -⟩
      cases hname
    · rintro (_ | _)

/-! ## Members -/

/-- Members that stand in order are these two only as they stand here. -/
theorem eq_of_perm_entry {members : List (String × Json)} (hsorted : members.Pairwise (·.1 < ·.1))
    (h : members.Perm [("op", op), ("value", value)]) :
    members = [("op", op), ("value", value)] := by
  have hentry : [("op", op), ("value", value)].Pairwise (·.1 < ·.1) :=
    List.pairwise_pair.2 (show "op" < "value" by decide)
  exact h.eq_of_pairwise (fun a b _ _ hab hba => absurd hab hba.not_gt) hsorted hentry

theorem exists_entryParts (hv : entry.IsMeaning) :
    (∃ name, entryParts? entry = some (name, value) ∧ name.resolve = .ok o) ↔
      ∃ op, EntryOf entry op value ∧ NamesOperator op o := by
  constructor
  · rintro ⟨name, hparts, h⟩
    unfold entryParts? at hparts
    split at hparts
    · rename_i op value'
      obtain ⟨name', hname, heq⟩ := Option.map_eq_some_iff.1 hparts
      obtain ⟨rfl, rfl⟩ := Prod.mk.inj heq
      exact ⟨op, .object (.refl _),
        (exists_operatorName (hv.object.2 _ List.mem_cons_self)).1 ⟨name', hname, h⟩⟩
    · rename_i op value'
      obtain ⟨name', hname, heq⟩ := Option.map_eq_some_iff.1 hparts
      obtain ⟨rfl, rfl⟩ := Prod.mk.inj heq
      exact ⟨op, .array op value',
        (exists_operatorName (hv.array _ List.mem_cons_self)).1 ⟨name', hname, h⟩⟩
    · cases hparts
  · rintro ⟨op, hentry, hop⟩
    cases hentry with
    | object hperm =>
      obtain rfl := eq_of_perm_entry hv.object.1 hperm
      obtain ⟨name, hname, h⟩ :=
        (exists_operatorName (hv.object.2 _ List.mem_cons_self)).2 hop
      exact ⟨name, by simp only [entryParts?, hname, Option.map_some], h⟩
    | array =>
      obtain ⟨name, hname, h⟩ := (exists_operatorName (hv.array _ List.mem_cons_self)).2 hop
      exact ⟨name, by simp only [entryParts?, hname, Option.map_some], h⟩

theorem ofMember_eq_ok (hv : member.2.IsMeaning) :
    ofMember raw member = .ok f ↔ ReadsAs member f := by
  rw [ofMember, ReadsAs]
  split
  · rename_i hempty
    exact ⟨fun h => (by cases h), fun h => absurd hempty h.1⟩
  · rename_i hcolumn
    constructor
    · intro h
      split at h
      · cases h
      · rename_i name value hparts
        obtain ⟨o, ho, h⟩ := ok_of_bind h
        split at h
        · rename_i text htext
          obtain rfl := ok_of_pure h
          obtain ⟨op, hentry, hop⟩ := (exists_entryParts hv).1 ⟨name, hparts, ho⟩
          exact ⟨hcolumn, rfl, op, value, hentry, hop, valueText?_eq_some.1 htext⟩
        · cases h
    · rintro ⟨-, hname, op, value, hentry, hop, htext⟩
      obtain ⟨name, hparts, ho⟩ := (exists_entryParts hv).2 ⟨op, hentry, hop⟩
      rw [hparts]
      dsimp only
      rw [ho, valueText?_eq_some.2 htext, ← hname]
      rfl

theorem hasMemberBesides_eq_false {names : List String} : hasMemberBesides names v = false ↔
    ∀ members, v = .object members → ∀ m ∈ members, m.1 ∈ names := by
  cases v with
  | object members =>
    rw [hasMemberBesides, List.any_eq_false]
    simp
  | _ => simp [hasMemberBesides]

/-- The documented members are those that are read and not loose. -/
theorem isDocumented_iff :
    IsDocumented member f ↔ isLoose member.2 = false ∧ ReadsAs member f := by
  have hany : ∀ {members op value}, members.Perm [("op", op), ("value", value)] →
      isLoose (.object members) = hasMemberBesides ["literal", "sql"] op := by
    intro members op value h
    rw [isLoose, h.any_eq]
    simp
  constructor
  · rintro ⟨hcolumn, hname, members, op, value, hentry, hperm, hop, hknown, htext⟩
    refine ⟨?_, hcolumn, hname, op, value, hentry ▸ .object hperm, hop, htext⟩
    rw [hentry, hany hperm, hasMemberBesides_eq_false]
    exact hknown
  · rintro ⟨hloose, hcolumn, hname, op, value, hentry, hop, htext⟩
    obtain ⟨name, entry⟩ := member
    cases hentry with
    | object hperm =>
      rw [hany hperm, hasMemberBesides_eq_false] at hloose
      exact ⟨hcolumn, hname, _, op, value, rfl, hperm, hop, hloose, htext⟩
    | array => cases hloose

/-! ## Objects -/

def ObjectReadsAs (raw : String) (fs : List Filter) : Prop :=
  ∃ members, Json.ofText? raw = some (.object members) ∧ List.Forall₂ ReadsAs members fs

def ObjectIsDocumented (raw : String) (fs : List Filter) : Prop :=
  ∃ members, Json.ofText? raw = some (.object members) ∧ List.Forall₂ IsDocumented members fs

def hasEntry (p : Json → Bool) (raw : String) : Bool :=
  match Json.ofText? raw with
  | some (.object members) => members.any fun m => p m.2
  | _ => false

theorem hasEntry_eq_false {p : Json → Bool} {members : List (String × Json)}
    (h : Json.ofText? raw = some (.object members)) :
    hasEntry p raw = false ↔ ∀ m ∈ members, p m.2 = false := by
  rw [hasEntry, h, List.any_eq_false]
  simp only [Bool.not_eq_true]

theorem ofObject_eq_ok_iff {fs : List Filter} : ofObject raw = .ok fs ↔ ObjectReadsAs raw fs := by
  rw [ofObject, ObjectReadsAs]
  split
  · rename_i members hread
    have hmeaning := (Json.isMeaning_of_ofText? hread).object.2
    rw [mapM_eq_ok]
    constructor
    · intro h
      refine ⟨members, hread, ?_⟩
      exact ((List.forall₂_and_left _ _).2 ⟨hmeaning, h⟩).imp
        fun m f hm => (ofMember_eq_ok hm.1).1 hm.2
    · rintro ⟨members', hread', h⟩
      obtain rfl : members = members' :=
        Json.object.inj (Option.some.inj (hread.symm.trans hread'))
      exact ((List.forall₂_and_left _ _).2 ⟨hmeaning, h⟩).imp
        fun m f hm => (ofMember_eq_ok hm.1).2 hm.2
  · rename_i hnone
    constructor
    · intro h
      cases h
    · rintro ⟨members, hread, -⟩
      exact absurd hread (hnone members)

theorem objectIsDocumented_iff {fs : List Filter} :
    ObjectIsDocumented raw fs ↔ hasEntry isLoose raw = false ∧ ObjectReadsAs raw fs := by
  constructor
  · rintro ⟨members, hread, h⟩
    obtain ⟨hall, hreads⟩ := (List.forall₂_and_left _ _).1 (h.imp fun m f => isDocumented_iff.1)
    exact ⟨(hasEntry_eq_false hread).2 hall, members, hread, hreads⟩
  · rintro ⟨hnone, members, hread, h⟩
    have hboth := (List.forall₂_and_left _ _).2 ⟨(hasEntry_eq_false hread).1 hnone, h⟩
    exact ⟨members, hread, hboth.imp fun m f => isDocumented_iff.2⟩

/-- One filter for each column, in order of the columns. -/
theorem ObjectReadsAs.pairwise {fs : List Filter} (h : ObjectReadsAs raw fs) :
    fs.Pairwise (·.column < ·.column) := by
  obtain ⟨members, hread, h⟩ := h
  have hsorted := (Json.isMeaning_of_ofText? hread).object.1
  have hcolumns : fs.map (·.column) = members.map (·.1) := by
    rw [← List.forall₂_eq_eq_eq, List.forall₂_map_left_iff, List.forall₂_map_right_iff]
    exact (h.imp fun m f hm => hm.2.1).flip
  have hnames : (members.map (·.1)).Pairwise (· < ·) := List.pairwise_map.2 hsorted
  rw [← hcolumns] at hnames
  exact List.pairwise_map.1 hnames

theorem ObjectReadsAs.hasEntry_eq_false {fs : List Filter} (h : ObjectReadsAs raw fs) :
    hasEntry (hasMemberBesides ["op", "value"]) raw = false := by
  obtain ⟨members, hread, h⟩ := h
  refine (Filter.hasEntry_eq_false hread).2 ?_
  refine ((List.forall₂_and_left _ _).1 (h.imp fun m f hm => ⟨?_, hm⟩)).1
  obtain ⟨-, -, op, value, hentry, -⟩ := hm
  refine hasMemberBesides_eq_false.2 fun ms hms e he => ?_
  rw [hms] at hentry
  cases hentry with
  | object hperm =>
    have hnames := (hperm.map (·.1)).mem_iff.1 (List.mem_map_of_mem he)
    exact hnames

/-- A filter object is read exactly if its members follow the grammar, and gives one filter for each
column, in order of the columns. The grammar has the documented forms and two more, an entry as an
array and a member of an operator that says nothing; so an object is read in the documented form
exactly if it is read and no entry of it is loose. An entry that is an object has no member besides
its operator and its value. -/
theorem objects_read_exactly (raw : String) :
    (∀ fs, ofObject raw = .ok fs ↔ ObjectReadsAs raw fs) ∧
      (∀ fs, ObjectIsDocumented raw fs ↔ ofObject raw = .ok fs ∧ hasEntry isLoose raw = false) ∧
      (∀ fs, ofObject raw = .ok fs → fs.Pairwise (·.column < ·.column)) ∧
      (hasEntry (hasMemberBesides ["op", "value"]) raw = true → ∀ fs, ofObject raw ≠ .ok fs) := by
  refine ⟨fun fs => ofObject_eq_ok_iff, fun fs => ?_, fun fs h => ?_, fun hmember fs h => ?_⟩
  · rw [objectIsDocumented_iff, ofObject_eq_ok_iff, and_comm]
  · exact (ofObject_eq_ok_iff.1 h).pairwise
  · rw [(ofObject_eq_ok_iff.1 h).hasEntry_eq_false] at hmember
    cases hmember

/-- An operator by its SQL text, spelled freely, and an array of values; a third member. -/
theorem objects_read_exactly_spelled :
    let raw := "\x7b\"b\":\x7b\"value\":[1,true,\"x\"],\"op\":\x7b\"literal\":\"not  In\"," ++
      "\"sql\":\" NOT IN\"\x7d\x7d,\"a\":\x7b\"op\":\"eq\",\"value\":2.5\x7d\x7d"
    let fs : List Filter := [⟨"a", .eq, "2.5"⟩, ⟨"b", .notAmong, "1,true,x"⟩]
    let third := "\x7b\"a\":\x7b\"op\":\"eq\",\"value\":1,\"extra\":2\x7d\x7d"
    ofObject raw = .ok fs ∧ ObjectIsDocumented raw fs ∧ fs.Pairwise (·.column < ·.column) ∧
      ∀ gs, ofObject third ≠ .ok gs := by
  intro raw fs third
  have hread : (ofObject raw).toOption = some fs := by decide +kernel
  obtain ⟨-, hdocumented, hsorted, -⟩ := objects_read_exactly raw
  have hok := ok_of_toOption hread
  exact ⟨hok, (hdocumented fs).2 ⟨hok, by decide +kernel⟩, hsorted fs hok,
    (objects_read_exactly third).2.2.2 (by decide +kernel)⟩

/-- An operator with a member that nothing looks at, and an entry as an array, are read. -/
theorem loose_objects_read :
    let silent := "\x7b\"a\":\x7b\"op\":\x7b\"literal\":\"=\",\"extra\":1\x7d,\"value\":1\x7d\x7d"
    let array := "\x7b\"a\":[\"eq\",1]\x7d"
    ∀ raw ∈ [silent, array],
      ofObject raw = .ok [⟨"a", .eq, "1"⟩] ∧ ∀ fs, ¬ObjectIsDocumented raw fs := by
  intro silent array raw hraw
  have hall : ∀ raw ∈ [silent, array],
      (ofObject raw).toOption = some [⟨"a", .eq, "1"⟩] ∧ hasEntry isLoose raw = true := by
    decide +kernel
  obtain ⟨hread, hloose⟩ := hall raw hraw
  refine ⟨ok_of_toOption hread, fun fs h => ?_⟩
  rw [(objectIsDocumented_iff.1 h).1] at hloose
  cases hloose

end Filter

end RestSql
