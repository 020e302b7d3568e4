import RestSql.Proofs.Json.Order
import RestSql.Proofs.Json.Reading
import RestSql.Proofs.Request.Entries
import RestSql.Proofs.Text.Utf8

/-!
Filters given as an object. An object entry says with one member for each column what wire forms
say one by one: in whatever order its members are written, it is read as the wire forms of its
columns in increasing order would be, down to the token that is refused first.
-/

namespace RestSql.Filter

open RestSql.Json (Letter Written letters compact)
open RestSql.Text (isBlank isBlankText)
open RestSql.Text.Utf8 (encode encode_lt_iff)

/-! ## Members -/

namespace Parts

/-- The parts as a member of an object: under the column, an operator and a value, in one order or
in the other. -/
def member (opFirst : Bool) (p : Parts) : String × Json :=
  (p.column, .object (if opFirst then [("op", .string p.token), ("value", .string p.value)]
    else [("value", .string p.value), ("op", .string p.token)]))

/-- A member as it is written, with any spelling of its strings. -/
def WrittenAs (p : Parts) (m : List Letter × Written) : Prop :=
  letters m.1 = some p.column ∧
    ∃ opName op valueName value, letters opName = some "op" ∧ letters op = some p.token ∧
      letters valueName = some "value" ∧ letters value = some p.value ∧
      (m.2 = .object [(opName, .string op), (valueName, .string value)] ∨
        m.2 = .object [(valueName, .string value), (opName, .string op)])

/-- A text of one object, in which the parts are written in the order of the list. -/
def ObjectText (ps : List Parts) (raw : String) : Prop :=
  ∃ ms, Written.ofText? raw = some (.object ms) ∧ List.Forall₂ WrittenAs ps ms

variable {p : Parts} {ps sorted : List Parts}

theorem WrittenAs.meaning? {m : List Letter × Written} (h : p.WrittenAs m) :
    m.2.meaning? = some (p.member true).2 := by
  obtain ⟨-, opName, op, valueName, value, hopName, hop, hvalueName, hvalue, hm⟩ := h
  have hsorted : [("op", Json.string p.token), ("value", Json.string p.value)].Pairwise
      (·.1 < ·.1) := List.pairwise_pair.2 (show "op" < "value" by decide)
  rcases hm with hm | hm
  · simp [hm, Written.meaning?, Written.meaningMembers?, hopName, hop, hvalueName, hvalue, member,
      Json.ordered_eq (.refl _) hsorted]
  · simp [hm, Written.meaning?, Written.meaningMembers?, hopName, hop, hvalueName, hvalue, member,
      Json.ordered_eq (.swap _ _ _) hsorted]

theorem WrittenAs.depth {m : List Letter × Written} (h : p.WrittenAs m) : m.2.depth = 1 := by
  obtain ⟨-, opName, op, valueName, value, -, -, -, -, hm | hm⟩ := h <;> rw [hm] <;> rfl

theorem meaningMembers?_of_writtenAs {ms : List (List Letter × Written)}
    (h : List.Forall₂ WrittenAs ps ms) :
    Written.meaningMembers? ms = some (ps.map (member true)) := by
  induction h with
  | nil => rfl
  | cons hm _ ih =>
    rw [Written.meaningMembers?, hm.1, hm.meaning?, ih]
    rfl

theorem depthMembers_le_of_writtenAs {ms : List (List Letter × Written)}
    (h : List.Forall₂ WrittenAs ps ms) : Written.depthMembers ms ≤ 1 := by
  induction h with
  | nil => exact Nat.zero_le 1
  | cons hm _ ih =>
    rw [Written.depthMembers, hm.depth]
    exact Nat.max_le.2 ⟨Nat.le_refl 1, ih⟩

/-- The object is read with its members in increasing order of the columns. -/
theorem ofText?_of_objectText {raw : String} (h : ObjectText ps raw) (hperm : ps.Perm sorted)
    (hsorted : sorted.Pairwise (·.column < ·.column)) :
    Json.ofText? raw = some (.object (sorted.map (member true))) := by
  obtain ⟨ms, hraw, hms⟩ := h
  have hdepth : (Written.object ms).depth ≤ Written.maxDepth := by
    have := depthMembers_le_of_writtenAs hms
    rw [Written.depth, Written.maxDepth]
    omega
  have hordered : Json.ordered (ps.map (member true)) = sorted.map (member true) :=
    Json.ordered_eq (hperm.map _) (List.pairwise_map.2 hsorted)
  rw [Json.ofText?, hraw, Option.bind_some, Written.toJson?, if_pos hdepth, Written.meaning?,
    meaningMembers?_of_writtenAs hms, Option.map_some, hordered]

theorem ofMember_member (h : p.column ≠ "") (raw : String) :
    ofMember raw (p.member true) = p.read := by
  rw [ofMember, member, if_neg h]
  simp only [if_true, entryParts?, OperatorName.ofJson?, Option.map_some, OperatorName.resolve,
    valueText?, scalarText?, read]
  cases Operator.ofToken p.token <;> rfl

theorem mapM_ofMember (h : ∀ p ∈ ps, p.column ≠ "") (raw : String) :
    (ps.map (member true)).mapM (ofMember raw) = ps.mapM read := by
  induction ps with
  | nil => rfl
  | cons p ps ih =>
    obtain ⟨hp, hps⟩ := List.forall_mem_cons.1 h
    rw [List.map_cons, List.mapM_cons, List.mapM_cons, ofMember_member hp, ih hps]

theorem ofEntry_of_objectText {raw : String} (h : ObjectText ps raw) (hperm : ps.Perm sorted)
    (hsorted : sorted.Pairwise (·.column < ·.column)) (hcolumns : ∀ p ∈ sorted, p.column ≠ "") :
    ofEntry raw = sorted.mapM read := by
  have hobject := ofText?_of_objectText h hperm hsorted
  obtain ⟨ms, hraw, -⟩ := h
  rw [ofEntry_of_brace (Json.find?_of_object hraw), ofObject, hobject]
  exact mapM_ofMember hcolumns raw

/-! ## Compact text -/

theorem exists_writtenAs (opFirst : Bool) (p : Parts) :
    ∃ m, p.WrittenAs m ∧ Json.MemberReadAs (p.member opFirst) m := by
  obtain ⟨column, hcolumn⟩ := Json.exists_spelledBy p.column
  obtain ⟨opName, hopName⟩ := Json.exists_spelledBy "op"
  obtain ⟨op, hop⟩ := Json.exists_spelledBy p.token
  obtain ⟨valueName, hvalueName⟩ := Json.exists_spelledBy "value"
  obtain ⟨value, hvalue⟩ := Json.exists_spelledBy p.value
  have hwritten : ∀ w, (w = .object [(opName, .string op), (valueName, .string value)] ∨
      w = .object [(valueName, .string value), (opName, .string op)]) → p.WrittenAs (column, w) :=
    fun w hw => ⟨hcolumn.1, opName, op, valueName, value, hopName.1, hop.1, hvalueName.1, hvalue.1,
      hw⟩
  have hopRead : Json.MemberReadAs ("op", .string p.token) (opName, .string op) :=
    ⟨hopName, Json.readAs_string hop⟩
  have hvalueRead : Json.MemberReadAs ("value", .string p.value) (valueName, .string value) :=
    ⟨hvalueName, Json.readAs_string hvalue⟩
  cases opFirst with
  | true =>
    exact ⟨_, hwritten _ (.inl rfl), hcolumn,
      Json.readAs_object (.cons hopRead (.cons hvalueRead .nil))⟩
  | false =>
    exact ⟨_, hwritten _ (.inr rfl), hcolumn,
      Json.readAs_object (.cons hvalueRead (.cons hopRead .nil))⟩

theorem objectText_compact (opFirst : Parts → Bool) (ps : List Parts) :
    ObjectText ps (compact (.object (ps.map fun p => p.member (opFirst p)))) := by
  have hmembers : ∃ ms, List.Forall₂ WrittenAs ps ms ∧
      List.Forall₂ Json.MemberReadAs (ps.map fun p => p.member (opFirst p)) ms := by
    induction ps with
    | nil => exact ⟨[], .nil, .nil⟩
    | cons p ps ih =>
      obtain ⟨m, hm, hread⟩ := exists_writtenAs (opFirst p) p
      obtain ⟨ms, hms, hreads⟩ := ih
      exact ⟨m :: ms, .cons hm hms, .cons hread hreads⟩
  obtain ⟨ms, hms, hreads⟩ := hmembers
  exact ⟨ms, Json.ofText?_compact (Json.readAs_object hreads), hms⟩

end Parts

/-! ## Both syntaxes -/

/-- An object and the wire forms of its columns, in the order of their bytes, give the same filters
or are refused for the same token, however the object is written; its compact text is one way to
write it. In a list, entries of both syntaxes and blank ones are read one by one: all filters are
given, in order, or the first entry that is refused decides. -/
theorem objects_agree_with_wires :
    (∀ entries written : List Parts, (∀ p ∈ entries, p.Splits ∧ p.IsPlain) →
      entries.Pairwise (fun p q => encode p.column < encode q.column) → written.Perm entries →
        (∀ raw, Parts.ObjectText written raw →
          ofEntries [raw] = ofEntries (entries.map Parts.wire) ∧
            ((∀ p ∈ entries, ∃ op : Operator, op.token = p.token) →
              ∃ fs, ofEntries [raw] = .ok fs ∧ fs.map parts = entries) ∧
            (∀ before p behind, entries = before ++ p :: behind →
              (∀ q ∈ before, ∃ op : Operator, op.token = q.token) →
              (∀ op : Operator, op.token ≠ p.token) →
              ofEntries [raw] = .error (.unknownOperator p.token))) ∧
        ∀ opFirst : Parts → Bool, Parts.ObjectText written
          (compact (.object (written.map fun p => p.member (opFirst p))))) ∧
      (∀ xs ys hs, ofEntries (xs ++ ys) = .ok hs ↔
        ∃ fs gs, ofEntries xs = .ok fs ∧ ofEntries ys = .ok gs ∧ hs = fs ++ gs) ∧
      (∀ xs ys e, ofEntries (xs ++ ys) = .error e ↔
        ∃ before raw behind, xs ++ ys = before ++ raw :: behind ∧
          (∀ x ∈ before, ∃ fs, ofEntries [x] = .ok fs) ∧ ofEntries [raw] = .error e) ∧
      ∀ raw, isBlankText raw = true → ofEntries [raw] = .ok [] := by
  refine ⟨fun entries written hentries hsorted hperm => ⟨fun raw hraw => ?_, fun opFirst =>
    Parts.objectText_compact opFirst written⟩, fun xs ys hs => ofEntries_append_eq_ok,
    fun xs ys e => ?_, fun raw hblank => ?_⟩
  · have hread : ofEntries [raw] = entries.mapM Parts.read := by
      rw [ofEntries_singleton]
      exact Parts.ofEntry_of_objectText hraw hperm (hsorted.imp encode_lt_iff.1)
        fun p hp => (hentries p hp).1.column_ne
    refine ⟨hread.trans (ofEntries_map_wire hentries).symm, fun htokens => ?_,
      fun before p behind hsplit hbefore hp => ?_⟩
    · rw [hread]
      exact mapM_read_eq_ok htokens
    · rw [hread, hsplit]
      exact mapM_read_eq_error hbefore hp
  · simp only [ofEntries_singleton]
    exact ofEntries_eq_error
  · rw [ofEntries_singleton]
    exact ofEntry_of_blank hblank

/-- Members out of order on both levels, with an escape, of which the first one is refused. -/
theorem objects_agree_with_wires_unsorted :
    let written : List Parts := [⟨"é", "IN", "=\n"⟩, ⟨"B", "in", "1,2"⟩]
    let raw := "\x7b\"é\":\x7b\"value\":\"=\\n\",\"op\":\"IN\"\x7d," ++
      "\"B\":\x7b\"op\":\"in\",\"value\":\"1,2\"\x7d\x7d"
    Parts.ObjectText written raw ∧
      ofEntries [raw] = ofEntries ["B=in.1,2", "é=IN.=\n"] ∧
      ofEntries [raw] = .error (.unknownOperator "IN") := by
  intro written raw
  have hentries : ∀ p ∈ written.reverse, p.Splits ∧ p.IsPlain := by
    have hparts : ∀ p ∈ written.reverse, (p.column ≠ "" ∧ '=' ∉ p.column.toList ∧ p.token ≠ "" ∧
        '=' ∉ p.token.toList ∧ '.' ∉ p.token.toList) ∧
        p.column.toList.find? (!isBlank ·) ≠ some '{' := by
      decide
    intro p hp
    obtain ⟨⟨hcolumn, hfree, htoken, htokenFree⟩, hplain⟩ := hparts p hp
    exact ⟨⟨hcolumn, hfree, htoken, htokenFree⟩, hplain⟩
  have hsorted : written.reverse.Pairwise fun p q => encode p.column < encode q.column := by
    simp only [encode_lt_iff]
    decide
  obtain ⟨hagree, hcompact⟩ := objects_agree_with_wires.1 written.reverse written hentries hsorted
    (List.reverse_perm written).symm
  have hraw : Parts.ObjectText written raw := hcompact fun p => p.column = "B"
  obtain ⟨hwires, -, hrefused⟩ := hagree raw hraw
  refine ⟨hraw, hwires, hrefused [⟨"B", "in", "1,2"⟩] ⟨"é", "IN", "=\n"⟩ [] rfl ?_
    fun op => by cases op <;> decide⟩
  simpa using ⟨Operator.among, rfl⟩

end RestSql.Filter
