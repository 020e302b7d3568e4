import RestSql.Proofs.Request.Wire

/-!
Lists of query entries. The first character of an entry that is not blank says how it is read, and a
list is read entry by entry: the filters of a list put together are those of its parts, and the
first entry that is refused decides about the whole list.
-/

namespace RestSql.Filter

open RestSql.Text

/-! ## One entry -/

theorem ofEntry_of_blank {raw : String} (h : isBlankText raw = true) : ofEntry raw = .ok [] := by
  rw [ofEntry, trim_eq_nil.2 h]

theorem ofEntry_of_brace {raw : String} (h : raw.toList.find? (!isBlank ·) = some '{') :
    ofEntry raw = ofObject raw := by
  rw [← head?_trim] at h
  obtain ⟨rest, hrest⟩ := List.head?_eq_some_iff.1 h
  simp only [ofEntry, hrest]

theorem ofEntry_of_ne_brace {raw : String} {c : Char} (h : raw.toList.find? (!isBlank ·) = some c)
    (hc : c ≠ '{') : ofEntry raw = (ofWire raw).map ([·]) := by
  rw [← head?_trim] at h
  obtain ⟨rest, hrest⟩ := List.head?_eq_some_iff.1 h
  rw [ofEntry, hrest]
  split
  · rename_i hnil
    cases hnil
  · rename_i hbrace
    exact absurd (List.cons.inj hbrace).1 hc
  · rfl

namespace Parts

/-- The column does not begin as an object does. -/
def IsPlain (p : Parts) : Prop := p.column.toList.find? (!isBlank ·) ≠ some '{'

theorem ofEntry_wire_eq_ofWire {p : Parts} (h : p.IsPlain) :
    ofEntry p.wire = (ofWire p.wire).map ([·]) := by
  have hfind : p.wire.toList.find? (!isBlank ·) =
      (p.column.toList.find? (!isBlank ·)).or (some '=') := by
    rw [toList_wire, List.find?_append, List.find?_cons_of_pos (by decide)]
  -- a column of blanks alone leaves the equals sign
  cases hcolumn : p.column.toList.find? (!isBlank ·) with
  | none =>
    rw [hcolumn, Option.none_or] at hfind
    exact ofEntry_of_ne_brace hfind (by decide)
  | some c =>
    rw [hcolumn, Option.some_or] at hfind
    exact ofEntry_of_ne_brace hfind fun hc => h (hc ▸ hcolumn)

theorem ofEntry_wire {p : Parts} (hs : p.Splits) (hp : p.IsPlain) :
    ofEntry p.wire = p.read.map ([·]) := by
  rw [ofEntry_wire_eq_ofWire hp, ofWire_wire hs]

end Parts

/-! ## Lists of entries -/

theorem ofEntries_append (xs ys : List String) :
    ofEntries (xs ++ ys) = (do
      let fs ← ofEntries xs
      let gs ← ofEntries ys
      return fs ++ gs) := by
  induction xs with
  | nil =>
    cases hys : ofEntries ys with
    | error e => simp [hys, ofEntries, bind, Except.bind]
    | ok gs => simp [hys, ofEntries, bind, Except.bind, pure, Except.pure]
  | cons raw xs ih =>
    simp only [List.cons_append, ofEntries, ih, bind_assoc, pure_bind, List.append_assoc]

theorem ofEntries_singleton (raw : String) : ofEntries [raw] = ofEntry raw := by
  rw [ofEntries]
  cases ofEntry raw with
  | error e => rfl
  | ok fs => simp [ofEntries, bind, Except.bind, pure, Except.pure]

theorem ofEntries_append_eq_ok {xs ys : List String} {hs : List Filter} :
    ofEntries (xs ++ ys) = .ok hs ↔
      ∃ fs gs, ofEntries xs = .ok fs ∧ ofEntries ys = .ok gs ∧ hs = fs ++ gs := by
  rw [ofEntries_append]
  refine ⟨fun h => ?_, ?_⟩
  · obtain ⟨fs, hfs, h⟩ := ok_of_bind h
    obtain ⟨gs, hgs, h⟩ := ok_of_bind h
    exact ⟨fs, gs, hfs, hgs, (ok_of_pure h).symm⟩
  · rintro ⟨fs, gs, hfs, hgs, rfl⟩
    rw [hfs, hgs]
    rfl

/-- A list is refused for the first of its entries that is refused. -/
theorem ofEntries_eq_error {xs : List String} {e : Failure} : ofEntries xs = .error e ↔
    ∃ before raw behind, xs = before ++ raw :: behind ∧
      (∀ x ∈ before, ∃ fs, ofEntry x = .ok fs) ∧ ofEntry raw = .error e := by
  refine ⟨fun h => ?_, ?_⟩
  · induction xs with
    | nil => cases h
    | cons raw xs ih =>
      rw [ofEntries] at h
      cases hraw : ofEntry raw with
      | error f =>
        obtain rfl : f = e := by simpa [hraw, bind, Except.bind] using h
        exact ⟨[], raw, xs, rfl, by simp, hraw⟩
      | ok fs =>
        have hxs : ofEntries xs = .error e := by
          cases hxs : ofEntries xs with
          | error f => simpa [hraw, hxs, bind, Except.bind] using h
          | ok gs => simp [hraw, hxs, bind, Except.bind, pure, Except.pure] at h
        obtain ⟨before, bad, behind, rfl, hbefore, hbad⟩ := ih hxs
        exact ⟨raw :: before, bad, behind, rfl, List.forall_mem_cons.2 ⟨⟨fs, hraw⟩, hbefore⟩, hbad⟩
  · rintro ⟨before, raw, behind, rfl, hbefore, hraw⟩
    induction before with
    | nil =>
      rw [List.nil_append, ofEntries, hraw]
      rfl
    | cons x before ih =>
      obtain ⟨⟨fs, hfs⟩, hrest⟩ := List.forall_mem_cons.1 hbefore
      rw [List.cons_append, ofEntries, hfs, ih hrest]
      rfl

theorem exists_ofEntries_eq_error {xs : List String} :
    (∃ e, ofEntries xs = .error e) ↔ ∃ raw ∈ xs, ∃ e, ofEntry raw = .error e := by
  refine ⟨fun ⟨e, h⟩ => ?_, fun ⟨raw, hraw, e, he⟩ => ?_⟩
  · obtain ⟨before, raw, behind, rfl, -, hraw⟩ := ofEntries_eq_error.1 h
    exact ⟨raw, by simp, e, hraw⟩
  · cases h : ofEntries xs with
    | error f => exact ⟨f, rfl⟩
    | ok fs =>
      obtain ⟨before, behind, rfl⟩ := List.append_of_mem hraw
      obtain ⟨-, gs, -, hgs, -⟩ := ofEntries_append_eq_ok.1 h
      obtain ⟨hs, hhs, -⟩ := ok_of_bind hgs
      rw [he] at hhs
      cases hhs

theorem ofEntries_map_wire {ps : List Parts} (h : ∀ p ∈ ps, p.Splits ∧ p.IsPlain) :
    ofEntries (ps.map Parts.wire) = ps.mapM Parts.read := by
  induction ps with
  | nil => rfl
  | cons p ps ih =>
    obtain ⟨⟨hs, hp⟩, hps⟩ := List.forall_mem_cons.1 h
    rw [List.map_cons, ofEntries, Parts.ofEntry_wire hs hp, ih hps, List.mapM_cons]
    cases p.read <;> rfl

/-- With operators throughout, the filters are those whose parts were given. -/
theorem mapM_read_eq_ok {ps : List Parts} (h : ∀ p ∈ ps, ∃ op : Operator, op.token = p.token) :
    ∃ fs, ps.mapM Parts.read = .ok fs ∧ fs.map parts = ps := by
  induction ps with
  | nil => exact ⟨[], rfl, rfl⟩
  | cons p ps ih =>
    obtain ⟨⟨op, hop⟩, hps⟩ := List.forall_mem_cons.1 h
    obtain ⟨fs, hread, hparts⟩ := ih hps
    refine ⟨⟨p.column, op, p.value⟩ :: fs, ?_, ?_⟩
    · rw [List.mapM_cons, Parts.read_of_token hop, hread]
      rfl
    · rw [List.map_cons, hparts, parts, hop]

/-- The first token that no operator bears is the one that is refused. -/
theorem mapM_read_eq_error {before behind : List Parts} {p : Parts}
    (hbefore : ∀ q ∈ before, ∃ op : Operator, op.token = q.token)
    (hp : ∀ op : Operator, op.token ≠ p.token) :
    (before ++ p :: behind).mapM Parts.read = .error (.unknownOperator p.token) := by
  obtain ⟨fs, hread, -⟩ := mapM_read_eq_ok hbefore
  rw [List.mapM_append, hread, List.mapM_cons, Parts.read_of_no_token hp]
  rfl

end RestSql.Filter
