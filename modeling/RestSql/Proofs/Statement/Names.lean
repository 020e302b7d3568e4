import RestSql.Proofs.Request.TypedFilters

/-!
The names of parameters under a named marker style. The search for a name tries the base of the hint
and then the base with one suffix after the other; it ends within as many steps as there are names
in use, at the base or at its least free suffix. The names of filters are never suffixed: each
begins with the filter's own position, and the names of assigned columns begin otherwise.
-/

namespace RestSql

open RestSql.Text

namespace Binding

/-! ## The search -/

/-- Where the search stands: the name that is tried, and the suffix for the next one. -/
structure Search where
  name : String
  suffix : Nat

namespace Search

variable {used : List String} {base : String} {position : Nat}

/-- A name in use gives way to the base with the next suffix; at a free one there is no next. -/
def next? (used : List String) (base : String) (s : Search) : Option Search :=
  if s.name ∈ used then some ⟨suffixed base s.suffix, s.suffix + 1⟩ else none

/-- The search goes on for a number of steps and stands still then. -/
inductive EndsIn (used : List String) (base : String) : Nat → Search → Search → Prop
  | free {s : Search} (h : s.next? used base = none) : EndsIn used base 0 s s
  | step {n : Nat} {s t u : Search} (h : s.next? used base = some t)
      (hrest : EndsIn used base n t u) : EndsIn used base (n + 1) s u

theorem next?_of_mem {s : Search} (h : s.name ∈ used) :
    s.next? used base = some ⟨suffixed base s.suffix, s.suffix + 1⟩ := if_pos h

theorem next?_of_notMem {s : Search} (h : s.name ∉ used) : s.next? used base = none := if_neg h

theorem EndsIn.unique {m n : Nat} {s t u : Search} (ht : EndsIn used base m s t)
    (hu : EndsIn used base n s u) : m = n ∧ t = u := by
  induction ht generalizing n with
  | free h =>
    cases hu with
    | free => exact ⟨rfl, rfl⟩
    | step h' => rw [h] at h'; cases h'
  | step h hrest ih =>
    cases hu with
    | free h' => rw [h] at h'; cases h'
    | step h' hrest' =>
      obtain rfl := Option.some.inj (h.symm.trans h')
      obtain ⟨rfl, rfl⟩ := ih hrest'
      exact ⟨rfl, rfl⟩

/-- From a suffix that is tried the search goes up to the least free one. -/
theorem endsIn_suffixed {k : Nat} (hk : IsLeast {k | position ≤ k ∧ suffixed base k ∉ used} k)
    (n : Nat) {a : Nat} (ha : position ≤ a) (hn : a + n = k) :
    EndsIn used base n ⟨suffixed base a, a + 1⟩ ⟨suffixed base k, k + 1⟩ := by
  induction n generalizing a with
  | zero =>
    obtain rfl : a = k := hn
    exact .free (next?_of_notMem hk.1.2)
  | succ n ih =>
    have hused : suffixed base a ∈ used := by
      by_contra hfree
      have hle : k ≤ a := hk.2 ⟨ha, hfree⟩
      omega
    have hrest : EndsIn used base n ⟨suffixed base (a + 1), a + 1 + 1⟩ ⟨suffixed base k, k + 1⟩ :=
      ih (by omega) (by omega)
    exact .step (next?_of_mem hused) hrest

theorem base_ne_suffixed (base : String) (k : Nat) : base ≠ suffixed base k := by
  intro h
  have hlength := congrArg (·.toList.length) h
  simp [suffixed] at hlength

/-- The names tried before a free one are apart and in use, so there are no more than names in use.
-/
theorem sub_lt_length {k : Nat} (hbase : base ∈ used)
    (hk : IsLeast {k | position ≤ k ∧ suffixed base k ∉ used} k) :
    k - position < used.length := by
  have hnodup : (base :: (List.range' position (k - position)).map (suffixed base)).Nodup := by
    refine List.nodup_cons.2 ⟨fun hmem => ?_,
      List.Nodup.map (suffixed_injective base) List.nodup_range'⟩
    obtain ⟨j, -, hj⟩ := List.mem_map.1 hmem
    exact base_ne_suffixed base j hj.symm
  have hsubset : base :: (List.range' position (k - position)).map (suffixed base) ⊆ used := by
    refine List.cons_subset.2 ⟨hbase, fun name hname => ?_⟩
    obtain ⟨j, hj, rfl⟩ := List.mem_map.1 hname
    obtain ⟨hlow, hhigh⟩ := List.mem_range'_1.1 hj
    by_contra hfree
    have hle : k ≤ j := hk.2 ⟨hlow, hfree⟩
    omega
  have hlength := (List.subperm_of_subset hnodup hsubset).length_le
  rwa [List.length_cons, List.length_map, List.length_range'] at hlength

/-- The search for a free name ends at the name that is chosen. -/
theorem exists_endsIn (used : List String) (hint : String) (position : Nat) :
    ∃ n s, EndsIn used (baseName hint position) n ⟨baseName hint position, position⟩ s ∧
      n ≤ used.length ∧ s.name = freeName used hint position := by
  by_cases h : baseName hint position ∈ used
  · obtain ⟨k, hname, hk⟩ := exists_freeName_eq h
    have hle : position ≤ k := hk.1.1
    have hrest := endsIn_suffixed hk (k - position) (Nat.le_refl position) (by omega)
    exact ⟨k - position + 1, _, .step (next?_of_mem h) hrest, sub_lt_length h hk, hname.symm⟩
  · exact ⟨0, _, .free (next?_of_notMem h), Nat.zero_le _, (freeName_of_not_mem h).symm⟩

end Search

/-- How a name is chosen for a hint where others are in use: the search ends, within as many steps
as there are names in use and at this name, which is the base or has the least free suffix. -/
structure Chosen (used : List String) (hint : String) (position : Nat) (name : String) : Prop where
  ends : ∃ n s, Search.EndsIn used (baseName hint position) n ⟨baseName hint position, position⟩ s
  bounded : ∀ n s,
    Search.EndsIn used (baseName hint position) n ⟨baseName hint position, position⟩ s →
      n ≤ used.length ∧ s.name = name
  eq_base : baseName hint position ∉ used → name = baseName hint position
  eq_suffixed : baseName hint position ∈ used →
    ∃ k, IsLeast {k | position ≤ k ∧ suffixed (baseName hint position) k ∉ used} k ∧
      name = suffixed (baseName hint position) k
  label : IsLabel name
  fresh : name ∉ used

theorem chosen_freeName (used : List String) (hint : String) (position : Nat) :
    Chosen used hint position (freeName used hint position) where
  ends := by
    obtain ⟨n, s, h, -⟩ := Search.exists_endsIn used hint position
    exact ⟨n, s, h⟩
  bounded := by
    intro n s h
    obtain ⟨m, t, ht, hle, hname⟩ := Search.exists_endsIn used hint position
    obtain ⟨rfl, rfl⟩ := h.unique ht
    exact ⟨hle, hname⟩
  eq_base := freeName_of_not_mem
  eq_suffixed := by
    intro h
    obtain ⟨k, hname, hk⟩ := exists_freeName_eq h
    exact ⟨k, hk, hname⟩
  label := isLabel_freeName used hint position
  fresh := freeName_not_mem used hint position

/-! ## The names of a list of hints -/

def names (ps : List Param) : List String := ps.filterMap (·.name)

theorem map_some_names (used : List String) (position : Nat) (bs : List (String × Value)) :
    (names (named used position bs)).map some = (named used position bs).map (·.name) := by
  induction bs generalizing used position with
  | nil => rfl
  | cons b bs ih => exact congrArg (some _ :: ·) (ih _ _)

theorem length_named (used : List String) (position : Nat) (bs : List (String × Value)) :
    (named used position bs).length = bs.length := by
  simpa using congrArg List.length (map_value_named used position bs)

theorem length_names (used : List String) (position : Nat) (bs : List (String × Value)) :
    (names (named used position bs)).length = bs.length := by
  simpa [length_named] using congrArg List.length (map_some_names used position bs)

theorem names_nodup (bs : List (String × Value)) : (names (named [] 1 bs)).Nodup := by
  have hnodup := (named_nodup [] 1 bs).1
  rw [← map_some_names] at hnodup
  exact List.Nodup.of_map some hnodup

/-- Names are chosen one after the other, and each is in use from then on. -/
theorem named_append (used : List String) (position : Nat) (bs bs' : List (String × Value)) :
    named used position (bs ++ bs') = named used position bs ++
      named ((names (named used position bs)).reverse ++ used) (position + bs.length) bs' := by
  induction bs generalizing used position with
  | nil => rfl
  | cons b bs ih =>
    rw [List.cons_append, named, ih, named]
    simp [names, Nat.add_assoc, Nat.add_comm 1]

theorem freeName_reverse (used : List String) (hint : String) (position : Nat) :
    freeName used.reverse hint position = freeName used hint position := by
  simp [freeName]

end Binding

theorem MarkerStyle.params_append {style : MarkerStyle} (hs : style.isNamed = true)
    (bs : List (String × Value)) (hint : String) (v : Value) (bs' : List (String × Value)) :
    ∃ ps, style.params (bs ++ (hint, v) :: bs') = style.params bs ++
      ⟨some (Binding.freeName (Binding.names (style.params bs)) hint (bs.length + 1)), v⟩ ::
        ps := by
  rw [params, params, if_pos hs, if_pos hs, Binding.named_append, List.append_nil, Binding.named,
    Binding.freeName_reverse, Nat.add_comm 1]
  exact ⟨_, rfl⟩

/-- Among the names of the parameters before it, distinct ones, the name of a parameter is chosen
by the search. -/
theorem MarkerStyle.exists_chosen {style : MarkerStyle} (hs : style.isNamed = true)
    {bs : List (String × Value)} {i : Nat} {hint : String} {v : Value}
    (h : bs[i]? = some (hint, v)) :
    ∃ name, (style.params bs)[i]? = some ⟨some name, v⟩ ∧
      Binding.Chosen (Binding.names ((style.params bs).take i)) hint (i + 1) name ∧
      (Binding.names ((style.params bs).take i)).length = i ∧
      (Binding.names ((style.params bs).take i)).Nodup := by
  obtain ⟨hi, hget⟩ := List.getElem?_eq_some_iff.1 h
  have hsplit : bs = bs.take i ++ (hint, v) :: bs.drop (i + 1) := by
    rw [← hget, List.getElem_cons_drop, List.take_append_drop]
  have hlength : (bs.take i).length = i := List.length_take_of_le (Nat.le_of_lt hi)
  obtain ⟨ps, hps⟩ := MarkerStyle.params_append hs (bs.take i) hint v (bs.drop (i + 1))
  rw [← hsplit, hlength] at hps
  have hbefore : (style.params (bs.take i)).length = i := by rw [style.length_params, hlength]
  have htake : (style.params bs).take i = style.params (bs.take i) := by
    rw [hps, List.take_left' hbefore]
  have hnames : style.params (bs.take i) = Binding.named [] 1 (bs.take i) := by
    rw [params, if_pos hs]
  rw [htake]
  refine ⟨_, ?_, Binding.chosen_freeName _ _ _, ?_, ?_⟩
  · rw [hps, List.getElem?_append_right (by omega), hbefore, Nat.sub_self]
    rfl
  · rw [hnames, Binding.length_names, hlength]
  · rw [hnames]
    exact Binding.names_nodup _

/-! ## The names of filters -/

namespace Binding

/-- Every character that a name cannot hold becomes an underscore. -/
def sanitised (text : String) : String :=
  String.ofList (text.toList.map fun c => if isNameChar c then c else '_')

def filterName (i : Nat) (column : String) : String := "f" ++ toString i ++ "_" ++ sanitised column

theorem sanitised_append (a b : String) : sanitised (a ++ b) = sanitised a ++ sanitised b := by
  simp [sanitised]

theorem sanitised_of_forall {text : String} (h : ∀ c ∈ text.toList, isNameChar c = true) :
    sanitised text = text := by
  have hmap : text.toList.map (fun c => if isNameChar c then c else '_') = text.toList := by
    conv_rhs => rw [← List.map_id text.toList]
    exact List.map_congr_left fun c hc => if_pos (h c hc)
  rw [sanitised, hmap, String.ofList_toList]

/-- A hint that begins with no marker sign is taken as it is, but for characters that names cannot
hold. -/
theorem baseName_of_head {hint : String} {c : Char} (h : hint.toList.head? = some c)
    (hat : c ≠ '@') (hcolon : c ≠ ':') (position : Nat) :
    baseName hint position = sanitised hint := by
  obtain ⟨cs, hcs⟩ := List.head?_eq_some_iff.1 h
  have hdrop : hint.toList.dropWhile (fun c => c == '@' || c == ':') = hint.toList := by
    rw [hcs, List.dropWhile_cons, if_neg (by simp [hat, hcolon])]
  rw [baseName, hdrop]
  simp only [hcs, List.isEmpty_cons, Bool.false_eq_true, if_false]
  rw [sanitised, hcs]

theorem baseName_filter (i : Nat) (column : String) (position : Nat) :
    baseName ("f" ++ toString i ++ "_" ++ column) position = filterName i column := by
  have hdigits : sanitised (toString i) = toString i := sanitised_of_forall fun c hc => by
    rw [toList_toString] at hc
    exact isNameChar_of_isDigit (isDigit_of_mem_toDigits hc)
  rw [baseName_of_head (c := 'f') (by simp) (by decide) (by decide), sanitised_append,
    sanitised_append, sanitised_append, hdigits, filterName]
  rfl

theorem filterName_position {i j : Nat} {a b : String} (h : filterName i a = filterName j b) :
    i = j := by
  have hlist := congrArg String.toList h
  simp only [filterName, String.toList_append, List.append_assoc, List.append_cancel_left_eq]
    at hlist
  have hstops : ∀ rest, StopsAt isDigit ("_".toList ++ rest) := stopsAt_cons rfl
  have hdigits := congrArg (List.takeWhile isDigit) hlist
  rw [toList_toString, toList_toString, takeWhile_run (fun c => isDigit_of_mem_toDigits) (hstops _),
    takeWhile_run (fun c => isDigit_of_mem_toDigits) (hstops _)] at hdigits
  exact toDigits_injective hdigits

theorem head?_freeName (used : List String) (hint : String) (position : Nat) :
    (freeName used hint position).toList.head? = (baseName hint position).toList.head? := by
  by_cases h : baseName hint position ∈ used
  · obtain ⟨k, hk, -⟩ := exists_freeName_eq h
    obtain ⟨c, cs, hcs⟩ := List.exists_cons_of_ne_nil (l := (baseName hint position).toList)
      (by simpa using (isLabel_baseName hint position).1)
    rw [hk, suffixed, String.toList_append, String.toList_append, hcs]
    rfl
  · rw [freeName_of_not_mem h]

/-- Names for hints that begin with a `v` begin so too. -/
theorem head?_of_mem_names {used : List String} {position : Nat} {bs : List (String × Value)}
    (hv : ∀ b ∈ bs, b.1.toList.head? = some 'v') {name : String}
    (h : name ∈ names (named used position bs)) : name.toList.head? = some 'v' := by
  induction bs generalizing used position with
  | nil => cases h
  | cons b bs ih =>
    rcases List.mem_cons.1 h with rfl | h
    · have hb := hv b List.mem_cons_self
      obtain ⟨cs, hcs⟩ := List.head?_eq_some_iff.1 hb
      rw [head?_freeName, baseName_of_head hb (by decide) (by decide), sanitised, hcs,
        String.toList_ofList]
      rfl
    · exact ih (fun b hb => hv b (List.mem_cons_of_mem _ hb)) h

/-- With no name of a filter from this position on in use, no filter's name is suffixed. -/
theorem map_name_named_filters {c : Convention} {used : List String} {position i : Nat}
    {fs : List Filter} (h : ∀ j, i ≤ j → ∀ column, filterName j column ∉ used) :
    (named used position ((fs.zipIdx i).map fun f =>
      ("f" ++ toString f.2 ++ "_" ++ f.1.column, f.1.operand c))).map (·.name) =
      (fs.zipIdx i).map fun f => some (filterName f.2 f.1.column) := by
  induction fs generalizing used position i with
  | nil => rfl
  | cons f fs ih =>
    have hbase := baseName_filter i f.column position
    have hname : freeName used ("f" ++ toString i ++ "_" ++ f.column) position =
        filterName i f.column := by
      rw [freeName_of_not_mem (by rw [hbase]; exact h i (Nat.le_refl i) f.column), hbase]
    rw [List.zipIdx_cons, List.map_cons, List.map_cons, named, hname, List.map_cons]
    congr 1
    -- the name just chosen is that of an earlier position
    refine ih fun j hj column hmem => ?_
    rcases List.mem_cons.1 hmem with hsame | hmem
    · have hposition := filterName_position hsame
      omega
    · exact h j (by omega) column hmem

end Binding

open Binding in
/-- Behind hints that begin with a `v`, as those for assigned columns do, the names of filters are
their own. -/
theorem MarkerStyle.map_name_filters {style : MarkerStyle} (hs : style.isNamed = true)
    (c : Convention) {bs : List (String × Value)} (hv : ∀ b ∈ bs, b.1.toList.head? = some 'v')
    (fs : List Filter) :
    ((style.params (bs ++ Filter.bindings c fs)).drop bs.length).map (·.name) =
      fs.zipIdx.map fun f => some (filterName f.2 f.1.column) := by
  rw [params, if_pos hs, named_append, List.drop_left' (length_named [] 1 bs), Filter.bindings]
  refine map_name_named_filters fun j _ column hmem => ?_
  rw [List.append_nil, List.mem_reverse] at hmem
  have hhead := head?_of_mem_names hv hmem
  simp [filterName] at hhead

namespace Request

theorem name_of_filter {c : Convention} {r : Request} {s : Statement}
    (hn : c.markers.isNamed = true) (h : r.compile c = .ok s) {i : Nat} {f : Filter}
    (hf : r.filters[i]? = some f) :
    (s.params[r.assigned.length + i]?).map (·.name) =
      some (some (Binding.filterName i f.column)) := by
  have hall : ∀ (bs : List (String × Value)) (fs : List Filter), fs[i]? = some f →
      (∀ b ∈ bs, b.1.toList.head? = some 'v') →
      ((c.markers.params (bs ++ Filter.bindings c fs))[bs.length + i]?).map (·.name) =
        some (some (Binding.filterName i f.column)) := by
    intro bs fs hfs hv
    have hnames := congrArg (·[i]?) (MarkerStyle.map_name_filters hn c hv fs)
    simpa [hfs] using hnames
  rw [(compile_eq_ok h).1]
  cases r with
  | select sel => exact hall [] sel.filters hf (by simp)
  | update u =>
    have hrow : u.row.bindings.length = u.row.columns.length := by
      rw [Row.bindings, Row.columns, List.length_map, List.length_map]
    rw [assigned, ← hrow]
    refine hall u.row.bindings u.filters hf fun b hb => ?_
    obtain ⟨cell, -, rfl⟩ := List.mem_map.1 hb
    simp
  | delete table fs => exact hall [] fs hf (by simp)
  | _ => cases hf

/-- Under a named style, whatever the hints and the position, the search for a name is over after no
more steps than there are names before, and the name is new and can stand in a marker: it is the
base of the hint where that is free, and else the base with the least free suffix from the position
on. The name of a filter is always its position and its column, never suffixed. -/
theorem names_found {style : MarkerStyle} (hs : style.isNamed = true) :
    (∀ (bs : List (String × Value)) (i : Nat) (hint : String) (v : Value),
      bs[i]? = some (hint, v) → ∃ name, (style.params bs)[i]? = some ⟨some name, v⟩ ∧
        Binding.Chosen (Binding.names ((style.params bs).take i)) hint (i + 1) name ∧
        (Binding.names ((style.params bs).take i)).length = i ∧
        (Binding.names ((style.params bs).take i)).Nodup) ∧
    ∀ (c : Convention) (r : Request) (s : Statement), c.markers = style → r.compile c = .ok s →
      ∀ (i : Nat) (f : Filter), r.filters[i]? = some f →
        (s.params[r.assigned.length + i]?).map (·.name) =
          some (some (Binding.filterName i f.column)) := by
  refine ⟨fun bs i hint v h => MarkerStyle.exists_chosen hs h, fun c r s hc h i f hf => ?_⟩
  exact name_of_filter (hc ▸ hs) h hf

/-- A hint that is the suffixed name of another, and columns that make the same name behind values
that do. -/
theorem names_found_suffixed :
    let bs : List (String × Value) :=
      [("v_a-b", .int 1), ("v_a b", .int 2), ("v_a_b_2", .int 3)]
    let u : Update := ⟨⟨"dbo", "t"⟩,
      ⟨[("a-b", .int 1), ("a b", .int 2)], by decide, by decide⟩,
      [⟨"a-b", .eq, "1"⟩, ⟨"a b", .eq, "2"⟩], by decide⟩
    (MarkerStyle.namedAt.params bs)[2]? = some ⟨some "v_a_b_2_3", .int 3⟩ ∧
      Binding.Chosen ["v_a_b", "v_a_b_2"] "v_a_b_2" 3 "v_a_b_2_3" ∧
      ∃ s, compile { Convention.standard with markers := .namedAt } (.update u) = .ok s ∧
        (s.params[3]?).map (·.name) = some (some "f1_a_b") := by
  intro bs u
  obtain ⟨hchosen, hfilter⟩ := @names_found .namedAt rfl
  obtain ⟨name, hname, hsearch, -, -⟩ := hchosen bs 2 "v_a_b_2" (.int 3) rfl
  obtain rfl : "v_a_b_2_3" = name := by
    have hparam : (MarkerStyle.namedAt.params bs)[2]? = some ⟨some "v_a_b_2_3", .int 3⟩ := rfl
    simpa using hparam.symm.trans hname
  exact ⟨hname, hsearch, _, rfl, hfilter _ (.update u) _ rfl rfl 1 ⟨"a b", .eq, "2"⟩ rfl⟩

end Request

end RestSql
