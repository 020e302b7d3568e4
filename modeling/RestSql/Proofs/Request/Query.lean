import RestSql.Request.Query

/-!
Queries from pairs. The values of the filter pairs are kept, all of them and in order; of any other
key the last value is kept. So a query is what any pairs say that carry its parts, in whatever order
the keys stand.
-/

namespace RestSql

namespace Query

/-! ## Filters -/

def filterValues (pairs : List (String × String)) : List String :=
  (pairs.filter (·.1 = "filters")).map (·.2)

theorem filters_foldl_add (pairs : List (String × String)) (q : Query) :
    (pairs.foldl add q).filters = q.filters ++ filterValues pairs := by
  induction pairs generalizing q with
  | nil => simp [filterValues]
  | cons pair pairs ih =>
    obtain ⟨key, v⟩ := pair
    rw [List.foldl_cons, ih]
    by_cases hk : key = "filters"
    · subst hk
      simp [add, filterValues]
    · have hadd : (q.add (key, v)).filters = q.filters := by
        unfold add
        split <;> simp_all
      have hvalues : filterValues ((key, v) :: pairs) = filterValues pairs := by
        simp [filterValues, hk]
      rw [hadd, hvalues]

theorem filters_ofPairs (pairs : List (String × String)) :
    (ofPairs pairs).filters = filterValues pairs :=
  filters_foldl_add pairs empty

/-! ## Keys of which the last pair counts -/

def singleKeys : List String := ["select", "order", "limit", "offset"]

def lastValue? (key : String) (pairs : List (String × String)) : Option String :=
  ((pairs.filter (·.1 = key)).map (·.2)).getLast?

/-- What the query has for one of these keys. -/
def get (q : Query) : String → Option String
  | "select" => q.select
  | "order" => q.order
  | "limit" => q.limit
  | "offset" => q.offset
  | _ => none

variable {key : String}

theorem forall_mem_singleKeys {P : String → Prop} : (∀ key ∈ singleKeys, P key) ↔
    P "select" ∧ P "order" ∧ P "limit" ∧ P "offset" := by
  simp [singleKeys]

theorem get_add (hkey : key ∈ singleKeys) (q : Query) (k v : String) :
    (q.add (k, v)).get key = if k = key then some v else q.get key := by
  revert key
  rw [forall_mem_singleKeys]
  unfold add
  split <;> simp_all [get]

theorem get_ofPairs (hkey : key ∈ singleKeys) (pairs : List (String × String)) :
    (ofPairs pairs).get key = lastValue? key pairs := by
  have hfold : ∀ (pairs : List (String × String)) (q : Query),
      (pairs.foldl add q).get key = (lastValue? key pairs).or (q.get key) := by
    intro pairs
    induction pairs with
    | nil => exact fun q => rfl
    | cons pair pairs ih =>
      intro q
      obtain ⟨k, v⟩ := pair
      rw [List.foldl_cons, ih, get_add hkey]
      by_cases hk : k = key
      · rw [if_pos hk, lastValue?, lastValue?, List.filter_cons_of_pos (by simpa using hk),
          List.map_cons, List.getLast?_cons]
        cases ((pairs.filter (·.1 = key)).map (·.2)).getLast? <;> rfl
      · rw [if_neg hk, lastValue?, lastValue?, List.filter_cons_of_neg (by simpa using hk)]
  have hempty : ∀ key ∈ singleKeys, empty.get key = none := by
    rw [forall_mem_singleKeys]
    exact ⟨rfl, rfl, rfl, rfl⟩
  rw [ofPairs, hfold, hempty key hkey, Option.or_none]

theorem eq_of_get {q q' : Query} (hfilters : q.filters = q'.filters)
    (hget : ∀ key ∈ singleKeys, q.get key = q'.get key) : q = q' := by
  obtain ⟨hselect, horder, hlimit, hoffset⟩ := forall_mem_singleKeys.1 hget
  cases q
  cases q'
  simp_all [get]

/-! ## Queries in pairs -/

/-- Pairs that say what the query says: the filters in order, and of any other key last what counts,
or nothing. -/
structure CarriedBy (q : Query) (pairs : List (String × String)) : Prop where
  select : lastValue? "select" pairs = q.select
  order : lastValue? "order" pairs = q.order
  filters : filterValues pairs = q.filters
  limit : lastValue? "limit" pairs = q.limit
  offset : lastValue? "offset" pairs = q.offset

theorem CarriedBy.ofPairs_eq {q : Query} {pairs : List (String × String)} (h : q.CarriedBy pairs) :
    ofPairs pairs = q := by
  refine eq_of_get ((filters_ofPairs pairs).trans h.filters) fun key hkey => ?_
  rw [get_ofPairs hkey]
  revert key
  rw [forall_mem_singleKeys]
  exact ⟨h.select, h.order, h.limit, h.offset⟩

def keyed (key : String) (vs : List String) : List (String × String) := vs.map fun v => (key, v)

def pairs (q : Query) : List (String × String) :=
  keyed "select" q.select.toList ++ keyed "order" q.order.toList ++ keyed "filters" q.filters ++
    keyed "limit" q.limit.toList ++ keyed "offset" q.offset.toList

end Query

end RestSql
