import Mathlib.Data.List.Induction
import Mathlib.Logic.Relation
import RestSql.Proofs.Request.Query
import RestSql.Request.Mapping

/-!
Lists of pairs that say the same. A query is read off the filters in order and off the last pair
with each other key, so lists that agree there are the same to every operation, and they are those
that lead to one another by small changes: a pair with an unknown key is put in or taken out, so is
one that a later pair overrides, and two neighbours with different keys change places.
-/

namespace RestSql

namespace Query

/-- The same filters in the same order, and the same last value for every other key. -/
structure SameSaid (ps qs : List (String × String)) : Prop where
  filters : filterValues ps = filterValues qs
  last : ∀ key ∈ singleKeys, lastValue? key ps = lastValue? key qs

variable {ps qs : List (String × String)}

theorem sameSaid_iff : SameSaid ps qs ↔ ofPairs ps = ofPairs qs := by
  constructor
  · intro h
    refine eq_of_get ?_ fun key hkey => ?_
    · rw [filters_ofPairs, filters_ofPairs, h.filters]
    · rw [get_ofPairs hkey, get_ofPairs hkey, h.last key hkey]
  · intro h
    refine ⟨?_, fun key hkey => ?_⟩
    · rw [← filters_ofPairs, ← filters_ofPairs, h]
    · rw [← get_ofPairs hkey, ← get_ofPairs hkey, h]

/-! ## Small changes -/

inductive Change : List (String × String) → List (String × String) → Prop
  | unknown (before behind : List (String × String)) {key : String} (v : String)
    (hfilters : key ≠ "filters") (hsingle : key ∉ singleKeys) :
    Change (before ++ (key, v) :: behind) (before ++ behind)
  | overridden (before behind : List (String × String)) {key : String} (v : String)
    (hfilters : key ≠ "filters") (hlater : key ∈ behind.map (·.1)) :
    Change (before ++ (key, v) :: behind) (before ++ behind)
  | swap (before behind : List (String × String)) {p p' : String × String} (h : p.1 ≠ p'.1) :
    Change (before ++ p :: p' :: behind) (before ++ p' :: p :: behind)

/-- Small changes one after the other, in either direction. -/
def Changes : List (String × String) → List (String × String) → Prop := Relation.EqvGen Change

theorem filterValues_append (ps qs : List (String × String)) :
    filterValues (ps ++ qs) = filterValues ps ++ filterValues qs := by
  rw [filterValues, List.filter_append, List.map_append]
  rfl

theorem filterValues_cons (p : String × String) (ps : List (String × String)) :
    filterValues (p :: ps) =
      if p.1 = "filters" then p.2 :: filterValues ps else filterValues ps := by
  by_cases h : p.1 = "filters"
  · simp [filterValues, h]
  · simp [filterValues, h]

/-- The pairs behind count first. -/
theorem lastValue?_append (key : String) (ps qs : List (String × String)) :
    lastValue? key (ps ++ qs) = (lastValue? key qs).or (lastValue? key ps) := by
  rw [lastValue?, List.filter_append, List.map_append, List.getLast?_append]
  rfl

theorem lastValue?_cons (key : String) (p : String × String) (ps : List (String × String)) :
    lastValue? key (p :: ps) = (lastValue? key ps).or (if p.1 = key then some p.2 else none) := by
  rw [← List.singleton_append, lastValue?_append]
  by_cases h : p.1 = key
  · simp [lastValue?, h]
  · simp [lastValue?, h]

theorem lastValue?_ne_none {key : String} (h : key ∈ ps.map (·.1)) : lastValue? key ps ≠ none := by
  obtain ⟨p, hp, hkey⟩ := List.mem_map.1 h
  have hmem : p ∈ ps.filter (·.1 = key) := List.mem_filter.2 ⟨hp, by simpa using hkey⟩
  intro hnone
  rw [lastValue?, List.getLast?_eq_none_iff, List.map_eq_nil_iff] at hnone
  rw [hnone] at hmem
  cases hmem

theorem Change.sameSaid (h : Change ps qs) : SameSaid ps qs := by
  cases h with
  | unknown before behind v hfilters hsingle =>
    constructor
    · rw [filterValues_append, filterValues_append, filterValues_cons, if_neg hfilters]
    · intro key hkey
      rw [lastValue?_append, lastValue?_append, lastValue?_cons, if_neg, Option.or_none]
      rintro rfl
      exact hsingle hkey
  | overridden before behind v hfilters hlater =>
    constructor
    · rw [filterValues_append, filterValues_append, filterValues_cons, if_neg hfilters]
    · intro key hkey
      rw [lastValue?_append, lastValue?_append, lastValue?_cons]
      split
      · -- the later pair has a value already
        rename_i heq
        obtain rfl := heq
        obtain ⟨w, hw⟩ := Option.ne_none_iff_exists'.1 (lastValue?_ne_none hlater)
        rw [hw]
        rfl
      · rw [Option.or_none]
  | @swap before behind p p' hne =>
    -- of two different keys one at most is the key that is looked for
    have hone : ∀ key, p.1 = key → p'.1 ≠ key := fun key hp hp' => hne (hp.trans hp'.symm)
    constructor
    · simp only [filterValues_append, filterValues_cons]
      by_cases hp : p.1 = "filters"
      · simp only [if_pos hp, if_neg (hone _ hp)]
      · simp only [if_neg hp]
    · intro key hkey
      simp only [lastValue?_append, lastValue?_cons]
      by_cases hp : p.1 = key
      · simp only [if_pos hp, if_neg (hone _ hp), Option.or_none]
      · simp only [if_neg hp, Option.or_none]

theorem Changes.ofPairs_eq (h : Changes ps qs) : ofPairs ps = ofPairs qs := by
  induction h with
  | rel _ _ hchange => exact sameSaid_iff.1 hchange.sameSaid
  | refl _ => rfl
  | symm _ _ _ ih => exact ih.symm
  | trans _ _ _ _ _ ih ih' => exact ih.trans ih'

/-! ## Back to the parts of the query -/

theorem Change.append_right (h : Change ps qs) (tail : List (String × String)) :
    Change (ps ++ tail) (qs ++ tail) := by
  cases h with
  | unknown before behind v hfilters hsingle =>
    simpa using Change.unknown before (behind ++ tail) v hfilters hsingle
  | @overridden before behind key v hfilters hlater =>
    have hlater' : key ∈ (behind ++ tail).map (·.1) := by
      rw [List.map_append]
      exact List.mem_append_left _ hlater
    simpa using Change.overridden before (behind ++ tail) v hfilters hlater'
  | swap before behind hne => simpa using Change.swap before (behind ++ tail) hne

theorem Changes.append_right (h : Changes ps qs) (tail : List (String × String)) :
    Changes (ps ++ tail) (qs ++ tail) := by
  induction h with
  | rel _ _ hchange => exact .rel _ _ (hchange.append_right tail)
  | refl _ => exact .refl _
  | symm _ _ _ ih => exact .symm _ _ ih
  | trans _ _ _ _ _ ih ih' => exact .trans _ _ _ ih ih'

/-- The last pair moves in front of pairs with other keys. -/
theorem changes_move (before : List (String × String)) {passed : List (String × String)}
    {p : String × String} (h : ∀ p' ∈ passed, p'.1 ≠ p.1) :
    Changes (before ++ passed ++ [p]) (before ++ p :: passed) := by
  induction passed generalizing before with
  | nil =>
    rw [List.append_nil]
    exact .refl _
  | cons p' passed ih =>
    obtain ⟨hne, hrest⟩ := List.forall_mem_cons.1 h
    have hbehind := ih (before ++ [p']) hrest
    simp only [List.append_assoc, List.singleton_append] at hbehind
    simp only [List.append_assoc, List.cons_append]
    exact .trans _ _ _ hbehind (.rel _ _ (.swap before passed hne))

/-- Behind its block a pair takes the place of the one that is there. -/
theorem changes_replace (before behind : List (String × String)) (key v : String)
    (hfilters : key ≠ "filters") (old : Option String) (hbehind : ∀ p ∈ behind, p.1 ≠ key) :
    Changes (before ++ keyed key old.toList ++ behind ++ [(key, v)])
      (before ++ keyed key [v] ++ behind) := by
  have hmove := @changes_move (before ++ keyed key old.toList) behind (key, v) hbehind
  refine .trans _ _ _ hmove ?_
  cases old with
  | none =>
    simp only [Option.toList_none, keyed, List.map_nil, List.append_nil, List.map_cons,
      List.append_assoc, List.singleton_append]
    exact .refl _
  | some w =>
    have hdrop := Change.overridden before ((key, v) :: behind) w hfilters (by simp)
    simp only [Option.toList_some, keyed, List.map_nil, List.map_cons, List.append_assoc,
      List.singleton_append]
    exact .rel _ _ hdrop

/-- One more pair behind the parts of a query leads to the parts of the query with that pair. -/
theorem changes_add (q : Query) (p : String × String) :
    Changes (q.pairs ++ [p]) (q.add p).pairs := by
  obtain ⟨key, v⟩ := p
  by_cases hselect : key = "select"
  · subst hselect
    have h := changes_replace [] (keyed "order" q.order.toList ++ keyed "filters" q.filters ++
      keyed "limit" q.limit.toList ++ keyed "offset" q.offset.toList) "select" v (by decide)
      q.select (by simp +contextual [keyed, or_imp, forall_and])
    simpa [pairs, add] using h
  by_cases horder : key = "order"
  · subst horder
    have h := changes_replace (keyed "select" q.select.toList) (keyed "filters" q.filters ++
      keyed "limit" q.limit.toList ++ keyed "offset" q.offset.toList) "order" v (by decide) q.order
      (by simp +contextual [keyed, or_imp, forall_and])
    simpa [pairs, add] using h
  by_cases hfilters : key = "filters"
  · subst hfilters
    have h := @changes_move (keyed "select" q.select.toList ++ keyed "order" q.order.toList ++
      keyed "filters" q.filters) (keyed "limit" q.limit.toList ++ keyed "offset" q.offset.toList)
      ("filters", v) (by simp +contextual [keyed, or_imp, forall_and])
    simpa [pairs, add, keyed] using h
  by_cases hlimit : key = "limit"
  · subst hlimit
    have h := changes_replace (keyed "select" q.select.toList ++ keyed "order" q.order.toList ++
      keyed "filters" q.filters) (keyed "offset" q.offset.toList) "limit" v (by decide) q.limit
      (by simp [keyed])
    simpa [pairs, add] using h
  by_cases hoffset : key = "offset"
  · subst hoffset
    have h := changes_replace (keyed "select" q.select.toList ++ keyed "order" q.order.toList ++
      keyed "filters" q.filters ++ keyed "limit" q.limit.toList) [] "offset" v (by decide) q.offset
      (by simp)
    simpa [pairs, add] using h
  · have hadd : q.add (key, v) = q := by
      unfold add
      split <;> simp_all
    have hunknown : key ∉ singleKeys := by simp [singleKeys, *]
    have hdrop := Change.unknown q.pairs [] v hfilters hunknown
    rw [List.append_nil] at hdrop
    rw [hadd]
    exact .rel _ _ hdrop

theorem changes_pairs (ps : List (String × String)) : Changes ps (ofPairs ps).pairs := by
  induction ps using List.reverseRecOn with
  | nil => exact .refl _
  | append_singleton ps p ih =>
    have hadd : ofPairs (ps ++ [p]) = (ofPairs ps).add p := by simp [ofPairs]
    rw [hadd]
    exact .trans _ _ _ (ih.append_right [p]) (changes_add (ofPairs ps) p)

/-- Small changes lead from one list to another exactly if they say the same. -/
theorem changes_iff : Changes ps qs ↔ SameSaid ps qs := by
  rw [sameSaid_iff]
  refine ⟨Changes.ofPairs_eq, fun h => ?_⟩
  have hqs := changes_pairs qs
  rw [← h] at hqs
  exact .trans _ _ _ (changes_pairs ps) (.symm _ _ hqs)

end Query

namespace Mapping

open Query (SameSaid Changes filterValues ofPairs)

variable {q q' : Query}

theorem writeFilters_congr (m : Mapping) (kind : WriteKind) (h : q.filters = q'.filters) :
    m.writeFilters kind q = m.writeFilters kind q' := by
  rw [writeFilters, writeFilters, h]

theorem update_congr (m : Mapping) (target : String) (body : Json) (h : q.filters = q'.filters) :
    m.update target q body = m.update target q' body := by
  rw [update, update, m.writeFilters_congr .update h]

theorem delete_congr (m : Mapping) (target : String) (h : q.filters = q'.filters) :
    m.delete target q = m.delete target q' := by
  rw [delete, delete, m.writeFilters_congr .delete h]

/-- A read has the same request or the same failure from any two lists of pairs that say the same,
and a write has it already if their filters are the same. To say the same is to be led to one
another by small changes, however many. -/
theorem pairs_read_by_parts (m : Mapping) (target : String) :
    (∀ ps qs, SameSaid ps qs → m.read target (ofPairs ps) = m.read target (ofPairs qs)) ∧
      (∀ ps qs, filterValues ps = filterValues qs →
        (∀ body, m.update target (ofPairs ps) body = m.update target (ofPairs qs) body) ∧
          m.delete target (ofPairs ps) = m.delete target (ofPairs qs)) ∧
      ∀ ps qs, Changes ps qs ↔ SameSaid ps qs := by
  refine ⟨fun ps qs h => ?_, fun ps qs h => ?_, fun ps qs => Query.changes_iff⟩
  · rw [Query.sameSaid_iff.1 h]
  · have hfilters : (ofPairs ps).filters = (ofPairs qs).filters := by
      rw [Query.filters_ofPairs, Query.filters_ofPairs, h]
    exact ⟨fun body => m.update_congr target body hfilters, m.delete_congr target hfilters⟩

/-- A limit that is overridden, an unknown key and pairs in another order for a read; a limit that
is dropped for an update and a delete. -/
theorem pairs_read_by_parts_mixed :
    let ps := [("filters", "a=eq.1"), ("limit", "5"), ("x", "1"), ("limit", "7"),
      ("filters", "b=lt.2")]
    let qs := [("limit", "7"), ("filters", "a=eq.1"), ("filters", "b=lt.2")]
    let m : Mapping := ⟨.standard, .standard⟩
    SameSaid ps qs ∧ m.read "t" (ofPairs ps) = m.read "t" (ofPairs qs) ∧ Changes ps qs ∧
      filterValues ps = filterValues qs.tail ∧ ¬SameSaid ps qs.tail ∧
      m.update "t" (ofPairs ps) (.object [("c", .null)]) =
        m.update "t" (ofPairs qs.tail) (.object [("c", .null)]) ∧
      m.delete "t" (ofPairs ps) = m.delete "t" (ofPairs qs.tail) := by
  intro ps qs m
  obtain ⟨hread, hwrite, hchanges⟩ := pairs_read_by_parts m "t"
  have hsame : SameSaid ps qs := ⟨by decide, by decide⟩
  have hfilters : filterValues ps = filterValues qs.tail := by decide
  have hother : ¬SameSaid ps qs.tail := fun h =>
    absurd (h.last "limit" (by decide)) (by decide)
  obtain ⟨hupdate, hdelete⟩ := hwrite ps qs.tail hfilters
  exact ⟨hsame, hread ps qs hsame, (hchanges ps qs).2 hsame, hfilters, hother, hupdate _, hdelete⟩

end Mapping

end RestSql
