import Mathlib.Data.List.Dedup
import Mathlib.Data.String.Basic
import Mathlib.Tactic.Tauto
import RestSql.Json.Meaning

/-!
The order in which an object holds its members. Members are put in their places one by one, and one
of a name that is there already replaces the other. So the object holds each name once, in
increasing order; if each is given once then nothing is replaced and it holds the given members,
whatever order they were given in. Texts hand over what they have written.
-/

namespace RestSql.Json

variable {name : String} {value : Json} {ms ns : List (String × Json)}

/-! ## Putting one member in its place -/

theorem mem_insertMember {m : String × Json} (h : m ∈ insertMember name value ms) :
    m = (name, value) ∨ m ∈ ms := by
  induction ms with
  | nil => exact .inl (List.mem_singleton.1 h)
  | cons n ms ih =>
    rw [insertMember] at h
    split at h
    · exact List.mem_cons.1 h
    · split at h
      · exact (List.mem_cons.1 h).imp_right (List.mem_cons_of_mem n)
      · rcases List.mem_cons.1 h with rfl | h
        · exact .inr List.mem_cons_self
        · exact (ih h).imp_right (List.mem_cons_of_mem n)

theorem pairwise_insertMember (h : ms.Pairwise (·.1 < ·.1)) :
    (insertMember name value ms).Pairwise (·.1 < ·.1) := by
  induction ms with
  | nil => exact List.pairwise_singleton _ _
  | cons n ms ih =>
    obtain ⟨hn, hms⟩ := List.pairwise_cons.1 h
    rw [insertMember]
    split
    · rename_i hlt
      exact h.cons (List.forall_mem_cons.2 ⟨hlt, fun m hm => hlt.trans (hn m hm)⟩)
    · rename_i hnlt
      split
      · rename_i heq
        exact hms.cons fun m hm => heq ▸ hn m hm
      · rename_i hne
        refine (ih hms).cons fun m hm => ?_
        rcases mem_insertMember hm with rfl | hm
        · exact lt_of_le_of_ne (not_lt.1 hnlt) (Ne.symm hne)
        · exact hn m hm

theorem insertMember_perm (h : name ∉ ms.map (·.1)) :
    (insertMember name value ms).Perm ((name, value) :: ms) := by
  induction ms with
  | nil => exact .refl _
  | cons n ms ih =>
    obtain ⟨hne, hms⟩ : name ≠ n.1 ∧ name ∉ ms.map (·.1) := by
      simpa only [List.map_cons, List.mem_cons, not_or] using h
    rw [insertMember, if_neg hne]
    split
    · exact .refl _
    · exact ((ih hms).cons n).trans (.swap (name, value) n ms)

theorem mem_names_insertMember {n : String} :
    n ∈ (insertMember name value ms).map (·.1) ↔ n = name ∨ n ∈ ms.map (·.1) := by
  induction ms with
  | nil => simp [insertMember]
  | cons m ms ih =>
    rw [insertMember]
    split
    · simp
    · split
      · rename_i heq
        simp [heq]
      · rw [List.map_cons, List.mem_cons, ih, List.map_cons, List.mem_cons]
        exact or_left_comm

/-! ## All members -/

theorem pairwise_foldl_insertMember (hs : ns.Pairwise (·.1 < ·.1)) :
    (ms.foldl (fun ns m => insertMember m.1 m.2 ns) ns).Pairwise (·.1 < ·.1) := by
  induction ms generalizing ns with
  | nil => exact hs
  | cons m ms ih => exact ih (pairwise_insertMember hs)

/-- Members that are given one after the other end up beside those that are there. -/
theorem foldl_insertMember_perm (h : ((ns ++ ms).map (·.1)).Nodup) :
    (ms.foldl (fun ns m => insertMember m.1 m.2 ns) ns).Perm (ns ++ ms) := by
  induction ms generalizing ns with
  | nil => simp
  | cons m ms ih =>
    have hmiddle : (m :: (ns ++ ms)).Perm (ns ++ m :: ms) := List.perm_middle.symm
    obtain ⟨hm, hrest⟩ := List.nodup_cons.1 ((hmiddle.map (·.1)).nodup_iff.2 h)
    have hinsert : (insertMember m.1 m.2 ns).Perm (m :: ns) :=
      insertMember_perm fun hmem => hm (by simpa using Or.inl hmem)
    have hbeside := hinsert.append_right ms
    exact (ih (((hbeside.trans hmiddle).map (·.1)).nodup_iff.2 h)).trans (hbeside.trans hmiddle)

theorem mem_names_foldl_insertMember {n : String} :
    n ∈ (ms.foldl (fun ns m => insertMember m.1 m.2 ns) ns).map (·.1) ↔
      n ∈ ns.map (·.1) ∨ n ∈ ms.map (·.1) := by
  induction ms generalizing ns with
  | nil => simp
  | cons m ms ih =>
    rw [List.foldl_cons, ih, mem_names_insertMember, List.map_cons, List.mem_cons]
    tauto

/-- An object holds its members in increasing order of the names, whatever it is given. -/
theorem pairwise_ordered (ms : List (String × Json)) : (ordered ms).Pairwise (·.1 < ·.1) :=
  pairwise_foldl_insertMember .nil

theorem ordered_eq (h : ms.Perm ns) (hs : ns.Pairwise (·.1 < ·.1)) : ordered ms = ns := by
  have hnodup : (ms.map (·.1)).Nodup :=
    (h.map (·.1)).nodup_iff.2 (List.pairwise_map.2 (hs.imp ne_of_lt))
  have hperm : (ordered ms).Perm ms := foldl_insertMember_perm hnodup
  exact (hperm.trans h).eq_of_pairwise (fun a b _ _ hab hba => absurd hab hba.not_gt)
    (pairwise_ordered ms) hs

/-- Of several members with one name one is left. -/
theorem names_ordered_perm (ms : List (String × Json)) :
    ((ordered ms).map (·.1)).Perm (ms.map (·.1)).dedup := by
  have hnodup : ((ordered ms).map (·.1)).Nodup :=
    List.pairwise_map.2 ((pairwise_ordered ms).imp ne_of_lt)
  refine (List.perm_ext_iff_of_nodup hnodup (List.nodup_dedup _)).2 fun n => ?_
  rw [List.mem_dedup, ordered, mem_names_foldl_insertMember]
  simp

/-! ## Members as they are written -/

def memberNames? (raw : String) : Option (List String) :=
  match Written.ofText? raw with
  | some (.object ws) => ws.mapM fun w => letters w.1
  | _ => none

theorem object_of_memberNames? {raw : String} {names : List String}
    (h : memberNames? raw = some names) : ∃ ws, Written.ofText? raw = some (.object ws) := by
  rw [memberNames?] at h
  split at h
  · rename_i ws hws
    exact ⟨ws, hws⟩
  · cases h

theorem mapM_letters_of_meaningMembers? {ws : List (List Letter × Written)}
    (h : Written.meaningMembers? ws = some ms) :
    ws.mapM (fun w => letters w.1) = some (ms.map (·.1)) := by
  induction ws generalizing ms with
  | nil =>
    obtain rfl := Option.some.inj h
    rfl
  | cons w ws ih =>
    rw [Written.meaningMembers?] at h
    obtain ⟨name, hname, h⟩ := Option.bind_eq_some_iff.1 h
    obtain ⟨v, -, h⟩ := Option.bind_eq_some_iff.1 h
    obtain ⟨rest, hrest, h⟩ := Option.bind_eq_some_iff.1 h
    obtain rfl := Option.some.inj h
    rw [List.mapM_cons, hname, ih hrest]
    rfl

/-- An object means the members that it has written, in order and without repetitions. -/
theorem exists_members_of_object {raw : String} {ws : List (List Letter × Written)} {v : Json}
    (hraw : Written.ofText? raw = some (.object ws)) (hv : ofText? raw = some v) :
    ∃ names ms, memberNames? raw = some names ∧ v = .object ms ∧
      (ms.map (·.1)).Perm names.dedup := by
  rw [ofText?, hraw, Option.bind_some, Written.toJson?] at hv
  split at hv
  · rw [Written.meaning?] at hv
    obtain ⟨ms, hms, rfl⟩ := Option.map_eq_some_iff.1 hv
    refine ⟨_, _, ?_, rfl, names_ordered_perm ms⟩
    simp only [memberNames?, hraw]
    exact mapM_letters_of_meaningMembers? hms
  · cases hv

theorem object_of_ofText? {raw : String} (h : ofText? raw = some (.object ms)) :
    ∃ ws, Written.ofText? raw = some (.object ws) := by
  rw [ofText?] at h
  obtain ⟨w, hraw, hw⟩ := Option.bind_eq_some_iff.1 h
  rw [Written.toJson?] at hw
  split at hw
  · cases w with
    | object ws => exact ⟨ws, hraw⟩
    | _ => simp [Written.meaning?] at hw
  · cases hw

/-! ## Values that were read -/

/-- The value is what some text means, with its objects in order on every level. -/
def IsMeaning (v : Json) : Prop := ∃ w : Written, w.meaning? = some v

theorem isMeaning_of_ofText? {raw : String} {v : Json} (h : ofText? raw = some v) :
    v.IsMeaning := by
  rw [ofText?] at h
  obtain ⟨w, -, hw⟩ := Option.bind_eq_some_iff.1 h
  rw [Written.toJson?] at hw
  split at hw
  · exact ⟨w, hw⟩
  · cases hw

theorem isMeaning_of_meaningMembers? {ws : List (List Letter × Written)}
    (h : Written.meaningMembers? ws = some ms) : ∀ m ∈ ms, m.2.IsMeaning := by
  induction ws generalizing ms with
  | nil =>
    obtain rfl := Option.some.inj h
    simp
  | cons w ws ih =>
    rw [Written.meaningMembers?] at h
    obtain ⟨name, -, h⟩ := Option.bind_eq_some_iff.1 h
    obtain ⟨v, hv, h⟩ := Option.bind_eq_some_iff.1 h
    obtain ⟨rest, hrest, h⟩ := Option.bind_eq_some_iff.1 h
    obtain rfl := Option.some.inj h
    exact List.forall_mem_cons.2 ⟨⟨w.2, hv⟩, ih hrest⟩

theorem isMeaning_of_meaningItems? {ws : List Written} {vs : List Json}
    (h : Written.meaningItems? ws = some vs) : ∀ v ∈ vs, v.IsMeaning := by
  induction ws generalizing vs with
  | nil =>
    obtain rfl := Option.some.inj h
    simp
  | cons w ws ih =>
    rw [Written.meaningItems?] at h
    obtain ⟨v, hv, h⟩ := Option.bind_eq_some_iff.1 h
    obtain ⟨rest, hrest, h⟩ := Option.bind_eq_some_iff.1 h
    obtain rfl := Option.some.inj h
    exact List.forall_mem_cons.2 ⟨⟨w, hv⟩, ih hrest⟩

theorem mem_of_mem_foldl_insertMember {m : String × Json}
    (h : m ∈ ms.foldl (fun ns m => insertMember m.1 m.2 ns) ns) : m ∈ ns ∨ m ∈ ms := by
  induction ms generalizing ns with
  | nil => exact .inl h
  | cons n ms ih =>
    rcases ih h with h | h
    · rcases mem_insertMember h with rfl | h
      · exact .inr List.mem_cons_self
      · exact .inl h
    · exact .inr (List.mem_cons_of_mem n h)

theorem IsMeaning.object (h : (Json.object ms).IsMeaning) :
    ms.Pairwise (·.1 < ·.1) ∧ ∀ m ∈ ms, m.2.IsMeaning := by
  obtain ⟨w, hw⟩ := h
  cases w with
  | object ws =>
    rw [Written.meaning?] at hw
    obtain ⟨ns, hns, heq⟩ := Option.map_eq_some_iff.1 hw
    obtain rfl := Json.object.inj heq
    refine ⟨pairwise_ordered ns, fun m hm => isMeaning_of_meaningMembers? hns m ?_⟩
    rcases mem_of_mem_foldl_insertMember hm with hm | hm
    · cases hm
    · exact hm
  | _ => simp [Written.meaning?] at hw

theorem IsMeaning.array {items : List Json} (h : (Json.array items).IsMeaning) :
    ∀ v ∈ items, v.IsMeaning := by
  obtain ⟨w, hw⟩ := h
  cases w with
  | array ws =>
    rw [Written.meaning?] at hw
    obtain ⟨vs, hvs, heq⟩ := Option.map_eq_some_iff.1 hw
    obtain rfl := Json.array.inj heq
    exact isMeaning_of_meaningItems? hvs
  | _ => simp [Written.meaning?] at hw

/-- Where the names stand in order, a member is found by its name. -/
theorem member?_eq_some (h : ms.Pairwise (·.1 < ·.1)) :
    member? ms name = some value ↔ (name, value) ∈ ms := by
  induction ms with
  | nil => simp [member?]
  | cons m ms ih =>
    obtain ⟨hm, hms⟩ := List.pairwise_cons.1 h
    by_cases hname : m.1 = name
    · have hnot : (name, value) ∉ ms := fun hmem => absurd (hm _ hmem) (by simp [hname])
      rw [member?, List.find?_cons_of_pos (by simpa using hname), Option.map_some,
        Option.some.injEq, List.mem_cons, or_iff_left hnot, Prod.ext_iff]
      exact ⟨fun hv => ⟨hname.symm, hv.symm⟩, fun heq => heq.2.symm⟩
    · have hne : (name, value) ≠ m := fun heq => hname (by rw [← heq])
      rw [member?, List.find?_cons_of_neg (by simpa using hname), ← member?, ih hms,
        List.mem_cons, or_iff_right hne]

/-- As many are left as were given exactly if each is given once. -/
theorem length_eq_iff_of_perm_dedup {names left : List String} (h : left.Perm names.dedup) :
    left.length = names.length ↔ names.Nodup := by
  rw [h.length_eq, ← List.dedup_eq_self]
  exact ⟨(List.dedup_sublist names).eq_of_length, congrArg List.length⟩

end RestSql.Json
