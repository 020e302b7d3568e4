import Mathlib.Data.List.Perm.Basic
import RestSql.Proofs.Failure
import RestSql.Proofs.Json.Order

/-!
Texts that differ in the order of their members. On any level the members of an object may stand in
another order; as long as no object has two members with one name, the text means the same.
-/

namespace RestSql.Json.Written

/-- The same text but for the order of members, anywhere in it. -/
inductive Reordered : Written → Written → Prop
  | refl (w : Written) : Reordered w w
  | members {ms ns : List (List Letter × Written)} (h : ms.Perm ns) :
    Reordered (.object ms) (.object ns)
  | inItem (before behind : List Written) {w w' : Written} (h : Reordered w w') :
    Reordered (.array (before ++ w :: behind)) (.array (before ++ w' :: behind))
  | inMember (before behind : List (List Letter × Written)) (name : List Letter) {w w' : Written}
    (h : Reordered w w') :
    Reordered (.object (before ++ (name, w) :: behind)) (.object (before ++ (name, w') :: behind))
  | trans {w w' w'' : Written} (h : Reordered w w') (h' : Reordered w' w'') : Reordered w w''

def memberTexts (ms : List (List Letter × Written)) : List String :=
  ms.filterMap fun m => letters m.1

mutual

/-- No object in the text has two members with one name. -/
def isDistinct : Written → Bool
  | .array items => isDistinctItems items
  | .object members => (memberTexts members).Nodup && isDistinctMembers members
  | _ => true

def isDistinctItems : List Written → Bool
  | [] => true
  | w :: ws => isDistinct w && isDistinctItems ws

def isDistinctMembers : List (List Letter × Written) → Bool
  | [] => true
  | (_, w) :: ms => isDistinct w && isDistinctMembers ms

end

variable {w w' : Written} {ws : List Written} {ms ns : List (List Letter × Written)}

/-! ## Lists of items and of members -/

theorem depthItems_eq (ws : List Written) : depthItems ws = (ws.map depth).foldr max 0 := by
  induction ws with
  | nil => rfl
  | cons w ws ih => rw [depthItems, ih, List.map_cons, List.foldr_cons]

theorem depthMembers_eq (ms : List (List Letter × Written)) :
    depthMembers ms = (ms.map (·.2.depth)).foldr max 0 := by
  induction ms with
  | nil => rfl
  | cons m ms ih => rw [depthMembers, ih, List.map_cons, List.foldr_cons]

theorem isDistinctItems_eq (ws : List Written) : isDistinctItems ws = ws.all isDistinct := by
  induction ws with
  | nil => rfl
  | cons w ws ih => rw [isDistinctItems, ih, List.all_cons]

theorem isDistinctMembers_eq (ms : List (List Letter × Written)) :
    isDistinctMembers ms = ms.all (·.2.isDistinct) := by
  induction ms with
  | nil => rfl
  | cons m ms ih => rw [isDistinctMembers, ih, List.all_cons]

theorem meaningItems?_eq (ws : List Written) : meaningItems? ws = ws.mapM meaning? := by
  induction ws with
  | nil => rfl
  | cons w ws ih =>
    rw [meaningItems?, ih, List.mapM_cons]

def memberMeaning? (m : List Letter × Written) : Option (String × Json) := do
  let name ← letters m.1
  let v ← meaning? m.2
  return (name, v)

theorem meaningMembers?_eq (ms : List (List Letter × Written)) :
    meaningMembers? ms = ms.mapM memberMeaning? := by
  induction ms with
  | nil => rfl
  | cons m ms ih =>
    rw [meaningMembers?, ih, List.mapM_cons, memberMeaning?]
    simp only [bind_assoc, pure_bind]

/-! ## Members in another order -/

/-- Names that differ as they are written differ in what is meant. -/
theorem memberTexts_of_meaningMembers? {vs : List (String × Json)}
    (h : meaningMembers? ms = some vs) : memberTexts ms = vs.map (·.1) := by
  have hnames := mapM_eq_some.1 (mapM_letters_of_meaningMembers? h)
  generalize vs.map (·.1) = names at hnames
  clear h
  induction hnames with
  | nil => rfl
  | cons hname _ ih =>
    rw [memberTexts, List.filterMap_cons_some (f := fun m : List Letter × Written => letters m.1)
      hname, ← memberTexts, ih]

/-- The values of members in another order are in another order. -/
theorem exists_meaningMembers?_of_perm {vs : List (String × Json)} (hperm : ms.Perm ns)
    (h : meaningMembers? ns = some vs) : ∃ us, meaningMembers? ms = some us ∧ us.Perm vs := by
  rw [meaningMembers?_eq] at h ⊢
  obtain ⟨us, hus, hus'⟩ := List.perm_comp_forall₂ hperm (mapM_eq_some.1 h)
  exact ⟨us, mapM_eq_some.2 hus, hus'⟩

theorem ordered_perm {us vs : List (String × Json)} (hperm : us.Perm vs)
    (hnodup : (us.map (·.1)).Nodup) : ordered us = ordered vs := by
  have hvs : (ordered vs).Perm vs := foldl_insertMember_perm ((hperm.map _).nodup_iff.1 hnodup)
  exact ordered_eq (hperm.trans hvs.symm) (pairwise_ordered vs)

theorem meaning?_object_of_perm (hperm : ms.Perm ns) (hnodup : (memberTexts ms).Nodup) :
    (Written.object ms).meaning? = (Written.object ns).meaning? := by
  rw [meaning?, meaning?]
  cases hns : meaningMembers? ns with
  | none =>
    cases hms : meaningMembers? ms with
    | none => rfl
    | some us =>
      obtain ⟨vs, hvs, -⟩ := exists_meaningMembers?_of_perm hperm.symm hms
      rw [hns] at hvs
      cases hvs
  | some vs =>
    obtain ⟨us, hus, husvs⟩ := exists_meaningMembers?_of_perm hperm hns
    rw [memberTexts_of_meaningMembers? hus] at hnodup
    rw [hus, Option.map_some, Option.map_some, ordered_perm husvs hnodup]

/-! ## Texts in another order -/

namespace Reordered

theorem exists_object (h : Reordered (.object ms) w') : ∃ ns, w' = .object ns := by
  generalize hw : Written.object ms = w at h
  induction h generalizing ms with
  | refl w => exact ⟨ms, hw.symm⟩
  | members _ => exact ⟨_, rfl⟩
  | inItem before behind _ _ => cases hw
  | inMember before behind name _ _ => exact ⟨_, rfl⟩
  | trans _ _ ih ih' =>
    obtain ⟨ns, rfl⟩ := ih hw
    exact ih' rfl

theorem depth_eq (h : Reordered w w') : w.depth = w'.depth := by
  induction h with
  | refl w => rfl
  | members hperm =>
    rw [depth, depth, depthMembers_eq, depthMembers_eq, (hperm.map _).foldr_eq]
  | inItem before behind _ ih =>
    rw [depth, depth, depthItems_eq, depthItems_eq, List.map_append, List.map_append, List.map_cons,
      List.map_cons, ih]
  | inMember before behind name _ ih =>
    rw [depth, depth, depthMembers_eq, depthMembers_eq, List.map_append, List.map_append,
      List.map_cons, List.map_cons, ih]
  | trans _ _ ih ih' => exact ih.trans ih'

theorem isDistinct_eq (h : Reordered w w') : w.isDistinct = w'.isDistinct := by
  induction h with
  | refl w => rfl
  | @members ms ns hperm =>
    have hnames : (memberTexts ms).Nodup ↔ (memberTexts ns).Nodup :=
      (hperm.filterMap _).nodup_iff
    rw [isDistinct, isDistinct, isDistinctMembers_eq, isDistinctMembers_eq, hperm.all_eq,
      decide_eq_decide.2 hnames]
  | inItem before behind _ ih =>
    rw [isDistinct, isDistinct, isDistinctItems_eq, isDistinctItems_eq, List.all_append,
      List.all_append, List.all_cons, List.all_cons, ih]
  | inMember before behind name _ ih =>
    have hnames : ∀ w : Written, memberTexts (before ++ (name, w) :: behind) =
        memberTexts before ++ (letters name).toList ++ memberTexts behind := by
      intro w
      cases hname : letters name with
      | none => simp [memberTexts, hname]
      | some n => simp [memberTexts, hname]
    rw [isDistinct, isDistinct, isDistinctMembers_eq, isDistinctMembers_eq, hnames, hnames,
      List.all_append, List.all_append, List.all_cons, List.all_cons, ih]
  | trans _ _ ih ih' => exact ih.trans ih'

/-- Without two members of one name in an object, the order of members means nothing. -/
theorem meaning?_eq (h : Reordered w w') (hdistinct : w.isDistinct = true) :
    w.meaning? = w'.meaning? := by
  induction h with
  | refl w => rfl
  | members hperm =>
    rw [isDistinct, Bool.and_eq_true, decide_eq_true_eq] at hdistinct
    exact meaning?_object_of_perm hperm hdistinct.1
  | inItem before behind _ ih =>
    rw [isDistinct, isDistinctItems_eq, List.all_append, List.all_cons] at hdistinct
    simp only [Bool.and_eq_true] at hdistinct
    simp only [meaning?, meaningItems?_eq, List.mapM_append, List.mapM_cons, ih hdistinct.2.1]
  | inMember before behind name _ ih =>
    rw [isDistinct, isDistinctMembers_eq, List.all_append, List.all_cons] at hdistinct
    simp only [Bool.and_eq_true] at hdistinct
    simp only [meaning?, meaningMembers?_eq, List.mapM_append, List.mapM_cons, memberMeaning?,
      ih hdistinct.2.2.1]
  | trans hfirst _ ih ih' => exact (ih hdistinct).trans (ih' (hfirst.isDistinct_eq ▸ hdistinct))

theorem toJson?_eq (h : Reordered w w') (hdistinct : w.isDistinct = true) :
    w.toJson? = w'.toJson? := by
  rw [toJson?, toJson?, h.depth_eq, h.meaning?_eq hdistinct]

end Reordered

theorem Reordered.ofText?_eq {raw raw' : String} (h : Reordered w w')
    (hdistinct : w.isDistinct = true) (hraw : Written.ofText? raw = some w)
    (hraw' : Written.ofText? raw' = some w') : Json.ofText? raw = Json.ofText? raw' := by
  rw [Json.ofText?, Json.ofText?, hraw, hraw', Option.bind_some, Option.bind_some,
    h.toJson?_eq hdistinct]

end RestSql.Json.Written
