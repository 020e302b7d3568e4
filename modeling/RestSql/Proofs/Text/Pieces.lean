import Mathlib.Data.List.DropRight
import RestSql.Text.Blank
import RestSql.Text.Split

/-!
Trimming and cutting. A trimmed text is one whose ends are not blank; the pieces of a text are told
apart by its separators, so pieces that hold none can be joined and cut again.
-/

namespace RestSql.Text

/-! ## Blank ends -/

theorem trimEnd_eq_rdropWhile (cs : List Char) : trimEnd cs = cs.rdropWhile isBlank := rfl

theorem head?_trimEnd {c : Char} (hc : isBlank c = false) (cs : List Char) :
    (trimEnd (c :: cs)).head? = some c := by
  rw [trimEnd, List.reverse_cons, List.dropWhile_append]
  split
  · simp [hc]
  · simp

/-- The first character of a trimmed text is the first one that is not blank. -/
theorem head?_trim (cs : List Char) : (trim cs).head? = cs.find? (!isBlank ·) := by
  rw [trim]
  induction cs with
  | nil => rfl
  | cons c cs ih =>
    rw [trimStart, List.dropWhile_cons, List.find?_cons]
    cases hc : isBlank c with
    | true => exact ih
    | false => exact head?_trimEnd hc cs

theorem trim_eq_nil {cs : List Char} : trim cs = [] ↔ cs.all isBlank = true := by
  rw [← List.head?_eq_none_iff, head?_trim, List.find?_eq_none, List.all_eq_true]
  simp

theorem trimmed_eq_empty {s : String} : trimmed s = "" ↔ isBlankText s = true := by
  rw [trimmed, isBlankText, ← trim_eq_nil, ← String.toList_inj, String.toList_ofList]
  rfl

def IsTrimmed (cs : List Char) : Prop :=
  (∀ c ∈ cs.head?, isBlank c = false) ∧ ∀ c ∈ cs.getLast?, isBlank c = false

theorem isTrimmed_trim (cs : List Char) : IsTrimmed (trim cs) := by
  refine ⟨fun c hc => ?_, fun c hc => ?_⟩
  · rw [head?_trim] at hc
    simpa using List.find?_some hc
  · obtain ⟨hne, rfl⟩ := List.mem_getLast?_eq_getLast hc
    exact Bool.eq_false_iff.2 (List.rdropWhile_last_not isBlank (trimStart cs) hne)

theorem trim_eq_self_iff {cs : List Char} : trim cs = cs ↔ IsTrimmed cs := by
  refine ⟨fun h => h ▸ isTrimmed_trim cs, fun ⟨hhead, hlast⟩ => ?_⟩
  have hstart : trimStart cs = cs := by
    cases cs with
    | nil => rfl
    | cons c cs => exact List.dropWhile_cons_of_neg (by simp [hhead c rfl])
  rw [trim, hstart, trimEnd_eq_rdropWhile, List.rdropWhile_eq_self_iff]
  intro hne
  simp [hlast _ (List.getLast_mem_getLast? hne)]

theorem trim_trim (cs : List Char) : trim (trim cs) = trim cs :=
  trim_eq_self_iff.2 (isTrimmed_trim cs)

theorem exists_blank_ends (cs : List Char) : ∃ a b : List Char, cs = a ++ trim cs ++ b ∧
    (∀ c ∈ a, isBlank c = true) ∧ ∀ c ∈ b, isBlank c = true := by
  have hend : ∀ ds : List Char,
      ds = trimEnd ds ++ (ds.reverse.takeWhile isBlank).reverse := by
    intro ds
    rw [trimEnd, ← List.reverse_append, List.takeWhile_append_dropWhile, List.reverse_reverse]
  refine ⟨cs.takeWhile isBlank, ((trimStart cs).reverse.takeWhile isBlank).reverse, ?_,
    fun c hc => List.mem_takeWhile_imp hc,
    fun c hc => List.mem_takeWhile_imp (List.mem_reverse.1 hc)⟩
  rw [List.append_assoc, trim, ← hend, trimStart, List.takeWhile_append_dropWhile]

theorem mem_trim {c : Char} (hc : isBlank c = false) {cs : List Char} : c ∈ trim cs ↔ c ∈ cs := by
  obtain ⟨a, b, hcs, ha, hb⟩ := exists_blank_ends cs
  have hna : c ∉ a := fun h => Bool.false_ne_true (hc.symm.trans (ha c h))
  have hnb : c ∉ b := fun h => Bool.false_ne_true (hc.symm.trans (hb c h))
  conv_rhs => rw [hcs]
  simp [hna, hnb]

theorem trim_blank_append {a : List Char} (h : ∀ c ∈ a, isBlank c = true) (cs : List Char) :
    trim (a ++ cs) = trim cs := by
  rw [trim, trimStart, List.dropWhile_append_of_pos h]
  rfl

theorem trim_append_blank {b : List Char} (h : ∀ c ∈ b, isBlank c = true) (cs : List Char) :
    trim (cs ++ b) = trim cs := by
  have hend : ∀ ds : List Char, trimEnd (ds ++ b) = trimEnd ds := by
    intro ds
    rw [trimEnd, List.reverse_append, List.dropWhile_append_of_pos (by simpa using h)]
    rfl
  rw [trim, trim, trimStart, List.dropWhile_append]
  split
  · rename_i hempty
    rw [trimStart, List.isEmpty_iff.1 hempty, List.dropWhile_eq_nil_iff.2 h]
  · exact hend (trimStart cs)

/-! ## Separators -/

theorem splitOn_eq (sep : Char) (cs : List Char) : splitOn sep cs = cs.splitOn sep := by
  induction cs with
  | nil => rfl
  | cons c cs ih =>
    rw [splitOn, ih, List.splitOn_eq_splitOnP, List.splitOn_eq_splitOnP,
      List.splitOnP_cons_eq_if_modifyHead]
    by_cases hc : c = sep
    · simp [hc]
    · simp only [if_neg hc, beq_iff_eq]
      cases h : List.splitOnP (· == sep) cs with
      | nil => exact absurd (ih.trans h) (splitOn_ne_nil sep cs)
      | cons p ps => rfl

theorem splitOn_append (sep : Char) (a b : List Char) :
    splitOn sep (a ++ sep :: b) = splitOn sep a ++ splitOn sep b := by
  rw [splitOn_eq, splitOn_eq, splitOn_eq, List.splitOn_eq_splitOnP, List.splitOn_eq_splitOnP,
    List.splitOn_eq_splitOnP]
  exact List.splitOnP_append_cons a b (beq_self_eq_true sep)

theorem splitOn_of_notMem {sep : Char} {cs : List Char} (h : sep ∉ cs) :
    splitOn sep cs = [cs] := by
  rw [splitOn_eq, List.splitOn_eq_splitOnP]
  refine List.splitOnP_eq_singleton ?_
  intro c hc
  have hne : c ≠ sep := fun hsep => h (hsep ▸ hc)
  simpa using hne

theorem notMem_of_mem_splitOn {sep : Char} {cs p : List Char} (h : p ∈ splitOn sep cs) :
    sep ∉ p := by
  induction cs generalizing p with
  | nil =>
    obtain rfl := List.mem_singleton.1 h
    exact List.not_mem_nil
  | cons c cs ih =>
    rw [splitOn] at h
    split at h
    · obtain rfl | h := List.mem_cons.1 h
      · exact List.not_mem_nil
      · exact ih h
    · rename_i hc
      cases hpieces : splitOn sep cs with
      | nil => exact absurd hpieces (splitOn_ne_nil sep cs)
      | cons q qs =>
        rw [hpieces] at h ih
        obtain rfl | h := List.mem_cons.1 h
        · have hq := ih List.mem_cons_self
          simp [Ne.symm hc, hq]
        · exact ih (List.mem_cons_of_mem q h)

theorem cutLast?_eq_none {sep : Char} {cs : List Char} (h : sep ∉ cs) :
    cutLast? sep cs = none := by
  induction cs with
  | nil => rfl
  | cons c cs ih =>
    obtain ⟨hc, hcs⟩ : sep ≠ c ∧ sep ∉ cs := by simpa using h
    rw [cutLast?, ih hcs]
    exact if_neg (Ne.symm hc)

theorem cutLast?_append {sep : Char} {b : List Char} (h : sep ∉ b) (a : List Char) :
    cutLast? sep (a ++ sep :: b) = some (a, b) := by
  induction a with
  | nil => rw [List.nil_append, cutLast?, cutLast?_eq_none h, if_pos rfl]
  | cons c cs ih => rw [List.cons_append, cutLast?, ih]

theorem cutLast?_cases (sep : Char) (cs : List Char) :
    (sep ∉ cs ∧ cutLast? sep cs = none) ∨
      ∃ a b, cs = a ++ sep :: b ∧ sep ∉ b ∧ cutLast? sep cs = some (a, b) := by
  induction cs with
  | nil => exact .inl ⟨List.not_mem_nil, rfl⟩
  | cons c cs ih =>
    obtain ⟨hcs, -⟩ | ⟨a, b, rfl, hb, -⟩ := ih
    · by_cases hc : c = sep
      · subst hc
        exact .inr ⟨[], cs, rfl, hcs, cutLast?_append hcs []⟩
      · have hnone : sep ∉ c :: cs := by simp [Ne.symm hc, hcs]
        exact .inl ⟨hnone, cutLast?_eq_none hnone⟩
    · exact .inr ⟨c :: a, b, rfl, hb, cutLast?_append hb (c :: a)⟩

end RestSql.Text
