import Mathlib.Data.List.Nodup
import Mathlib.Data.List.Perm.Subperm
import Mathlib.Order.Bounds.Defs
import RestSql.Proofs.Statement.Split

/-!
The parameters of a request. Under a named marker style every parameter has a name of name
characters, and no two share one; under any other style none has a name. The values are those of the
bindings, in order.
-/

namespace RestSql

open RestSql.Text

namespace Binding

/-! ## Free names -/

/-- A name that a marker can hold. -/
def IsLabel (name : String) : Prop := name ≠ "" ∧ ∀ ch ∈ name.toList, isNameChar ch = true

def suffixed (base : String) (k : Nat) : String := base ++ "_" ++ toString k

theorem suffixed_injective (base : String) : Function.Injective (suffixed base) := by
  intro a b h
  have hl := congrArg String.toList h
  simp only [suffixed, String.toList_append, List.append_cancel_left_eq] at hl
  rw [toList_toString, toList_toString] at hl
  exact toDigits_injective hl

theorem freeName_of_mem {used : List String} {hint : String} {position : Nat}
    (h : baseName hint position ∈ used) :
    freeName used hint position =
      (((List.range' position (used.length + 1)).map (suffixed (baseName hint position))).find?
        (· ∉ used)).getD (baseName hint position) := by
  rw [freeName]
  simp only [if_pos h]
  rfl

theorem freeName_of_not_mem {used : List String} {hint : String} {position : Nat}
    (h : baseName hint position ∉ used) : freeName used hint position = baseName hint position := by
  rw [freeName]
  simp only [if_neg h]

/-- Among one more suffixes than there are names in use, one is free. -/
theorem exists_free (used : List String) (base : String) (position : Nat) :
    ∃ name ∈ (List.range' position (used.length + 1)).map (suffixed base), name ∉ used := by
  by_contra! hall
  -- the suffixed names are apart, so all of them in use would be more than there are
  have hnodup : ((List.range' position (used.length + 1)).map (suffixed base)).Nodup :=
    List.Nodup.map (suffixed_injective base) (List.nodup_range')
  have hlength := (List.subperm_of_subset hnodup hall).length_le
  rw [List.length_map, List.length_range'] at hlength
  omega

theorem exists_freeName_eq {used : List String} {hint : String} {position : Nat}
    (h : baseName hint position ∈ used) :
    ∃ k, freeName used hint position = suffixed (baseName hint position) k ∧
      IsLeast {k | position ≤ k ∧ suffixed (baseName hint position) k ∉ used} k := by
  rw [freeName_of_mem h, List.find?_map]
  cases hf : (List.range' position (used.length + 1)).find?
      ((· ∉ used) ∘ suffixed (baseName hint position)) with
  | none =>
    obtain ⟨name, hmem, hfree⟩ := exists_free used (baseName hint position) position
    obtain ⟨k, hk, rfl⟩ := List.mem_map.1 hmem
    exact absurd hfree (by simpa using List.find?_eq_none.1 hf k hk)
  | some k =>
    obtain ⟨hnew, hrange, hleast⟩ := List.find?_range'_eq_some.1 hf
    refine ⟨k, rfl, ⟨(List.mem_range'_1.1 hrange).1, by simpa using hnew⟩, fun j hj => ?_⟩
    by_contra hlt
    exact hj.2 (by simpa using hleast j hj.1 (by omega))

theorem freeName_not_mem (used : List String) (hint : String) (position : Nat) :
    freeName used hint position ∉ used := by
  by_cases h : baseName hint position ∈ used
  · obtain ⟨k, hk, hnew, -⟩ := exists_freeName_eq h
    rw [hk]
    exact hnew.2
  · rwa [freeName_of_not_mem h]

theorem isNameChar_of_isDigit {ch : Char} (h : isDigit ch = true) : isNameChar ch = true := by
  simp only [isDigit, isNameChar] at h ⊢
  simp [h]

theorem isLabel_baseName (hint : String) (position : Nat) : IsLabel (baseName hint position) := by
  rw [baseName]
  split
  · refine ⟨by simp [← String.toList_inj], fun ch hc => ?_⟩
    rw [String.toList_append, List.mem_append, toList_toString] at hc
    rcases hc with hc | hc
    · obtain rfl : ch = 'p' := by simpa using hc
      decide
    · exact isNameChar_of_isDigit (isDigit_of_mem_toDigits hc)
  · rename_i hne
    refine ⟨fun he => hne ?_, fun ch hc => ?_⟩
    · simpa [← String.toList_inj] using he
    · rw [String.toList_ofList] at hc
      obtain ⟨d, -, rfl⟩ := List.mem_map.1 hc
      split
      · assumption
      · decide

theorem IsLabel.suffixed {base : String} (h : IsLabel base) (k : Nat) :
    IsLabel (suffixed base k) := by
  refine ⟨fun he => ?_, fun ch hc => ?_⟩
  · have hl := congrArg String.toList he
    simp [Binding.suffixed] at hl
  simp only [Binding.suffixed, String.toList_append, List.mem_append, toList_toString] at hc
  rcases hc with (hc | hc) | hc
  · exact h.2 ch hc
  · obtain rfl : ch = '_' := by simpa using hc
    decide
  · exact isNameChar_of_isDigit (isDigit_of_mem_toDigits hc)

theorem isLabel_freeName (used : List String) (hint : String) (position : Nat) :
    IsLabel (freeName used hint position) := by
  have hbase := isLabel_baseName hint position
  by_cases h : baseName hint position ∈ used
  · obtain ⟨k, hk, -⟩ := exists_freeName_eq h
    rw [hk]
    exact hbase.suffixed k
  · rwa [freeName_of_not_mem h]

/-! ## Named parameters -/

theorem map_value_named (used : List String) (position : Nat) (bs : List (String × Value)) :
    (named used position bs).map (·.value) = bs.map (·.2) := by
  induction bs generalizing used position with
  | nil => rfl
  | cons b bs ih => simp [named, ih]

theorem named_labels {used : List String} {position : Nat} {bs : List (String × Value)} {p : Param}
    (h : p ∈ named used position bs) : ∃ n, p.name = some n ∧ IsLabel n := by
  induction bs generalizing used position with
  | nil => simp [named] at h
  | cons b bs ih =>
    rcases List.mem_cons.1 h with rfl | h
    · exact ⟨_, rfl, isLabel_freeName _ _ _⟩
    · exact ih h

theorem named_nodup (used : List String) (position : Nat) (bs : List (String × Value)) :
    ((named used position bs).map (·.name)).Nodup ∧
      ∀ p ∈ named used position bs, ∀ n ∈ used, p.name ≠ some n := by
  induction bs generalizing used position with
  | nil => simp [named]
  | cons b bs ih =>
    -- the name taken here is in use for the rest
    obtain ⟨hnodup, hused⟩ := ih (freeName used b.1 position :: used) (position + 1)
    rw [named]
    refine ⟨List.nodup_cons.2 ⟨fun hmem => ?_, hnodup⟩, List.forall_mem_cons.2 ⟨?_, ?_⟩⟩
    · obtain ⟨p, hp, he⟩ := List.mem_map.1 hmem
      exact hused p hp _ (by simp) he
    · rintro n hn he
      obtain rfl := Option.some.inj he
      exact freeName_not_mem used b.1 position hn
    · exact fun p hp n hn => hused p hp n (by simp [hn])

end Binding

namespace MarkerStyle

theorem map_value_params (style : MarkerStyle) (bs : List (String × Value)) :
    (style.params bs).map (·.value) = bs.map (·.2) := by
  rw [params]
  split
  · exact Binding.map_value_named _ _ _
  · simp

theorem length_params (style : MarkerStyle) (bs : List (String × Value)) :
    (style.params bs).length = bs.length := by
  simpa using congrArg List.length (style.map_value_params bs)

theorem name_params_of_isNamed {style : MarkerStyle} {bs : List (String × Value)} {p : Param}
    (hs : style.isNamed = true) (hp : p ∈ style.params bs) :
    ∃ n, p.name = some n ∧ Binding.IsLabel n := by
  rw [params, if_pos hs] at hp
  exact Binding.named_labels hp

theorem nodup_params_of_isNamed {style : MarkerStyle} (bs : List (String × Value))
    (hs : style.isNamed = true) : ((style.params bs).map (·.name)).Nodup := by
  rw [params, if_pos hs]
  exact (Binding.named_nodup [] 1 bs).1

theorem name_params_of_not_isNamed {style : MarkerStyle} {bs : List (String × Value)} {p : Param}
    (hs : style.isNamed = false) (hp : p ∈ style.params bs) : p.name = none := by
  rw [params, if_neg (by simp [hs])] at hp
  obtain ⟨b, -, rfl⟩ := List.mem_map.1 hp
  rfl

/-- What is rendered for a position is a marker; under a named style its label has to be one. -/
theorem isMarker_render {style : MarkerStyle} (position : Nat) {label : String}
    (h : style.isNamed = true → Binding.IsLabel label) :
    style.IsMarker (style.render position label).toList := by
  have hdigits : ∀ ch ∈ Nat.toDigits 10 position, isDigit ch = true :=
    fun ch hc => isDigit_of_mem_toDigits hc
  have hlabel : style.isNamed = true → label.toList ≠ [] := fun hs he =>
    (h hs).1 (String.toList_inj.1 (by simpa using he))
  cases style with
  | positional => exact ⟨[], by simp [render, opening]⟩
  | dollar =>
    refine ⟨Nat.toDigits 10 position, ?_, hdigits, by simp [Nat.toDigits_ne_nil]⟩
    simp [render, opening]
  | atIndexed =>
    refine ⟨Nat.toDigits 10 position, ?_, hdigits, by simp [Nat.toDigits_ne_nil]⟩
    simp [render, opening]
  | namedAt =>
    refine ⟨label.toList, ?_, (h rfl).2, by simp [hlabel rfl]⟩
    simp [render, opening]
  | namedColon =>
    refine ⟨label.toList, ?_, (h rfl).2, by simp [hlabel rfl]⟩
    simp [render, opening]

end MarkerStyle

theorem Piece.valid_markers (c : Convention) (bs : List (String × Value)) :
    ∀ m ∈ Piece.markers (c.markers.params bs), m.Valid c := by
  intro m hm
  obtain ⟨⟨p, i⟩, hp, rfl⟩ := List.mem_map.1 hm
  apply MarkerStyle.isMarker_render (i + 1)
  intro hs
  obtain ⟨n, hn, hlabel⟩ := MarkerStyle.name_params_of_isNamed hs (List.fst_mem_of_mem_zipIdx hp)
  rwa [hn]

namespace Request

theorem compile_eq_ok {c : Convention} {r : Request} {s : Statement} (h : r.compile c = .ok s) :
    s.params = c.markers.params (r.bindings c) ∧
      ∃ ps, r.pieces c (Piece.markers s.params) = .ok ps ∧ s.text = Piece.render c ps := by
  cases hp : r.pieces c (Piece.markers (c.markers.params (r.bindings c))) with
  | error f => simp [compile, hp, bind, Except.bind] at h
  | ok ps =>
    obtain rfl : ⟨Piece.render c ps, c.markers.params (r.bindings c)⟩ = s := by
      simpa [compile, hp, bind, Except.bind, pure, Except.pure] using h
    exact ⟨rfl, ps, hp, rfl⟩

theorem exists_compile {c : Convention} {r : Request} (h : ∀ s, r ≠ .select s) :
    ∃ s, r.compile c = .ok s := by
  cases r with
  | select s => exact absurd rfl (h s)
  | _ => exact ⟨_, rfl⟩

/-- The lexemes of a compiled request's pieces are the split of the statement's text. -/
theorem isSplit_compile {c : Convention} {r : Request} {s : Statement} {ps : List Piece}
    (h : r.compile c = .ok s) (hp : r.pieces c (Piece.markers s.params) = .ok ps)
    (ht : s.text = Piece.render c ps) :
    Lexeme.IsSplit c s.text.toList (Piece.textLexemes c ps) := by
  rw [ht]
  refine (Request.readable ?_ hp).isSplit
  rw [(compile_eq_ok h).1]
  exact Piece.valid_markers c _

end Request

end RestSql
