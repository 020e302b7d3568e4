import Mathlib.Data.List.Nodup
import RestSql.Proofs.Sql.Lexeme

/-!
What stands behind the markers of a text. The markers are found by scanning the text without its
quoted identifiers, and each denotes a parameter: by its place among the markers, by its number or
by its name, as its style has it.
-/

namespace RestSql

open RestSql.Text

/-! ## Scanning for markers -/

namespace Convention

variable {c : Convention}

end Convention

/-! ## Filling slots -/

namespace Lexeme

variable {α β γ : Type}

def map (f : α → β) : Lexeme α → Lexeme β
  | ident n => ident n
  | marker a => marker (f a)
  | number n => number n
  | word w => word w
  | sign ch => sign ch

/-- Every slot filled with what it stands for, given how many slots come before it. -/
def fill? (f : Nat → α → Option β) : Nat → List (Lexeme α) → Option (List (Lexeme β))
  | _, [] => some []
  | k, .marker a :: ls => (f k a).bind fun b => (fill? f (k + 1) ls).map (.marker b :: ·)
  | k, .ident n :: ls => (fill? f k ls).map (.ident n :: ·)
  | k, .number n :: ls => (fill? f k ls).map (.number n :: ·)
  | k, .word w :: ls => (fill? f k ls).map (.word w :: ·)
  | k, .sign ch :: ls => (fill? f k ls).map (.sign ch :: ·)

/-- Where every slot stands for something, all of them are filled. -/
theorem fill?_map {f : Nat → α → Option β} {g : γ → α} {v : γ → β} {k : Nat} {ls : List (Lexeme γ)}
    (h : ∀ i a, (slots ls)[i]? = some a → f (k + i) (g a) = some (v a)) :
    fill? f k (ls.map (map g)) = some (ls.map (map v)) := by
  induction ls generalizing k with
  | nil => rfl
  | cons l ls ih =>
    cases l with
    | marker a =>
      -- the rest has one more slot before it
      have ha : f k (g a) = some (v a) := h 0 a rfl
      have hrest := ih (k := k + 1) fun i b hb => by
        have hi := h (i + 1) b hb
        rwa [show k + (i + 1) = k + 1 + i by omega] at hi
      simp [fill?, map, ha, hrest]
    | _ => simp [fill?, map, ih h]

end Lexeme

namespace MarkerStyle

/-- The value that a marker denotes with `k` markers before it: by its place, by its number counted
from one, or by its name. -/
def denoted? (style : MarkerStyle) (params : List Param) (k : Nat) (marker : List Char) :
    Option Value :=
  let label := marker.drop style.opening.length
  match style with
  | positional => params[k]?.map (·.value)
  | dollar | atIndexed =>
    (natural? label).bind fun n => if n = 0 then none else params[n - 1]?.map (·.value)
  | namedAt | namedColon =>
    (params.find? (·.name = some (String.ofList label))).map (·.value)

theorem find?_eq_of_nodup {params : List Param} {p : Param} (h : (params.map (·.name)).Nodup)
    (hp : p ∈ params) : params.find? (·.name = p.name) = some p := by
  induction params with
  | nil => simp at hp
  | cons q params ih =>
    rw [List.map_cons] at h
    obtain ⟨hq, hnodup⟩ := List.nodup_cons.1 h
    rcases List.mem_cons.1 hp with rfl | hp
    · simp
    · have hne : q.name ≠ p.name := fun he => hq (he ▸ List.mem_map_of_mem hp)
      rw [List.find?_cons_of_neg (by simpa using hne)]
      exact ih hnodup hp

/-- A rendered marker denotes the parameter that it was rendered for. Under a named style that takes
names that are apart. -/
theorem denoted?_render {style : MarkerStyle} {params : List Param} {k : Nat} {p : Param}
    (hp : params[k]? = some p)
    (hnamed : style.isNamed = true → p.name ≠ none ∧ (params.map (·.name)).Nodup) :
    style.denoted? params k (style.render (k + 1) (p.name.getD "")).toList = some p.value := by
  have hnumber : ∀ cs, cs = Nat.toDigits 10 (k + 1) →
      ((natural? cs).bind fun n => if n = 0 then none else params[n - 1]?.map (·.value)) =
        some p.value := by
    rintro _ rfl
    simp [natural?_toDigits, hp]
  have hname : style.isNamed = true → ∀ cs, cs = (p.name.getD "").toList →
      (params.find? (·.name = some (String.ofList cs))).map (·.value) = some p.value := by
    rintro hs _ rfl
    obtain ⟨hsome, hnodup⟩ := hnamed hs
    obtain ⟨n, hn⟩ := Option.ne_none_iff_exists'.1 hsome
    have hf := find?_eq_of_nodup hnodup (List.mem_of_getElem? hp)
    rw [hn] at hf
    simp [hn, hf]
  cases style with
  | positional => simp [denoted?, hp]
  | dollar => exact hnumber _ (by simp [render, opening])
  | atIndexed => exact hnumber _ (by simp [render, opening])
  | namedAt => exact hname rfl _ (by simp [render, opening])
  | namedColon => exact hname rfl _ (by simp [render, opening])

end MarkerStyle

/-- The lexemes of a statement's text with the values of its parameters where their markers are. -/
def Statement.resolved? (c : Convention) (s : Statement) : Option (List (Lexeme Value)) :=
  (Lexeme.list? c s.text.toList).bind (Lexeme.fill? (c.markers.denoted? s.params) 0)

end RestSql
