import Mathlib.Logic.Function.Defs
import RestSql.Proofs.Text.Reading
import RestSql.Statement.Basic

/-!
Quoting. Between any two delimiters a quoted text is one token, whatever it holds and whatever
stands behind it: reading accepts exactly what quoting writes, and gives back the text and what
follows. So no two names are quoted alike, by any pair of delimiters or in any dialect.
-/

namespace RestSql

namespace Text.Quoted

variable {opening close : Char} {text name rest : List Char}

/-- What is read was written so, and it ends at the first closing delimiter that stands alone. -/
theorem eq_of_readBody? (h : readBody? close text = some (name, rest)) :
    text = doubled close name ++ close :: rest ∧ ∀ c ∈ rest.head?, c ≠ close := by
  fun_induction readBody? close text generalizing name with
  | case1 => cases h
  | case2 =>
    obtain ⟨rfl, rfl⟩ := Prod.mk.inj (Option.some.inj h)
    exact ⟨rfl, by simp⟩
  | case3 => cases h
  | case4 cs ih =>
    -- two closing delimiters stand for one of the text
    obtain ⟨⟨tail, left⟩, hq, he⟩ := Option.map_eq_some_iff.1 h
    obtain ⟨rfl, rfl⟩ := Prod.mk.inj he
    obtain ⟨rfl, hrest⟩ := ih hq
    exact ⟨by simp [doubled], hrest⟩
  | case5 d cs hd =>
    obtain ⟨rfl, rfl⟩ := Prod.mk.inj (Option.some.inj h)
    exact ⟨rfl, by simpa using hd⟩
  | case6 c d cs hc ih =>
    obtain ⟨⟨tail, left⟩, hq, he⟩ := Option.map_eq_some_iff.1 h
    obtain ⟨rfl, rfl⟩ := Prod.mk.inj he
    obtain ⟨htext, hrest⟩ := ih hq
    exact ⟨by rw [htext, doubled, if_neg hc, List.cons_append], hrest⟩

theorem write_append (opening close : Char) (name rest : List Char) :
    write opening close name ++ rest = opening :: (doubled close name ++ close :: rest) := by
  simp [write]

/-- Reading accepts what writing produces and nothing else. -/
theorem read?_eq_some_iff : read? opening close text = some (name, rest) ↔
    text = write opening close name ++ rest ∧ ∀ c ∈ rest.head?, c ≠ close := by
  rw [write_append]
  constructor
  · intro h
    cases text with
    | nil => cases h
    | cons c cs =>
      rw [read?] at h
      split at h
      · rename_i hc
        obtain ⟨rfl, hrest⟩ := eq_of_readBody? h
        exact ⟨by rw [hc], hrest⟩
      · cases h
  · rintro ⟨rfl, hrest⟩
    rw [read?, if_pos rfl, readBody?_doubled close name rest hrest]

theorem read?_write_append (opening : Char) (name : List Char)
    (hr : ∀ c ∈ rest.head?, c ≠ close) :
    read? opening close (write opening close name ++ rest) = some (name, rest) :=
  read?_eq_some_iff.2 ⟨rfl, hr⟩

theorem write_append_inj {name' rest' : List Char} (hr : ∀ c ∈ rest.head?, c ≠ close)
    (hr' : ∀ c ∈ rest'.head?, c ≠ close)
    (h : write opening close name ++ rest = write opening close name' ++ rest') :
    name = name' ∧ rest = rest' := by
  have hread := read?_write_append opening name hr
  rw [h, read?_write_append opening name' hr'] at hread
  exact Prod.mk.inj (Option.some.inj hread.symm)

theorem write_injective (opening close : Char) : Function.Injective (write opening close) := by
  intro name name' h
  exact (write_append_inj (by simp) (by simp) (congrArg (· ++ []) h)).1

end Text.Quoted

open RestSql.Text

namespace Dialect

theorem toList_quote (d : Dialect) (name : String) : (d.quote name).toList =
    Quoted.write d.delimiters.1 d.delimiters.2 name.toList := String.toList_ofList

theorem quote_injective (d : Dialect) : Function.Injective d.quote := by
  intro name name' h
  have hlist := congrArg String.toList h
  rw [toList_quote, toList_quote] at hlist
  exact String.toList_inj.1 (Quoted.write_injective _ _ hlist)

end Dialect

/-- Between any two delimiters, with anything behind it that does not begin with the closing one, a
quoted name is one token: reading it gives back the name and leaves what follows. Nothing else is
read so, and no two names are quoted alike. In a dialect the delimiters are the dialect's. -/
theorem quoted_reads_back (opening close : Char) :
    (∀ name rest : String, (∀ c ∈ rest.toList.head?, c ≠ close) →
      Quoted.read? opening close (Quoted.write opening close name.toList ++ rest.toList) =
        some (name.toList, rest.toList)) ∧
    (∀ text name rest : List Char, Quoted.read? opening close text = some (name, rest) →
      text = Quoted.write opening close name ++ rest ∧ ∀ c ∈ rest.head?, c ≠ close) ∧
    Function.Injective (Quoted.write opening close) ∧
    ∀ d : Dialect, Function.Injective d.quote ∧
      ∀ name rest : String, (∀ c ∈ rest.toList.head?, c ≠ d.delimiters.2) →
        Quoted.read? d.delimiters.1 d.delimiters.2 (d.quote name ++ rest).toList =
          some (name.toList, rest.toList) := by
  refine ⟨fun name rest hr => Quoted.read?_write_append opening name.toList hr,
    fun text name rest h => Quoted.read?_eq_some_iff.1 h, Quoted.write_injective opening close,
    fun d => ⟨d.quote_injective, fun name rest hr => ?_⟩⟩
  rw [String.toList_append, d.toList_quote]
  exact Quoted.read?_write_append _ _ hr

/-- A name full of closing brackets with a point behind it, and a name that is quoted already. -/
theorem quoted_reads_back_delimiters :
    Quoted.read? '[' ']' "[]]]]x]]].[t]".toList = some ("]]x]".toList, ".[t]".toList) ∧
      Quoted.read? '\x22' '\x22' "\x22\x22\x22a\x22\x22\x22 = ?".toList =
        some ("\x22a\x22".toList, " = ?".toList) :=
  ⟨(quoted_reads_back '[' ']').1 "]]x]" ".[t]" (by simp),
    (quoted_reads_back '\x22' '\x22').1 "\x22a\x22" " = ?" (by simp)⟩

end RestSql
