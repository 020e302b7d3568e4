import RestSql.Proofs.Sql.Literal
import RestSql.Proofs.Sql.Quoting

/-!
Literals tell values apart. A text is shown between quotes and nothing else is, words and numbers
are not shown alike, and two numbers only if one is a whole double and the other that integer. With
a character behind it that is in no literal, a literal is one token.
-/

namespace RestSql

open RestSql.Text

/-! ## The text of numbers -/

namespace Double.Layout

theorem position_spec {l : Layout} {ds : List Char} (hne : ds ≠ [])
    (hds : ∀ c ∈ ds, isDigit c = true) (e : Int) :
    (l.position ds e).head?.any isDigit = true ∧
      ∀ c ∈ l.position ds e, isDigit c = true ∨ c = '.' := by
  have hzero : ∀ {n : Nat} {c : Char}, c ∈ List.replicate n '0' → isDigit c = true := by
    intro n c hc
    rw [List.eq_of_mem_replicate hc]
    rfl
  obtain ⟨d, ds, rfl⟩ := List.exists_cons_of_ne_nil hne
  have hd : isDigit d = true := hds d List.mem_cons_self
  rw [position]
  split
  · refine ⟨rfl, fun c hc => ?_⟩
    rcases List.mem_cons.1 hc with rfl | hc
    · exact .inl rfl
    rcases List.mem_cons.1 hc with rfl | hc
    · exact .inr rfl
    · exact .inl ((List.mem_append.1 hc).elim hzero (hds c))
  · dsimp only
    split
    · refine ⟨hd, fun c hc => ?_⟩
      rcases List.mem_append.1 hc with hc | hc
      · exact .inl ((List.mem_append.1 hc).elim (hds c) hzero)
      · split at hc
        · rcases List.mem_cons.1 hc with rfl | hc
          · exact .inr rfl
          · exact .inl (List.mem_singleton.1 hc ▸ rfl)
        · cases hc
    · refine ⟨hd, fun c hc => ?_⟩
      rcases List.mem_append.1 hc with hc | hc
      · exact .inl (hds c (List.mem_of_mem_take hc))
      rcases List.mem_cons.1 hc with rfl | hc
      · exact .inr rfl
      · exact .inl (hds c (List.mem_of_mem_drop hc))

theorem magnitude_bare_spec (m : Nat) (q : Int) :
    (bare.magnitude m q).head?.any isDigit = true ∧
      ∀ c ∈ bare.magnitude m q, isDigit c = true ∨ c = '.' := by
  rw [magnitude]
  split
  · have hzero : (['0'].all isDigit) = true := by decide
    exact ⟨rfl, fun c hc => .inl (List.all_eq_true.1 hzero c hc)⟩
  · exact position_spec Nat.toDigits_ne_nil (fun c => isDigit_of_mem_toDigits) _

end Double.Layout

namespace Value

def isFloat : Value → Bool
  | .float _ => true
  | _ => false

def isNumber : Value → Bool
  | .int _ | .float _ => true
  | _ => false

/-- A number is shown by digits after a sign or none, or by one of the words for doubles that are
not finite. -/
theorem literal_of_isNumber {v : Value} (h : v.isNumber = true) :
    v.literal ∈ ["NaN", "inf", "-inf"] ∨
      ∃ negative digits, v.literal = String.ofList (signed negative digits) ∧
        digits.head?.any isDigit = true ∧ ∀ c ∈ digits, isDigit c = true ∨ c = '.' := by
  cases v with
  | int n =>
    exact .inr ⟨_, _, toString_int n, head?_toDigits_isDigit _,
      fun c hc => .inl (isDigit_of_mem_toDigits hc)⟩
  | float x =>
    cases x with
    | nan => exact .inl (by decide)
    | infinity negative => exact .inl (by cases negative <;> decide)
    | finite negative m q =>
      obtain ⟨hhead, hmem⟩ := Double.Layout.magnitude_bare_spec m q
      exact .inr ⟨negative, _, by cases negative <;> rfl, hhead, hmem⟩
  | _ => cases h

/-- The characters of every literal but that of a text. -/
def isPlain (c : Char) : Bool := c.isAlphanum || c == '-' || c == '.'

theorem isPlain_of_isDigit {c : Char} (h : isDigit c = true) : isPlain c = true := by
  have hdigit : c.isDigit = true := h
  simp [isPlain, Char.isAlphanum, hdigit]

theorem isPlain_of_isNumber {v : Value} (h : v.isNumber = true) :
    ∀ c ∈ v.literal.toList, isPlain c = true := by
  intro c hc
  rcases literal_of_isNumber h with hword | ⟨negative, digits, hdigits, -, hmem⟩
  · have hall : (["NaN", "inf", "-inf"].all fun w => w.toList.all isPlain) = true := by decide
    exact List.all_eq_true.1 (List.all_eq_true.1 hall _ hword) c hc
  · have hplain : ∀ c ∈ digits, isPlain c = true := by
      intro c hc
      rcases hmem c hc with hdigit | rfl
      · exact isPlain_of_isDigit hdigit
      · rfl
    rw [hdigits, String.toList_ofList] at hc
    cases negative with
    | true =>
      rcases List.mem_cons.1 hc with rfl | hc
      · rfl
      · exact hplain c hc
    | false => exact hplain c hc

def keywords : List Value := [null, bool true, bool false]

theorem mem_keywords {v : Value} (hstring : ∀ s, v ≠ string s) (hnumber : v.isNumber = false) :
    v ∈ keywords := by
  cases v with
  | null => decide
  | bool b => cases b <;> decide
  | string s => exact absurd rfl (hstring s)
  | _ => cases hnumber

theorem isPlain_of_mem {v : Value} (h : ∀ s, v ≠ string s) :
    ∀ c ∈ v.literal.toList, isPlain c = true := by
  cases hv : v.isNumber with
  | true => exact isPlain_of_isNumber hv
  | false =>
    have hall : (keywords.all fun w => w.literal.toList.all isPlain) = true := by decide
    exact List.all_eq_true.1 (List.all_eq_true.1 hall v (mem_keywords h hv))

/-! ## Values apart -/

theorem toList_literal_string (s : String) :
    (string s).literal.toList = Quoted.write '\x27' '\x27' s.toList := String.toList_ofList

theorem eq_string_of_literal_eq {v : Value} {s : String} (h : v.literal = (string s).literal) :
    v = string s := by
  have hlist := congrArg String.toList h
  rw [toList_literal_string] at hlist
  by_cases hv : ∃ t, v = string t
  · obtain ⟨t, rfl⟩ := hv
    rw [toList_literal_string] at hlist
    rw [String.toList_inj.1 (Quoted.write_injective _ _ hlist)]
  · -- every other literal is without quotes
    have hplain := isPlain_of_mem (fun t ht => hv ⟨t, ht⟩) '\x27' (by
      rw [hlist, Quoted.write]
      exact List.mem_cons_self)
    cases hplain

theorem literal_ne_of_mem_keywords {v w : Value} (hv : v.isNumber = true) (hw : w ∈ keywords) :
    v.literal ≠ w.literal := by
  rcases literal_of_isNumber hv with hword | ⟨negative, digits, hdigits, hhead, -⟩
  · have hwords : ∀ word ∈ ["NaN", "inf", "-inf"], ∀ w ∈ keywords, word ≠ w.literal := by decide
    exact hwords _ hword w hw
  · rw [hdigits]
    obtain rfl | rfl | rfl : w = null ∨ w = bool true ∨ w = bool false := by
      simpa [keywords] using hw
    · exact ofList_signed_ne hhead rfl rfl (by decide)
    · exact ofList_signed_ne hhead rfl rfl (by decide)
    · exact ofList_signed_ne hhead rfl rfl (by decide)

theorem toString_int_injective {m n : Int} (h : toString m = toString n) : m = n := by
  rw [toString_int, toString_int] at h
  have hsign := congrArg isNegative h
  have hdigits := congrArg unsigned h
  rw [isNegative_signed (head?_toDigits_isDigit _), isNegative_signed (head?_toDigits_isDigit _),
    decide_eq_decide] at hsign
  rw [unsigned_signed (head?_toDigits_isDigit _), unsigned_signed (head?_toDigits_isDigit _)]
    at hdigits
  have habs := toDigits_injective hdigits
  omega

/-- Numbers that are shown alike are one number, unless one of them is a double: a whole double is
shown as the integer is. -/
theorem eq_or_isFloat_of_literal_eq {v w : Value} (hv : v.isNumber = true) (hw : w.isNumber = true)
    (h : v.literal = w.literal) : v = w ∨ v.isFloat = true ∨ w.isFloat = true := by
  cases v with
  | int m =>
    cases w with
    | int n => exact .inl (congrArg int (toString_int_injective h))
    | float y => exact .inr (.inr rfl)
    | _ => cases hw
  | float x => exact .inr (.inl rfl)
  | _ => cases hv

/-- What is shown alike is equal, unless it is two numbers and one of them a double. -/
theorem eq_or_numbers_of_literal_eq {v w : Value} (h : v.literal = w.literal) :
    v = w ∨
      v.isNumber = true ∧ w.isNumber = true ∧ (v.isFloat = true ∨ w.isFloat = true) := by
  by_cases hv : ∃ s, v = string s
  · obtain ⟨s, rfl⟩ := hv
    exact .inl (eq_string_of_literal_eq h.symm).symm
  by_cases hw : ∃ s, w = string s
  · obtain ⟨s, rfl⟩ := hw
    exact .inl (eq_string_of_literal_eq h)
  have hvkey := mem_keywords fun s hs => hv ⟨s, hs⟩
  have hwkey := mem_keywords fun s hs => hw ⟨s, hs⟩
  cases hvn : v.isNumber with
  | true =>
    cases hwn : w.isNumber with
    | true =>
      exact (eq_or_isFloat_of_literal_eq hvn hwn h).imp_right fun hfloat => ⟨rfl, rfl, hfloat⟩
    | false => exact absurd h (literal_ne_of_mem_keywords hvn (hwkey hwn))
  | false =>
    cases hwn : w.isNumber with
    | true => exact absurd h.symm (literal_ne_of_mem_keywords hwn (hvkey hvn))
    | false =>
      have hinjective : ∀ v ∈ keywords, ∀ w ∈ keywords, v.literal = w.literal → v = w := by decide
      exact .inl (hinjective v (hvkey hvn) w (hwkey hwn) h)

/-! ## One literal in a text -/

/-- The characters that a literal can begin with, or go on with outside of a text. -/
def isLiteralChar (c : Char) : Bool := isPlain c || c == '\x27'

variable {rest : List Char}

theorem stopsAt_isPlain (h : StopsAt isLiteralChar rest) : StopsAt isPlain rest :=
  fun c hc => (Bool.or_eq_false_iff.1 (h c hc)).1

theorem ne_quote_of_stopsAt (h : StopsAt isLiteralChar rest) : ∀ c ∈ rest.head?, c ≠ '\x27' := by
  rintro c hc rfl
  cases h _ hc

/-- A text begins with a quote, and nothing else does. -/
theorem literal_string_append_ne {v : Value} (hv : ∀ t, v ≠ string t)
    (h : StopsAt isLiteralChar rest) (s : String) (rest' : List Char) :
    (string s).literal.toList ++ rest' ≠ v.literal.toList ++ rest := by
  intro he
  rw [toList_literal_string, Quoted.write] at he
  cases hl : v.literal.toList with
  | nil =>
    rw [hl, List.nil_append] at he
    exact ne_quote_of_stopsAt h '\x27' (by rw [← he]; rfl) rfl
  | cons c cs =>
    rw [hl] at he
    have hc := isPlain_of_mem hv c (hl ▸ List.mem_cons_self)
    rw [← (List.cons.inj he).1] at hc
    cases hc

/-- A literal ends where no character of a literal follows. -/
theorem literal_append_inj {v w : Value} {r s : List Char} (hr : StopsAt isLiteralChar r)
    (hs : StopsAt isLiteralChar s) (h : v.literal.toList ++ r = w.literal.toList ++ s) :
    v.literal = w.literal ∧ r = s := by
  by_cases hv : ∃ a, v = string a
  · obtain ⟨a, rfl⟩ := hv
    by_cases hw : ∃ b, w = string b
    · obtain ⟨b, rfl⟩ := hw
      rw [toList_literal_string, toList_literal_string] at h
      obtain ⟨hab, hrest⟩ :=
        Quoted.write_append_inj (ne_quote_of_stopsAt hr) (ne_quote_of_stopsAt hs) h
      exact ⟨by rw [String.toList_inj.1 hab], hrest⟩
    · exact absurd h (literal_string_append_ne (fun b hb => hw ⟨b, hb⟩) hs a r)
  · by_cases hw : ∃ b, w = string b
    · obtain ⟨b, rfl⟩ := hw
      exact absurd h.symm (literal_string_append_ne (fun a ha => hv ⟨a, ha⟩) hr b s)
    · -- both are runs of plain characters
      have hvp := isPlain_of_mem fun a ha => hv ⟨a, ha⟩
      have hwp := isPlain_of_mem fun b hb => hw ⟨b, hb⟩
      have hrun := congrArg (List.takeWhile isPlain) h
      rw [takeWhile_run hvp (stopsAt_isPlain hr), takeWhile_run hwp (stopsAt_isPlain hs)] at hrun
      rw [hrun, List.append_cancel_left_eq] at h
      exact ⟨String.toList_inj.1 hrun, h⟩

end Value

end RestSql
