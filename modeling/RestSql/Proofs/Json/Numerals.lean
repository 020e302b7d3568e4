import RestSql.Proofs.Json.Finite
import RestSql.Proofs.Json.Reading
import RestSql.Proofs.Sql.Literal

/-!
Reading back the text of a number. A numeral is read from its text before anything that does not go
on with a numeral. A whole number has neither point nor exponent and is read as itself; a double
has one of them, so it is read as a double, if as anything.
-/

namespace RestSql.Json

open RestSql.Text
open RestSql.Value (isPlainWhole signed)

def isNumeralChar (c : Char) : Bool := isDigit c || c == '.' || c == 'e' || c == 'E'

namespace Numeral

def fractionChars (fraction : List Char) : List Char :=
  if fraction = [] then [] else '.' :: fraction

def exponentChars : Option (Bool × List Char) → List Char
  | none => []
  | some (negative, digits) => 'e' :: (if negative then '-' else '+') :: digits

def chars (n : Numeral) : List Char :=
  signed n.negative (n.whole ++ (fractionChars n.fraction ++ exponentChars n.exponent))

/-- The parts are digits, no zero stands in front of another digit, and there are digits behind the
mark of an exponent. -/
structure IsProper (n : Numeral) : Prop where
  whole : isPlainWhole n.whole = true
  fraction : ∀ c ∈ n.fraction, isDigit c = true
  exponent : ∀ e ∈ n.exponent, e.2 ≠ [] ∧ ∀ c ∈ e.2, isDigit c = true

variable {n : Numeral} {rest : List Char}

/-! ## Parts -/

theorem stopsAt_isDigit (h : StopsAt isNumeralChar rest) : StopsAt isDigit rest := by
  intro c hc
  have hstop := h c hc
  simp only [isNumeralChar, Bool.or_eq_false_iff] at hstop
  exact hstop.1.1.1

theorem exponent?_chars {e : Option (Bool × List Char)}
    (h : ∀ x ∈ e, x.2 ≠ [] ∧ ∀ c ∈ x.2, isDigit c = true) (hr : StopsAt isNumeralChar rest) :
    Written.exponent? (exponentChars e ++ rest) = some (e, rest) := by
  cases e with
  | none =>
    cases rest with
    | nil => rfl
    | cons c cs =>
      have hstop := hr c rfl
      simp only [isNumeralChar, Bool.or_eq_false_iff, beq_eq_false_iff_ne] at hstop
      simp [exponentChars, Written.exponent?, hstop.1.2, hstop.2]
  | some x =>
    obtain ⟨negative, digits⟩ := x
    obtain ⟨hne, hdigits⟩ := h _ rfl
    have htake := takeWhile_run hdigits (stopsAt_isDigit hr)
    have hdrop := dropWhile_run hdigits (stopsAt_isDigit hr)
    cases negative with
    | true => simp [exponentChars, Written.exponent?, htake, hdrop, hne]
    | false => simp [exponentChars, Written.exponent?, htake, hdrop, hne]

theorem fraction?_chars {fraction : List Char} (h : ∀ c ∈ fraction, isDigit c = true)
    (hr : StopsAt (fun c => isDigit c || c == '.') rest) :
    Written.fraction? (fractionChars fraction ++ rest) = some (fraction, rest) := by
  have hstop : StopsAt isDigit rest := fun c hc => (Bool.or_eq_false_iff.1 (hr c hc)).1
  unfold fractionChars
  split
  · rename_i hnil
    cases rest with
    | nil => simp [Written.fraction?, hnil]
    | cons c cs =>
      have hpoint : c ≠ '.' := by simpa using (Bool.or_eq_false_iff.1 (hr c rfl)).2
      simp [Written.fraction?, hnil, hpoint]
  · rename_i hne
    have htake := takeWhile_run h hstop
    have hdrop := dropWhile_run h hstop
    simp [Written.fraction?, htake, hdrop, hne]

theorem stopsAt_tail (fraction : List Char) {e : Option (Bool × List Char)}
    (hr : StopsAt isNumeralChar rest) :
    StopsAt (fun c => isDigit c || c == '.') (exponentChars e ++ rest) ∧
      StopsAt isDigit (fractionChars fraction ++ (exponentChars e ++ rest)) := by
  have hexponent : StopsAt (fun c => isDigit c || c == '.') (exponentChars e ++ rest) := by
    cases e with
    | none =>
      intro c hc
      have hstop := hr c hc
      simp only [isNumeralChar, Bool.or_eq_false_iff] at hstop ⊢
      exact hstop.1.1
    | some x =>
      intro c hc
      obtain rfl : 'e' = c := by simpa [exponentChars] using hc
      rfl
  refine ⟨hexponent, ?_⟩
  unfold fractionChars
  split
  · exact fun c hc => (Bool.or_eq_false_iff.1 (hexponent c hc)).1
  · intro c hc
    obtain rfl : '.' = c := by simpa using hc
    rfl

theorem isEmpty_or_of_isPlainWhole {whole : List Char} (h : isPlainWhole whole = true) :
    (whole.isEmpty || (decide (whole.head? = some '0') && decide (1 < whole.length))) = false := by
  simp only [isPlainWhole, Bool.and_eq_true, Bool.or_eq_true, decide_eq_true_eq, bne_iff_ne,
    Bool.not_eq_true'] at h
  obtain ⟨⟨hne, -⟩, rfl | hhead⟩ := h
  · rfl
  · simp [hne, hhead]

theorem signed_append (negative : Bool) (digits rest : List Char) :
    signed negative digits ++ rest = signed negative (digits ++ rest) := by
  cases negative with
  | true => rfl
  | false => rfl

theorem unsigned_eq {negative : Bool} {digits : List Char} (h : digits.head?.any isDigit = true) :
    (if (signed negative digits).head? = some '-' then (signed negative digits).drop 1
      else signed negative digits) = digits := by
  rw [if_congr (Value.head?_signed h) rfl rfl]
  cases negative with
  | true => rfl
  | false => rfl

theorem numeral?_chars (h : n.IsProper) (hr : StopsAt isNumeralChar rest) :
    Written.numeral? (n.chars ++ rest) = some (n, rest) := by
  obtain ⟨negative, whole, fraction, exponent⟩ := n
  obtain ⟨hwhole, hfraction, hexponent⟩ := h
  obtain ⟨hstop, hstop'⟩ := stopsAt_tail (e := exponent) fraction hr
  have hdigits := Value.forall_isDigit_of_isPlainWhole hwhole
  have htake := takeWhile_run hdigits hstop'
  have hdrop := dropWhile_run hdigits hstop'
  have hfirst := Value.head?_isDigit_of_isPlainWhole hwhole
    (fractionChars fraction ++ (exponentChars exponent ++ rest))
  have hsign : decide ((signed negative (whole ++ (fractionChars fraction ++
      (exponentChars exponent ++ rest)))).head? = some '-') = negative := by
    simp only [Value.head?_signed hfirst, Bool.decide_eq_true]
  rw [chars, signed_append, List.append_assoc, List.append_assoc]
  simp only [Written.numeral?, hsign, unsigned_eq hfirst, htake, hdrop,
    isEmpty_or_of_isPlainWhole hwhole, fraction?_chars hfraction hstop, Option.bind_eq_bind,
    Option.bind_some, exponent?_chars hexponent hr]
  rfl

/-- A numeral begins with a minus sign or a digit. -/
theorem exists_chars_eq (h : n.IsProper) :
    ∃ c cs, n.chars = c :: cs ∧ (c = '-' ∨ isDigit c = true) := by
  obtain ⟨c, whole, hwhole⟩ : ∃ c whole, n.whole = c :: whole := by
    apply List.exists_cons_of_ne_nil
    intro hnil
    have hplain := h.whole
    rw [hnil] at hplain
    cases hplain
  have hdigit : isDigit c = true :=
    Value.forall_isDigit_of_isPlainWhole h.whole c (by simp [hwhole])
  rw [chars, hwhole]
  cases n.negative with
  | true => exact ⟨'-', _, rfl, .inl rfl⟩
  | false => exact ⟨c, _, rfl, .inr hdigit⟩

theorem value?_chars (h : n.IsProper) (hr : StopsAt isNumeralChar rest) (fuel : Nat) :
    Written.value? (fuel + 1) (n.chars ++ rest) = some (.number n, rest) := by
  have hnumeral := numeral?_chars h hr
  obtain ⟨c, cs, hcs, hc⟩ := exists_chars_eq h
  rw [hcs, List.cons_append] at hnumeral ⊢
  have hne : ∀ d : Char, d ≠ '-' → isDigit d = false → c ≠ d := by
    rintro d hminus hdigit rfl
    rcases hc with rfl | hc
    · exact hminus rfl
    · rw [hdigit] at hc
      cases hc
  have hblank : Written.isBlank c = false := by
    simp only [Written.isBlank, Bool.or_eq_false_iff, beq_eq_false_iff_ne]
    exact ⟨⟨⟨hne _ (by decide) rfl, hne _ (by decide) rfl⟩, hne _ (by decide) rfl⟩,
      hne _ (by decide) rfl⟩
  have hskip : Written.skipBlank (c :: (cs ++ rest)) = c :: (cs ++ rest) := by
    rw [Written.skipBlank, List.dropWhile_cons_of_neg (by simp [hblank])]
  rw [Written.value?, hskip]
  split
  case h_7 => rw [hnumeral, Option.map_some]
  all_goals
    rename_i hcons
    exact absurd (List.cons.inj hcons).1 (hne _ (by decide) rfl)

/-! ## Whole numbers -/

def ofInt (k : Int) : Numeral := ⟨decide (k < 0), Nat.toDigits 10 k.natAbs, [], none⟩

theorem isProper_ofInt (k : Int) : (ofInt k).IsProper :=
  ⟨Value.isPlainWhole_toDigits _, by simp [ofInt], by simp [ofInt]⟩

theorem chars_ofInt (k : Int) : (ofInt k).chars = (toString k).toList := by
  rw [Value.toString_int, String.toList_ofList]
  simp [chars, ofInt, fractionChars, exponentChars]

theorem value?_ofInt {k : Int} (h : -2 ^ 63 ≤ k ∧ k < 2 ^ 64) :
    (ofInt k).value? = some (.whole k) := by
  have hcount : countBound = 2 ^ 64 := rfl
  have hinteger : integerBound = 2 ^ 63 := rfl
  have habs : k.natAbs < countBound := by omega
  simp only [value?, ofInt, digitsValue_toDigits, List.isEmpty_nil, Option.isNone_none, habs,
    decide_true, Bool.and_self, if_true]
  by_cases hk : k < 0
  · have hfits : 0 < k.natAbs ∧ k.natAbs ≤ integerBound := by omega
    simp only [hk, hfits, decide_true, Bool.not_true, Bool.false_eq_true, if_false, Bool.and_self,
      if_true]
    congr 2
    omega
  · simp only [hk, decide_false, Bool.not_false, if_true]
    congr 2
    omega

/-! ## Doubles -/

def IsFractional (n : Numeral) : Prop := n.fraction ≠ [] ∨ n.exponent ≠ none

theorem value?_of_isFractional (h : n.IsFractional) : n.value? = n.float?.map .float := by
  have hnot : (n.fraction.isEmpty && n.exponent.isNone) = false := by
    rcases h with h | h
    · simp [h]
    · simp [Option.ne_none_iff_isSome.1 h]
  simp [value?, hnot]

theorem exists_scientific (s : Bool) (d : Nat) (e : Int) : ∃ n : Numeral, n.IsProper ∧
    n.IsFractional ∧ signed s (Double.scientific (Nat.toDigits 10 d) e) = n.chars := by
  have hdigit : ∀ c ∈ Nat.toDigits 10 d, isDigit c = true := fun c => isDigit_of_mem_toDigits
  obtain ⟨c, cs, hcs⟩ := List.exists_cons_of_ne_nil (Nat.toDigits_ne_nil (n := d) (b := 10))
  rw [hcs] at hdigit ⊢
  refine ⟨⟨s, [c], cs, some (decide (e < 0), Nat.toDigits 10 e.natAbs)⟩, ⟨?_, ?_, ?_⟩, ?_, ?_⟩
  · -- a single digit may be a zero
    have hzero : [c] = ['0'] ∨ c ≠ '0' := by
      by_cases hc : c = '0'
      · exact .inl (by rw [hc])
      · exact .inr hc
    simpa [isPlainWhole, hdigit c (by simp)] using hzero
  · exact fun c' hc' => hdigit c' (List.mem_cons_of_mem c hc')
  · rintro x ⟨⟩
    exact ⟨Nat.toDigits_ne_nil, fun c' => isDigit_of_mem_toDigits⟩
  · exact .inr (by simp)
  · rw [chars, Double.scientific, fractionChars]
    by_cases he : e < 0
    · simp [exponentChars, he]
    · simp [exponentChars, he]

/-- The text of a finite double is a numeral with a point or an exponent. -/
theorem exists_numeral {x : Double} (hx : x.WellFormed) (hfinite : x.isFinite = true) :
    ∃ n : Numeral, n.IsProper ∧ n.IsFractional ∧ (Number.float x).text.toList = n.chars := by
  cases x with
  | nan => cases hfinite
  | infinity => cases hfinite
  | finite s m q =>
    rw [Value.text_float, String.toList_ofList]
    by_cases hm : m = 0
    · refine ⟨⟨s, ['0'], ['0'], none⟩, ⟨rfl, by simp [isDigit], by simp⟩, .inl (by simp), ?_⟩
      rw [hm]
      cases s with
      | true => rfl
      | false => rfl
    · obtain ⟨hne, -, -⟩ := Double.shortest_spec .toEven hm hx
      rw [Value.magnitude_eq hm q rfl rfl]
      split
      · obtain ⟨whole, fraction, htext, hwhole, hfraction, hdigits, -⟩ :=
          Value.exists_position hne (Double.shortest .toEven m q).exponent
        refine ⟨⟨s, whole, fraction, none⟩, ⟨hwhole, hdigits, by simp⟩, .inl hfraction, ?_⟩
        rw [htext, chars, fractionChars, if_neg hfraction, exponentChars, List.append_nil]
      · exact exists_scientific s _ _

end Numeral

end RestSql.Json
