import Mathlib.Computability.Language
import Mathlib.Data.List.TakeWhile
import RestSql.Proofs.Double.Nearest
import RestSql.Proofs.Sql.Literal

namespace RestSql.Value

open RestSql.Text
open scoped Computability

/-! ## The grammar -/

def between (low high : Char) : Language Char := {cs | ∃ c, low ≤ c ∧ c ≤ high ∧ cs = [c]}

/-- `-?` -/
def optionalMinus : Language Char := 1 + {['-']}

/-- `0|[1-9][0-9]*` -/
def plainWhole : Language Char := {['0']} + between '1' '9' * (between '0' '9')∗

/-- `-?(0|[1-9][0-9]*)` -/
def wholeText : Language Char := optionalMinus * plainWhole

/-- `-?(0|[1-9][0-9]*)\.[0-9]+` -/
def pointText : Language Char :=
  optionalMinus * plainWhole * {['.']} * (between '0' '9' * (between '0' '9')∗)

variable {cs digits whole fraction : List Char} {negative : Bool} {text : String}

theorem mem_between_digits {cs : List Char} :
    cs ∈ between '0' '9' ↔ ∃ c, isDigit c = true ∧ cs = [c] := by
  simp only [between, isDigit, Bool.and_eq_true, decide_eq_true_eq, and_assoc]
  rfl

theorem mem_digits : cs ∈ (between '0' '9')∗ ↔ ∀ c ∈ cs, isDigit c = true := by
  rw [Language.mem_kstar]
  constructor
  · rintro ⟨parts, rfl, hparts⟩ c hc
    obtain ⟨part, hpart, hmem⟩ := List.mem_flatten.1 hc
    obtain ⟨d, hd, rfl⟩ := mem_between_digits.1 (hparts part hpart)
    rwa [List.mem_singleton.1 hmem]
  · intro h
    refine ⟨cs.map ([·]), ?_, ?_⟩
    · rw [← List.flatMap_def, List.flatMap_singleton']
    · intro part hpart
      obtain ⟨c, hc, rfl⟩ := List.mem_map.1 hpart
      exact mem_between_digits.2 ⟨c, h c hc, rfl⟩

theorem mem_someDigits : cs ∈ between '0' '9' * (between '0' '9')∗ ↔
    cs ≠ [] ∧ ∀ c ∈ cs, isDigit c = true := by
  rw [Language.mem_mul]
  constructor
  · rintro ⟨first, hfirst, rest, hrest, rfl⟩
    obtain ⟨c, hc, rfl⟩ := mem_between_digits.1 hfirst
    refine ⟨by simp, fun d hd => ?_⟩
    rcases List.mem_cons.1 hd with rfl | hd
    · exact hc
    · exact mem_digits.1 hrest d hd
  · rintro ⟨hne, h⟩
    obtain ⟨c, rest, rfl⟩ := List.exists_cons_of_ne_nil hne
    exact ⟨[c], mem_between_digits.2 ⟨c, h c List.mem_cons_self, rfl⟩, rest,
      mem_digits.2 fun d hd => h d (List.mem_cons_of_mem c hd), rfl⟩

theorem isDigit_and_ne_zero_iff {c : Char} : isDigit c = true ∧ c ≠ '0' ↔ '1' ≤ c ∧ c ≤ '9' := by
  have hzero : ('0' : Char).val.toNat = 48 := rfl
  have hone : ('1' : Char).val.toNat = 49 := rfl
  simp only [isDigit, Bool.and_eq_true, decide_eq_true_eq, Char.le_def, UInt32.le_iff_toNat_le,
    ne_eq, ← Char.val_inj, ← UInt32.toNat_inj]
  omega

theorem mem_plainWhole : cs ∈ plainWhole ↔ isPlainWhole cs = true := by
  unfold plainWhole
  rw [Language.mem_add, Language.mem_mul]
  constructor
  · rintro (hzero | ⟨first, ⟨c, hlow, hhigh, rfl⟩, rest, hrest, rfl⟩)
    · rw [show cs = ['0'] from hzero]
      rfl
    · obtain ⟨hc, hne⟩ := isDigit_and_ne_zero_iff.2 ⟨hlow, hhigh⟩
      have hall : rest.all isDigit = true := List.all_eq_true.2 (mem_digits.1 hrest)
      simp [isPlainWhole, hc, hne, hall]
  · intro h
    simp only [isPlainWhole, Bool.and_eq_true, Bool.or_eq_true, decide_eq_true_eq] at h
    obtain ⟨⟨hne, hall⟩, hzero | hhead⟩ := h
    · exact .inl hzero
    · obtain ⟨c, rest, rfl⟩ := List.exists_cons_of_ne_nil (by simpa using hne : cs ≠ [])
      have hdigits := List.all_eq_true.1 hall
      have hc : c ≠ '0' := by simpa using hhead
      obtain ⟨hlow, hhigh⟩ := isDigit_and_ne_zero_iff.1 ⟨hdigits c List.mem_cons_self, hc⟩
      exact .inr ⟨[c], ⟨c, hlow, hhigh, rfl⟩, rest,
        mem_digits.2 fun d hd => hdigits d (List.mem_cons_of_mem c hd), rfl⟩

theorem mem_optionalMinus_mul {l : Language Char} :
    cs ∈ optionalMinus * l ↔ ∃ negative digits, cs = signed negative digits ∧ digits ∈ l := by
  unfold optionalMinus
  rw [add_mul, one_mul, Language.mem_add, Language.mem_mul]
  constructor
  · rintro (h | ⟨minus, rfl, digits, hdigits, rfl⟩)
    · exact ⟨false, cs, rfl, h⟩
    · exact ⟨true, digits, rfl, hdigits⟩
  · rintro ⟨negative, digits, rfl, h⟩
    cases negative with
    | true => exact .inr ⟨['-'], rfl, digits, h, rfl⟩
    | false => exact .inl h

theorem mem_wholeText : cs ∈ wholeText ↔
    ∃ negative digits, cs = signed negative digits ∧ isPlainWhole digits = true := by
  unfold wholeText
  rw [mem_optionalMinus_mul]
  simp only [mem_plainWhole]

theorem mem_pointText : cs ∈ pointText ↔ ∃ negative whole fraction,
    cs = signed negative (whole ++ '.' :: fraction) ∧ isPlainWhole whole = true ∧ fraction ≠ [] ∧
      ∀ c ∈ fraction, isDigit c = true := by
  unfold pointText
  rw [mul_assoc, mul_assoc, mem_optionalMinus_mul]
  constructor
  · rintro ⟨negative, digits, rfl, h⟩
    obtain ⟨whole, hwhole, rest, hrest, rfl⟩ := Language.mem_mul.1 h
    obtain ⟨point, rfl, fraction, hfraction, rfl⟩ := Language.mem_mul.1 hrest
    exact ⟨negative, whole, fraction, rfl, mem_plainWhole.1 hwhole, mem_someDigits.1 hfraction⟩
  · rintro ⟨negative, whole, fraction, rfl, hwhole, hfraction⟩
    refine ⟨negative, _, rfl, Language.mem_mul.2 ⟨whole, mem_plainWhole.2 hwhole, _, ?_, rfl⟩⟩
    exact Language.mem_mul.2 ⟨['.'], rfl, fraction, mem_someDigits.2 hfraction, rfl⟩

/-! ## Numbers -/

def magnitude (digits : List Char) : ℚ :=
  let fraction := (digits.dropWhile (· ≠ '.')).drop 1
  digitsValue (digits.takeWhile (· ≠ '.')) + digitsValue fraction / 10 ^ fraction.length

def spelled (text : String) : ℚ :=
  if isNegative text then -magnitude (unsigned text) else magnitude (unsigned text)

theorem magnitude_digits (h : ∀ c ∈ digits, isDigit c = true) :
    magnitude digits = digitsValue digits := by
  have hpoint : ∀ c ∈ digits, decide (c ≠ '.') = true := fun c hc =>
    decide_eq_true (ne_of_isDigit (h c hc) rfl)
  unfold magnitude
  rw [List.takeWhile_eq_self_iff.2 hpoint, List.dropWhile_eq_nil_iff.2 hpoint]
  simp [digitsValue]

theorem magnitude_point (h : ∀ c ∈ whole, isDigit c = true) :
    magnitude (whole ++ '.' :: fraction) =
      digitsValue (whole ++ fraction) * 10 ^ (-fraction.length : Int) := by
  have hpoint : ∀ c ∈ whole, decide (c ≠ '.') = true := fun c hc =>
    decide_eq_true (ne_of_isDigit (h c hc) rfl)
  have hstops : StopsAt (fun c => decide (c ≠ '.')) ('.' :: fraction) := by simp [StopsAt]
  unfold magnitude
  rw [takeWhile_run hpoint hstops, dropWhile_run hpoint hstops, List.drop_one, List.tail_cons,
    digitsValue_append, zpow_neg, zpow_natCast]
  push_cast
  have hpow : (10 : ℚ) ^ fraction.length ≠ 0 := by positivity
  field_simp

theorem spelled_signed (h : isPlainWhole digits = true) :
    spelled (String.ofList (signed negative digits)) = signedValue negative digits := by
  have hhead : digits.head?.any isDigit = true := by
    simpa using head?_isDigit_of_isPlainWhole h []
  unfold spelled signedValue
  rw [isNegative_signed hhead, unsigned_signed hhead,
    magnitude_digits (forall_isDigit_of_isPlainWhole h)]
  cases negative with
  | true => simp
  | false => simp

/-! ## Numbers that are read -/

theorem not_mem_point_of_isPlainWhole (h : isPlainWhole digits = true) : '.' ∉ digits :=
  not_mem_of_isDigit (forall_isDigit_of_isPlainWhole h) rfl

theorem number?_cases (negative : Bool) (digits : List Char) (n : Option Int) :
    number? negative digits n = none ∨
      (∃ k, number? negative digits n = some (.int k) ∧ n = some k ∧ isPlainWhole digits = true) ∨
      ∃ x whole fraction, number? negative digits n = some (.float x) ∧
        digits = whole ++ '.' :: fraction ∧ isPlainWhole whole = true ∧ fraction ≠ [] ∧
        (∀ c ∈ fraction, isDigit c = true) ∧ x.isFinite = true ∧
        Double.ofDecimal negative (digitsValue (whole ++ fraction)) (-fraction.length) = x := by
  unfold number?
  split
  · split
    · rename_i hplain
      cases n with
      | none => exact .inl rfl
      | some k => exact .inr (.inl ⟨k, rfl, rfl, hplain⟩)
    · exact .inl rfl
  · rename_i whole fraction hcut
    split
    · rename_i hform
      simp only [Bool.and_eq_true, Bool.not_eq_true', List.isEmpty_eq_false_iff] at hform
      dsimp only
      split
      · rename_i hfinite
        exact .inr (.inr ⟨_, whole, fraction, rfl, (eq_append_of_cutFirst? hcut).1, hform.1.1,
          hform.1.2, List.all_eq_true.1 hform.2, hfinite, rfl⟩)
      · exact .inl rfl
    · exact .inl rfl

/-! ## Literals -/

/-- The literal that a text spells, if it spells one. -/
inductive Spells (text : String) : Value → Prop
  | word (b : Bool) (h : text = if b then "true" else "false") : Spells text (.bool b)
  | whole (n : Int) (h : text.toList ∈ wholeText) (hvalue : spelled text = n)
    (hfits : -2 ^ 63 ≤ n ∧ n < 2 ^ 63) : Spells text (.int n)
  | point (x : Double) (h : text.toList ∈ pointText)
    (hnearest : x.IsNearest (isNegative text) (magnitude (unsigned text))) : Spells text (.float x)

variable {v : Value} {n : Int}

theorem eq_signed_of_mem (h : text.toList = signed negative digits) :
    text = String.ofList (signed negative digits) := by
  rw [← h, String.ofList_toList]

theorem integer?_of_isPlainWhole (h : isPlainWhole digits = true) :
    integer? integerBound (String.ofList (signed negative digits)) = some n ↔
      signedValue negative digits = n ∧ -2 ^ 63 ≤ n ∧ n < 2 ^ 63 := by
  have hne : digits ≠ [] := by
    rintro rfl
    cases h
  rw [integer?_signed _ hne (forall_isDigit_of_isPlainWhole h), Option.filter_eq_some_iff,
    Option.some.injEq, Bool.and_eq_true, decide_eq_true_eq, decide_eq_true_eq]
  rfl

theorem Spells.infer_eq (h : Spells text v) : infer text = v := by
  cases h with
  | word b h =>
    subst h
    cases b with
    | true => rfl
    | false => rfl
  | whole n h hvalue hfits =>
    obtain ⟨negative, digits, htext, hplain⟩ := mem_wholeText.1 h
    obtain rfl := eq_signed_of_mem htext
    have hhead : digits.head?.any isDigit = true := by
      simpa using head?_isDigit_of_isPlainWhole hplain []
    have hn : signedValue negative digits = n := by
      rw [spelled_signed hplain] at hvalue
      exact_mod_cast hvalue
    rw [infer_signed hhead, (integer?_of_isPlainWhole hplain).2 ⟨hn, hfits⟩, number?,
      cutFirst?_eq_none (not_mem_point_of_isPlainWhole hplain)]
    simp only [hplain, if_true, Option.map_some, Option.getD_some]
  | point x h hnearest =>
    obtain ⟨negative, whole, fraction, htext, hwhole, hne, hdigits⟩ := mem_pointText.1 h
    obtain rfl := eq_signed_of_mem htext
    have hhead := head?_isDigit_of_isPlainWhole hwhole ('.' :: fraction)
    have hfinite : x.isFinite = true := by
      cases x with
      | finite => rfl
      | _ => exact absurd hnearest id
    rw [isNegative_signed hhead, unsigned_signed hhead,
      magnitude_point (forall_isDigit_of_isPlainWhole hwhole)] at hnearest
    exact infer_decimal hwhole hne hdigits ((Double.ofDecimal_eq_iff hfinite).2 hnearest) hfinite

theorem toList_eq_signed (text : String) :
    text.toList = signed (isNegative text) (unsigned text) := by
  unfold unsigned signed
  split
  · rename_i hminus
    obtain ⟨rest, hrest⟩ := List.head?_eq_some_iff.1 (of_decide_eq_true hminus)
    rw [hrest, List.drop_one, List.tail_cons]
  · rfl

/-- What is read is spelled, or it is the text. -/
theorem spells_infer_or (text : String) : Spells text (infer text) ∨ infer text = .string text := by
  by_cases htrue : text = "true"
  · exact .inl (htrue ▸ .word true rfl)
  by_cases hfalse : text = "false"
  · exact .inl (hfalse ▸ .word false rfl)
  have htext := toList_eq_signed text
  rw [infer_of_ne htrue hfalse]
  rcases number?_cases (isNegative text) (unsigned text) (integer? integerBound text) with
    hnone | ⟨n, hn, hinteger, hplain⟩ |
      ⟨x, whole, fraction, hx, hcut, hwhole, hne, hdigits, hfinite, hvalue⟩
  · rw [hnone]
    exact .inr rfl
  · rw [hn]
    rw [eq_signed_of_mem htext] at hinteger
    obtain ⟨hvalue, hfits⟩ := (integer?_of_isPlainWhole hplain).1 hinteger
    refine .inl (.whole n (mem_wholeText.2 ⟨_, _, htext, hplain⟩) ?_ hfits)
    rw [eq_signed_of_mem htext, spelled_signed hplain, hvalue]
  · rw [hx]
    rw [hcut] at htext
    refine .inl (.point x
      (mem_pointText.2 ⟨_, whole, fraction, htext, hwhole, hne, hdigits⟩) ?_)
    rw [hcut, magnitude_point (forall_isDigit_of_isPlainWhole hwhole)]
    exact (Double.ofDecimal_eq_iff hfinite).1 hvalue

/-- A whole number is written as it was read, but for a minus sign before zero. -/
theorem Spells.toString_eq (h : Spells text (.int n)) :
    toString n = text ∨ text = "-0" ∧ n = 0 := by
  cases h with
  | whole n h hvalue hfits =>
    obtain ⟨negative, digits, htext, hplain⟩ := mem_wholeText.1 h
    obtain rfl := eq_signed_of_mem htext
    have hn : signedValue negative digits = n := by
      rw [spelled_signed hplain] at hvalue
      exact_mod_cast hvalue
    subst hn
    by_cases hzero : digits = ['0']
    · subst hzero
      cases negative with
      | true => exact .inr ⟨rfl, rfl⟩
      | false => exact .inl rfl
    · simp only [isPlainWhole, Bool.and_eq_true, Bool.or_eq_true, decide_eq_true_eq] at hplain
      have hhead : digits.head? ≠ some '0' := by simpa using hplain.2.resolve_left hzero
      obtain ⟨hpos, hsame⟩ := toDigits_digitsValue (by simpa using hplain.1.1)
        (List.all_eq_true.1 hplain.1.2) hhead
      have habs : (signedValue negative digits).natAbs = digitsValue digits := by
        unfold signedValue
        split
        · exact Int.natAbs_neg _
        · rfl
      have hnegative : decide (signedValue negative digits < 0) = negative := by
        unfold signedValue
        cases negative with
        | true => simpa using hpos
        | false => simp
      rw [toString_int, habs, hnegative, hsame]
      exact .inl rfl

theorem infer_eq_iff : infer text = v ↔ Spells text v ∨ v = .string text ∧ ∀ w, ¬Spells text w := by
  constructor
  · rintro rfl
    by_cases hspells : ∃ w, Spells text w
    · obtain ⟨w, hw⟩ := hspells
      exact .inl (by rwa [hw.infer_eq])
    · have hnone : ∀ w, ¬Spells text w := fun w hw => hspells ⟨w, hw⟩
      exact .inr ⟨(spells_infer_or text).resolve_left (hnone _), hnone⟩
  · rintro (h | ⟨rfl, hnone⟩)
    · exact h.infer_eq
    · exact (spells_infer_or text).resolve_left (hnone _)

/-- The text of a whole number spells no other literal. -/
theorem Spells.whole_fits (h : Spells text v) (hwhole : text.toList ∈ wholeText) :
    ∃ n : Int, spelled text = n ∧ -2 ^ 63 ≤ n ∧ n < 2 ^ 63 := by
  obtain ⟨negative, digits, htext, hplain⟩ := mem_wholeText.1 hwhole
  cases h with
  | word b h =>
    have hhead : digits.head?.any isDigit = true := by
      simpa using head?_isDigit_of_isPlainWhole hplain []
    rw [eq_signed_of_mem htext] at h
    cases b with
    | true => exact absurd h (ofList_signed_ne hhead rfl rfl (by decide))
    | false => exact absurd h (ofList_signed_ne hhead rfl rfl (by decide))
  | whole n _ hvalue hfits => exact ⟨n, hvalue, hfits⟩
  | point x hpoint _ =>
    obtain ⟨negative', whole, fraction, htext', -⟩ := mem_pointText.1 hpoint
    have hmem : '.' ∈ signed negative digits := by
      rw [← htext, htext']
      cases negative' with
      | true => simp [signed]
      | false => simp [signed]
    have hnot := not_mem_point_of_isPlainWhole hplain
    cases negative with
    | true => exact absurd hmem (by simpa [signed] using hnot)
    | false => exact absurd hmem hnot

/-- A text is read as the literal that it spells, and as itself if it spells none. The whole numbers
that are read are written as they were, but for a minus sign before zero, and those that do not fit
64 bits stay text. -/
theorem infer_exact (text : String) :
    (∀ b : Bool, infer text = .bool b ↔ text = if b then "true" else "false") ∧
      (∀ n : Int, infer text = .int n ↔
        text.toList ∈ wholeText ∧ spelled text = n ∧ -2 ^ 63 ≤ n ∧ n < 2 ^ 63) ∧
      (∀ x : Double, infer text = .float x ↔
        text.toList ∈ pointText ∧ x.IsNearest (isNegative text) (magnitude (unsigned text))) ∧
      (∀ s, infer text = .string s ↔ s = text ∧ ∀ v, ¬Spells text v) ∧ infer text ≠ .null ∧
      (∀ n, infer text = .int n → toString n = text ∨ text = "-0" ∧ n = 0) ∧
      (text.toList ∈ wholeText → spelled text < -2 ^ 63 ∨ 2 ^ 63 ≤ spelled text →
        infer text = .string text) := by
  have hliteral : ∀ v, (∀ s, v ≠ .string s) → (infer text = v ↔ Spells text v) := fun v hv => by
    rw [infer_eq_iff, or_iff_left fun h => hv text h.1]
  refine ⟨fun b => ?_, fun n => ?_, fun x => ?_, fun s => ?_, fun h => ?_, fun n h => ?_,
    fun hwhole hrange => ?_⟩
  · rw [hliteral _ (by simp)]
    exact ⟨fun h => by cases h; assumption, .word b⟩
  · rw [hliteral _ (by simp)]
    exact ⟨fun h => by cases h; exact ⟨‹_›, ‹_›, ‹_›⟩, fun h => .whole n h.1 h.2.1 h.2.2⟩
  · rw [hliteral _ (by simp)]
    exact ⟨fun h => by cases h; exact ⟨‹_›, ‹_›⟩, fun h => .point x h.1 h.2⟩
  · rw [infer_eq_iff, Value.string.injEq]
    exact or_iff_right fun h => by cases h
  · cases (hliteral .null (by simp)).1 h
  · exact Spells.toString_eq ((hliteral _ (by simp)).1 h)
  · refine infer_eq_iff.2 (.inr ⟨rfl, fun v hv => ?_⟩)
    obtain ⟨n, hn, hlow, hhigh⟩ := hv.whole_fits hwhole
    rw [hn] at hrange
    rcases hrange with hrange | hrange
    · exact absurd (by exact_mod_cast hrange : n < -2 ^ 63) hlow.not_gt
    · exact absurd (by exact_mod_cast hrange : (2 ^ 63 : Int) ≤ n) hhigh.not_ge

/-- The least whole number, the first one that does not fit, zero with a sign, and a half. -/
theorem infer_exact_edges :
    infer "-9223372036854775808" = .int (-2 ^ 63) ∧
      ("9223372036854775808".toList ∈ wholeText ∧ 2 ^ 63 ≤ spelled "9223372036854775808" ∧
        infer "9223372036854775808" = .string "9223372036854775808") ∧
      (infer "-0" = .int 0 ∧ toString (0 : Int) ≠ "-0") ∧
      infer "-0.50" = .float (.finite true (2 ^ 52) (-53)) := by
  have hplain : isPlainWhole "9223372036854775808".toList = true := by decide +kernel
  have hpast : "9223372036854775808".toList ∈ wholeText := mem_wholeText.2 ⟨false, _, rfl, hplain⟩
  have hspelled : ∀ negative,
      spelled (String.ofList (signed negative "9223372036854775808".toList)) =
        (if negative then -2 ^ 63 else 2 ^ 63 : Int) := by
    intro negative
    have hdigits : digitsValue "9223372036854775808".toList = 2 ^ 63 := by decide +kernel
    rw [spelled_signed hplain, signedValue, hdigits]
    rfl
  have hlimit : (2 : ℚ) ^ 63 ≤ spelled "9223372036854775808" := by
    rw [show spelled "9223372036854775808" = _ from hspelled false]
    norm_num
  have hhalf : Double.IsNearest true (magnitude (['0'] ++ '.' :: ['5', '0']))
      (.finite true (2 ^ 52) (-53)) := by
    rw [magnitude_point (List.all_eq_true.1 rfl)]
    exact (Double.ofDecimal_eq_iff rfl).1 (by decide +kernel)
  refine ⟨?_, ⟨hpast, hlimit, ?_⟩, ⟨?_, by decide⟩, ?_⟩
  · exact ((infer_exact _).2.1 _).2
      ⟨mem_wholeText.2 ⟨true, _, rfl, hplain⟩, hspelled true, by decide⟩
  · exact (infer_exact _).2.2.2.2.2.2 hpast (.inr hlimit)
  · exact ((infer_exact _).2.1 _).2
      ⟨mem_wholeText.2 ⟨true, ['0'], rfl, rfl⟩, @spelled_signed ['0'] true rfl, by decide⟩
  · exact ((infer_exact _).2.2.1 _).2
      ⟨mem_pointText.2 ⟨true, ['0'], ['5', '0'], rfl, rfl, by decide, List.all_eq_true.1 rfl⟩,
        hhalf⟩

end RestSql.Value
