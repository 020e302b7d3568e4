import RestSql.Proofs.Double.Shortest
import RestSql.Sql.Value

/-!
Literals that the text of a JSON number spells. A whole number of 64 bits is spelled by its text,
and so is a double whose text has no exponent: its digits are rounded to it again. A text with an
exponent spells no literal.
-/

namespace RestSql.Value

open RestSql.Text

/-! ## Texts that begin with a digit -/

def signed (negative : Bool) (digits : List Char) : List Char :=
  if negative then '-' :: digits else digits

theorem ne_of_isDigit {c d : Char} (h : isDigit c = true) (hd : isDigit d = false) : c ≠ d := by
  rintro rfl
  simp [h] at hd

/-- The number that the digits after the sign spell, `n` being the whole text as an integer. -/
def number? (negative : Bool) (digits : List Char) (n : Option Int) : Option Value :=
  match cutFirst? '.' digits with
  | none => if isPlainWhole digits then n.map .int else none
  | some (whole, fraction) =>
    if isPlainWhole whole && !fraction.isEmpty && fraction.all isDigit then
      let x := Double.ofDecimal negative (digitsValue (whole ++ fraction)) (-fraction.length)
      if x.isFinite then some (.float x) else none
    else none

variable {negative : Bool} {digits : List Char}

/-- The text is no word that begins with a letter. -/
theorem ofList_signed_ne (h : digits.head?.any isDigit = true) {word : String} {d : Char}
    (hword : word.toList.head? = some d) (hd : isDigit d = false) (hminus : d ≠ '-') :
    String.ofList (signed negative digits) ≠ word := by
  rintro rfl
  rw [String.toList_ofList] at hword
  cases negative with
  | true => exact hminus (Option.some.inj hword).symm
  | false =>
    rw [show signed false digits = digits from rfl] at hword
    rw [hword, Option.any_some, hd] at h
    cases h

theorem head?_signed (h : digits.head?.any isDigit = true) :
    (signed negative digits).head? = some '-' ↔ negative = true := by
  cases negative with
  | true => exact ⟨fun _ => rfl, fun _ => rfl⟩
  | false =>
    refine ⟨fun hminus => ?_, fun hfalse => absurd hfalse (by decide)⟩
    rw [show signed false digits = digits from rfl] at hminus
    rw [hminus] at h
    cases h

def isNegative (text : String) : Bool := text.toList.head? = some '-'

def unsigned (text : String) : List Char :=
  if isNegative text then text.toList.drop 1 else text.toList

/-- Apart from the two words, a text is a number or stays text. -/
theorem infer_of_ne {text : String} (htrue : text ≠ "true") (hfalse : text ≠ "false") :
    infer text = (number? (isNegative text) (unsigned text) (integer? integerBound text)).getD
      (.string text) := by
  rw [infer, if_neg htrue, if_neg hfalse]
  simp only [unsigned, isNegative, decide_eq_true_eq]
  rfl

theorem mem_signed {c : Char} (h : c ∈ digits) : c ∈ signed negative digits := by
  cases negative with
  | true => exact List.mem_cons_of_mem _ h
  | false => exact h

theorem isNegative_signed (h : digits.head?.any isDigit = true) :
    isNegative (String.ofList (signed negative digits)) = negative := by
  simp only [isNegative, String.toList_ofList, head?_signed h, Bool.decide_eq_true]

theorem unsigned_signed (h : digits.head?.any isDigit = true) :
    unsigned (String.ofList (signed negative digits)) = digits := by
  unfold unsigned
  rw [isNegative_signed h, String.toList_ofList]
  cases negative with
  | true => rfl
  | false => rfl

theorem infer_signed (h : digits.head?.any isDigit = true) :
    infer (String.ofList (signed negative digits)) =
      (number? negative digits
        (integer? integerBound (String.ofList (signed negative digits)))).getD
          (.string (String.ofList (signed negative digits))) := by
  have htrue : String.ofList (signed negative digits) ≠ "true" :=
    ofList_signed_ne h rfl rfl (by decide)
  have hfalse : String.ofList (signed negative digits) ≠ "false" :=
    ofList_signed_ne h rfl rfl (by decide)
  rw [infer_of_ne htrue hfalse, isNegative_signed h, unsigned_signed h]

theorem not_mem_of_isDigit {c : Char} (h : ∀ d ∈ digits, isDigit d = true)
    (hc : isDigit c = false) : c ∉ digits :=
  fun hmem => ne_of_isDigit (h c hmem) hc rfl

/-! ## Whole numbers -/

theorem isPlainWhole_toDigits (n : Nat) : isPlainWhole (Nat.toDigits 10 n) = true := by
  have hdigit : (Nat.toDigits 10 n).all isDigit = true :=
    List.all_eq_true.2 fun c hc => isDigit_of_mem_toDigits hc
  have hzero : Nat.toDigits 10 n = ['0'] ∨ (Nat.toDigits 10 n).head? ≠ some '0' := by
    by_cases hn : n = 0
    · exact .inl (by rw [hn]; rfl)
    · exact .inr (head?_toDigits hn)
  simp [isPlainWhole, Nat.toDigits_ne_nil, hdigit, hzero]

theorem toString_int (n : Int) :
    toString n = String.ofList (signed (decide (n < 0)) (Nat.toDigits 10 n.natAbs)) := by
  rw [← String.toList_inj, String.toList_ofList, Int.toString_eq_repr, Int.repr_eq_if]
  by_cases hn : 0 ≤ n
  · rw [if_pos hn, decide_eq_false (by omega), ← Int.natAbs_of_nonneg hn, Int.toNat_natCast]
    exact toList_toString n.natAbs
  · rw [if_neg hn, decide_eq_true (by omega), String.toList_append, ← Nat.toString_eq_repr,
      toList_toString, show (-n).toNat = n.natAbs by omega]
    rfl

theorem head?_toDigits_isDigit (n : Nat) : (Nat.toDigits 10 n).head?.any isDigit = true := by
  rw [List.head?_eq_some_head Nat.toDigits_ne_nil]
  exact isDigit_of_mem_toDigits (List.head_mem _)

def signedValue (negative : Bool) (digits : List Char) : Int :=
  if negative then -(digitsValue digits : Int) else digitsValue digits

theorem integer?_signed (bound : Nat) (hne : digits ≠ [])
    (hdigits : ∀ c ∈ digits, isDigit c = true) :
    integer? bound (String.ofList (signed negative digits)) =
      (some (signedValue negative digits)).filter
        fun n => -(bound : Int) ≤ n && n < (bound : Int) := by
  have hnatural : natural? digits = some (digitsValue digits) :=
    natural?_eq_some.2 ⟨hne, hdigits, rfl⟩
  rw [integer?, String.toList_ofList]
  cases negative with
  | true =>
    simp only [signed, if_true, hnatural, signedValue]
    rfl
  | false =>
    -- the first digit is no sign
    obtain ⟨c, cs, rfl⟩ := List.exists_cons_of_ne_nil hne
    have hminus : c ≠ '-' := ne_of_isDigit (hdigits c List.mem_cons_self) rfl
    have hplus : c ≠ '+' := ne_of_isDigit (hdigits c List.mem_cons_self) rfl
    simp only [signed, Bool.false_eq_true, if_false, signedValue]
    split
    · simp_all
    · simp_all
    · rw [hnatural, Option.map_some, Int.ofNat_eq_natCast]

theorem integer?_toString {n : Int} (h : -2 ^ 63 ≤ n ∧ n < 2 ^ 63) :
    integer? integerBound (toString n) = some n := by
  have hvalue : signedValue (decide (n < 0)) (Nat.toDigits 10 n.natAbs) = n := by
    unfold signedValue
    rw [digitsValue_toDigits]
    split
    · rename_i hn
      rw [decide_eq_true_eq] at hn
      omega
    · rename_i hn
      rw [decide_eq_true_eq] at hn
      omega
  rw [toString_int, integer?_signed _ Nat.toDigits_ne_nil fun c => isDigit_of_mem_toDigits, hvalue,
    Option.filter_some, if_pos]
  rw [Bool.and_eq_true]
  exact ⟨decide_eq_true h.1, decide_eq_true h.2⟩

theorem infer_toString {n : Int} (h : -2 ^ 63 ≤ n ∧ n < 2 ^ 63) : infer (toString n) = .int n := by
  have hcut : cutFirst? '.' (Nat.toDigits 10 n.natAbs) = none :=
    cutFirst?_eq_none (not_mem_of_isDigit (fun d => isDigit_of_mem_toDigits) rfl)
  rw [toString_int, infer_signed (head?_toDigits_isDigit _), ← toString_int, integer?_toString h,
    number?]
  simp only [hcut, isPlainWhole_toDigits, if_true, Option.map_some, Option.getD_some]

/-! ## Decimals -/

theorem forall_isDigit_of_isPlainWhole {whole : List Char} (h : isPlainWhole whole = true) :
    ∀ d ∈ whole, isDigit d = true := by
  simp only [isPlainWhole, Bool.and_eq_true] at h
  exact List.all_eq_true.1 h.1.2

theorem head?_isDigit_of_isPlainWhole {whole : List Char} (h : isPlainWhole whole = true)
    (rest : List Char) : (whole ++ rest).head?.any isDigit = true := by
  cases whole with
  | nil => cases h
  | cons c cs => exact forall_isDigit_of_isPlainWhole h c List.mem_cons_self

/-- A decimal with a point spells the double that is nearest to it. -/
theorem infer_decimal {whole fraction : List Char} (hwhole : isPlainWhole whole = true)
    (hne : fraction ≠ []) (hdigits : ∀ d ∈ fraction, isDigit d = true) {x : Double}
    (hvalue : Double.ofDecimal negative (digitsValue (whole ++ fraction)) (-fraction.length) = x)
    (hx : x.isFinite = true) :
    infer (String.ofList (signed negative (whole ++ '.' :: fraction))) = .float x := by
  have hcut : cutFirst? '.' (whole ++ '.' :: fraction) = some (whole, fraction) :=
    cutFirst?_append (not_mem_of_isDigit (forall_isDigit_of_isPlainWhole hwhole) rfl) fraction
  have hform : (isPlainWhole whole && !fraction.isEmpty && fraction.all isDigit) = true := by
    simpa [hwhole, hne] using hdigits
  rw [infer_signed (head?_isDigit_of_isPlainWhole hwhole _), number?, hcut]
  simp only [hform, if_true, hvalue, hx, Option.getD_some]

theorem infer_of_mem {c : Char} (hhead : digits.head?.any isDigit = true) (hmem : c ∈ digits)
    (hdigit : isDigit c = false) (hpoint : c ≠ '.') :
    infer (String.ofList (signed negative digits)) =
      .string (String.ofList (signed negative digits)) := by
  have hwhole : ∀ cs, c ∈ cs → isPlainWhole cs = false := fun cs hc => by
    by_contra h
    exact ne_of_isDigit (forall_isDigit_of_isPlainWhole (by simpa using h) c hc) hdigit rfl
  have hnumber : ∀ n, number? negative digits n = none := by
    intro n
    rw [number?]
    split
    · rw [hwhole digits hmem]
      rfl
    · rename_i whole fraction hcut
      have hsplit := (eq_append_of_cutFirst? hcut).1
      rw [hsplit, List.mem_append, List.mem_cons, or_iff_right hpoint] at hmem
      refine if_neg fun hform => ?_
      simp only [Bool.and_eq_true] at hform
      rcases hmem with hmem | hmem
      · rw [hwhole whole hmem] at hform
        exact absurd hform.1.1 (by decide)
      · exact ne_of_isDigit (List.all_eq_true.1 hform.2 c hmem) hdigit rfl
  rw [infer_signed hhead, hnumber, Option.getD_none]

/-! ## The text of a double -/

section Position

variable {d : Nat} (hd : d ≠ 0) (x : Int)

include hd

theorem isPlainWhole_take (n k : Nat) (hn : 0 < n) :
    isPlainWhole ((Nat.toDigits 10 d).take n ++ List.replicate k '0') = true := by
  obtain ⟨c, cs, hcs⟩ := List.exists_cons_of_ne_nil (Nat.toDigits_ne_nil (n := d) (b := 10))
  have hhead := head?_toDigits hd
  have hdigit : ∀ c ∈ Nat.toDigits 10 d, isDigit c = true := fun c => isDigit_of_mem_toDigits
  obtain ⟨n, rfl⟩ : ∃ k, n = k + 1 := ⟨n - 1, by omega⟩
  rw [hcs] at hhead hdigit ⊢
  rw [isPlainWhole, List.take_succ_cons, List.cons_append]
  have hall : (c :: (cs.take n ++ List.replicate k '0')).all isDigit = true := by
    refine List.all_eq_true.2 fun e he => ?_
    rcases List.mem_cons.1 he with rfl | he
    · exact hdigit e List.mem_cons_self
    · rcases List.mem_append.1 he with he | he
      · exact hdigit e (List.mem_cons_of_mem c (List.mem_of_mem_take he))
      · rw [List.eq_of_mem_replicate he]
        rfl
  rw [hall]
  simpa using .inr (by simpa using hhead)

/-- The positional text of digits is a decimal of the same value. -/
theorem exists_position : ∃ whole fraction,
    Double.Layout.json.position (Nat.toDigits 10 d) (x + (Nat.toDigits 10 d).length - 1) =
        whole ++ '.' :: fraction ∧
      isPlainWhole whole = true ∧ fraction ≠ [] ∧ (∀ c ∈ fraction, isDigit c = true) ∧
      (digitsValue (whole ++ fraction) * 10 ^ (-fraction.length : Int) : ℚ) = d * 10 ^ x := by
  have hdigit : ∀ c ∈ Nat.toDigits 10 d, isDigit c = true := fun c => isDigit_of_mem_toDigits
  have hvalue := digitsValue_toDigits d
  have hlength : 0 < (Nat.toDigits 10 d).length := Nat.length_toDigits_pos
  have hplain := isPlainWhole_take hd
  set ds := Nat.toDigits 10 d
  set e := x + ds.length - 1 with he
  rw [Double.Layout.position]
  split
  · -- zeros stand between the point and the digits
    refine ⟨['0'], List.replicate (-e - 1).toNat '0' ++ ds, rfl, rfl, ?_, ?_, ?_⟩
    · exact List.append_ne_nil_of_right_ne_nil _ (List.ne_nil_of_length_pos hlength)
    · intro c hc
      rcases List.mem_append.1 hc with hc | hc
      · rw [List.eq_of_mem_replicate hc]
        rfl
      · exact hdigit c hc
    · rw [← List.append_assoc, ← List.replicate_one, ← List.replicate_add, digitsValue_append,
        digitsValue_zeros, hvalue, Nat.zero_mul, Nat.zero_add, List.length_append,
        List.length_replicate]
      congr 2
      omega
  · dsimp only
    split
    · -- the digits end before the point
      refine ⟨ds ++ List.replicate (e.toNat + 1 - ds.length) '0', ['0'], rfl, ?_, by decide, ?_, ?_⟩
      · have hwhole := hplain ds.length (e.toNat + 1 - ds.length) hlength
        rwa [List.take_length] at hwhole
      · simp [isDigit]
      · rw [digitsValue_append, digitsValue_append, digitsValue_zeros, hvalue,
          List.length_replicate]
        have hx : x = (e.toNat + 1 - ds.length : Nat) := by omega
        have hzero : digitsValue ['0'] = 0 := rfl
        rw [hx, zpow_natCast, hzero]
        norm_num
        ring
    · -- the point stands among the digits
      refine ⟨ds.take (e.toNat + 1), ds.drop (e.toNat + 1), rfl, ?_, ?_, ?_, ?_⟩
      · have hwhole := hplain (e.toNat + 1) 0 (by omega)
        rwa [List.replicate_zero, List.append_nil] at hwhole
      · exact List.ne_nil_of_length_pos (by rw [List.length_drop]; omega)
      · exact fun c hc => hdigit c (List.mem_of_mem_drop hc)
      · rw [List.take_append_drop, hvalue, List.length_drop]
        congr 2
        omega

end Position

/-- Scientific text begins with a digit and has an exponent. -/
theorem scientific_spec (d : Nat) (e : Int) :
    (Double.scientific (Nat.toDigits 10 d) e).head?.any isDigit = true ∧
      'e' ∈ Double.scientific (Nat.toDigits 10 d) e := by
  obtain ⟨c, cs, hcs⟩ := List.exists_cons_of_ne_nil (Nat.toDigits_ne_nil (n := d) (b := 10))
  have hc : isDigit c = true := isDigit_of_mem_toDigits (n := d) (by simp [hcs])
  rw [Double.scientific, hcs]
  simp [hc]

theorem text_float {s : Bool} {m : Nat} {q : Int} : (Json.Number.float (.finite s m q)).text =
    String.ofList (signed s (Double.Layout.json.magnitude m q)) := by
  cases s <;> rfl

theorem magnitude_eq {m : Nat} (hm : m ≠ 0) (q : Int) {d : Double.Decimal}
    (hd : Double.shortest .toEven m q = d) {e : Int}
    (he : d.exponent + (Nat.toDigits 10 d.digits).length - 1 = e) :
    Double.Layout.json.magnitude m q =
      if -5 ≤ e ∧ e ≤ 15 then Double.Layout.json.position (Nat.toDigits 10 d.digits) e
      else Double.scientific (Nat.toDigits 10 d.digits) e := by
  subst hd he
  rw [Double.Layout.magnitude, if_neg hm]
  simp only [Double.Layout.json, Bool.and_eq_true]
  exact if_congr (and_congr decide_eq_true_iff decide_eq_true_iff) rfl rfl

/-- The text of a double spells that double, or else it has an exponent and spells no literal. -/
theorem infer_text {x : Double} (hfinite : x.isFinite = true) (hx : x.WellFormed) :
    (x.IsPositional → infer (Json.Number.float x).text = .float x) ∧
      (¬x.IsPositional → infer (Json.Number.float x).text = .string (Json.Number.float x).text ∧
        'e' ∈ (Json.Number.float x).text.toList) := by
  cases x with
  | nan => cases hfinite
  | infinity => cases hfinite
  | finite s m q =>
    have hcanonical : Double.IsCanonical m q := hx
    rw [text_float]
    by_cases hm : m = 0
    · -- zero is at the least exponent
      subst hm
      obtain rfl : q = Double.minExponent := hcanonical.2.2.2.resolve_left (by decide)
      have hzero : (Double.finite s 0 Double.minExponent).abs = 0 := by
        rw [Double.abs, Nat.cast_zero, zero_mul]
      refine ⟨fun _ => ?_, fun h => absurd (.inl hzero) h⟩
      have hvalue : Double.ofDecimal s (digitsValue ['0', '0']) (-1) =
          .finite s 0 Double.minExponent := rfl
      exact @infer_decimal s ['0'] ['0'] rfl (by decide) (by simp [isDigit]) _ hvalue rfl
    · obtain ⟨hne, hnear, -⟩ := Double.shortest_spec .toEven hm hcanonical
      have hpositional := Double.isPositional_iff s hm hcanonical rfl
      rw [magnitude_eq hm q rfl rfl]
      set d := Double.shortest .toEven m q
      constructor
      · intro hx
        rw [if_pos (hpositional.1 hx)]
        obtain ⟨whole, fraction, htext, hwhole, hfraction, hdigits, hvalue⟩ :=
          exists_position hne d.exponent
        rw [htext]
        refine infer_decimal hwhole hfraction hdigits ?_ rfl
        refine Double.ofDecimal_of_isNear hm hcanonical ?_ s
        rwa [hvalue]
      · intro hx
        rw [if_neg (mt hpositional.2 hx)]
        obtain ⟨hhead, hmem⟩ := scientific_spec d.digits
          (d.exponent + (Nat.toDigits 10 d.digits).length - 1)
        refine ⟨infer_of_mem hhead hmem rfl (by decide), ?_⟩
        rw [String.toList_ofList]
        exact mem_signed hmem

end RestSql.Value
