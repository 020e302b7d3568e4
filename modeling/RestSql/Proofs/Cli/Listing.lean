import RestSql.Cli.Report
import RestSql.Proofs.Sql.Spelling
import RestSql.Proofs.Statement.Decoding
import RestSql.Proofs.Statement.Slots

/-!
The list of bindings of a preview, with colours or without, tells which literal is bound to which
name. A painted text ends at the end of styles that no style follows, a plain literal at the end of
its line, so a text that holds line ends and ends of styles of its own cannot pass for anything
else. The text above the list ends with its line too, because no lexeme goes on with a line end: so
a whole listing tells its statement.
-/

namespace RestSql.Cli

open RestSql.Text

/-! ## Painted text -/

namespace Style

variable {start : List Char}

/-- What is resumed and ended goes on with a character other than the escape only where the text
itself does. -/
theorem exists_of_resume_append {cs rest tail : List Char} {c : Char} (hc : c ≠ '\x1b')
    (h : resume start cs ++ (finish ++ rest) = c :: tail) :
    ∃ ds, cs = c :: ds ∧ resume start ds ++ (finish ++ rest) = tail := by
  fun_cases resume start cs with
  | case1 ds => exact absurd (List.cons.inj h).1.symm hc
  | case2 d ds hd =>
    rw [resume.eq_2 _ _ _ hd] at h
    obtain ⟨rfl, htail⟩ := List.cons.inj h
    exact ⟨ds, rfl, htail⟩
  | case3 => exact absurd (List.cons.inj h).1.symm hc

/-- Where styles end, either the text ends them and the style is resumed, or the text is at its end.
-/
theorem cases_of_resume_append_finish {cs rest tail : List Char}
    (h : resume start cs ++ (finish ++ rest) = finish ++ tail) :
    (∃ ds, cs = finish ++ ds ∧ start ++ (resume start ds ++ (finish ++ rest)) = tail) ∨
      (cs = [] ∧ rest = tail) := by
  fun_cases resume start cs with
  | case1 ds =>
    rw [resume, List.append_assoc, List.append_assoc, List.append_cancel_left_eq] at h
    exact .inl ⟨ds, rfl, h⟩
  | case2 d ds hd =>
    rw [resume.eq_2 _ _ _ hd, List.cons_append] at h
    obtain ⟨rfl, h1⟩ := List.cons.inj (h : _ = '\x1b' :: '[' :: '0' :: 'm' :: tail)
    obtain ⟨es, rfl, h2⟩ := exists_of_resume_append (by decide) h1
    obtain ⟨fs, rfl, h3⟩ := exists_of_resume_append (by decide) h2
    obtain ⟨gs, rfl, -⟩ := exists_of_resume_append (by decide) h3
    exact absurd rfl (hd gs rfl)
  | case3 => exact .inr ⟨rfl, List.append_cancel_left h⟩

theorem resume_append_inj {a b r s : List Char} (hstart : start.head? = some '\x1b')
    (hr : r.head? ≠ some '\x1b') (hs : s.head? ≠ some '\x1b')
    (h : resume start a ++ (finish ++ r) = resume start b ++ (finish ++ s)) : a = b ∧ r = s := by
  -- the style begins again behind an end of styles in the text, and not behind the last one
  have hstop : ∀ {rest tail : List Char}, rest.head? ≠ some '\x1b' → start ++ tail ≠ rest := by
    rintro rest tail hrest rfl
    rw [List.head?_append, hstart] at hrest
    exact hrest rfl
  fun_induction resume start a generalizing b with
  | case1 cs ih =>
    rw [List.append_assoc, List.append_assoc] at h
    rcases cases_of_resume_append_finish h.symm with ⟨ds, rfl, htail⟩ | ⟨-, htail⟩
    · obtain ⟨rfl, hrest⟩ := ih (List.append_cancel_left htail).symm
      exact ⟨rfl, hrest⟩
    · exact absurd htail.symm (hstop hs)
  | case2 c cs hc ih =>
    -- this character begins no end of styles, so the other text begins with it too
    have hfinish : ∀ tail, c :: (resume start cs ++ (finish ++ r)) ≠ finish ++ tail := by
      intro tail he
      rw [← List.cons_append, ← resume.eq_2 _ _ _ hc] at he
      rcases cases_of_resume_append_finish he with ⟨ds, hds, -⟩ | ⟨hnil, -⟩
      · obtain ⟨rfl, rfl⟩ := List.cons.inj (hds : _ = '\x1b' :: '[' :: '0' :: 'm' :: ds)
        exact hc ds rfl rfl
      · cases hnil
    rw [List.cons_append] at h
    fun_cases resume start b with
    | case1 ds =>
      rw [resume, List.append_assoc, List.append_assoc] at h
      exact absurd h (hfinish _)
    | case2 d ds hd =>
      rw [resume.eq_2 _ _ _ hd, List.cons_append] at h
      obtain ⟨rfl, htail⟩ := List.cons.inj h
      obtain ⟨rfl, hrest⟩ := ih htail
      exact ⟨rfl, hrest⟩
    | case3 => exact absurd h (hfinish _)
  | case3 =>
    rcases cases_of_resume_append_finish h.symm with ⟨ds, -, htail⟩ | ⟨rfl, rfl⟩
    · exact absurd htail (hstop hr)
    · exact ⟨rfl, rfl⟩

theorem head?_begin (style : Style) : style.begin.head? = some '\x1b' := rfl

theorem paint_append_inj {style : Style} {a b : String} {r s : List Char}
    (hr : r.head? ≠ some '\x1b') (hs : s.head? ≠ some '\x1b')
    (h : (style.paint true a).toList ++ r = (style.paint true b).toList ++ s) : a = b ∧ r = s := by
  rw [paint, paint, if_pos rfl, if_pos rfl, String.toList_ofList, String.toList_ofList] at h
  simp only [List.append_assoc, List.append_cancel_left_eq] at h
  obtain ⟨hab, hrest⟩ := resume_append_inj style.head?_begin hr hs h
  exact ⟨String.toList_inj.1 hab, hrest⟩

theorem paint_line_inj {style : Style} {colours : Bool} {a b : String} {r s : List Char}
    (hplain : a.toList ++ '\n' :: r = b.toList ++ '\n' :: s → a = b ∧ r = s)
    (h : (style.paint colours a).toList ++ '\n' :: r =
      (style.paint colours b).toList ++ '\n' :: s) : a = b ∧ r = s := by
  cases colours with
  | true =>
    obtain ⟨hab, hrest⟩ := paint_append_inj (by simp) (by simp) h
    exact ⟨hab, List.tail_eq_of_cons_eq hrest⟩
  | false => exact hplain h

end Style

/-! ## Lines -/

def IsLabelled (p : Param) : Prop := ∀ n ∈ p.name, Binding.IsLabel n

def label (position : Nat) (p : Param) : String := p.name.getD ("#" ++ toString position)

theorem ne_blank_of_mem_label {p : Param} (hp : IsLabelled p) (position : Nat) :
    ∀ c ∈ (label position p).toList, (c != ' ') = true := by
  intro c hc
  rw [label] at hc
  cases hn : p.name with
  | none =>
    rw [hn, Option.getD_none, String.toList_append, List.mem_append, toList_toString] at hc
    rcases hc with hc | hc
    · rw [List.mem_singleton.1 hc]
      rfl
    · exact bne_iff_ne.2 (Value.ne_of_isDigit (isDigit_of_mem_toDigits hc) rfl)
  | some n =>
    rw [hn, Option.getD_some] at hc
    refine bne_iff_ne.2 ?_
    rintro rfl
    cases (hp n hn).2 _ hc

theorem name_eq_of_label_eq {p q : Param} (hp : IsLabelled p) (hq : IsLabelled q) {position : Nat}
    (h : label position p = label position q) : p.name = q.name := by
  -- no name begins as a position does
  have hposition : ∀ {n : String}, Binding.IsLabel n → "#" ++ toString position ≠ n := by
    rintro n hn rfl
    cases hn.2 '#' (by simp)
  rw [label, label] at h
  cases hpn : p.name with
  | none =>
    cases hqn : q.name with
    | none => rfl
    | some n =>
      rw [hpn, hqn] at h
      exact absurd h (hposition (hq n hqn))
  | some m =>
    cases hqn : q.name with
    | none =>
      rw [hpn, hqn] at h
      exact absurd h.symm (hposition (hp m hpn))
    | some n =>
      rw [hpn, hqn] at h
      exact congrArg some h

theorem toList_bindingLine (colours : Bool) (position : Nat) (p : Param) :
    (bindingLine colours position p).toList = ' ' :: ' ' :: ((label position p).toList ++
      ' ' :: '=' :: ' ' :: ((Style.value.paint colours p.value.literal).toList ++ ['\n'])) := by
  simp [bindingLine, label]

theorem literal_eq_of_paint {colours : Bool} {v w : Value} {r s : List Char}
    (h : (Style.value.paint colours v.literal).toList ++ '\n' :: r =
      (Style.value.paint colours w.literal).toList ++ '\n' :: s) :
    v.literal = w.literal ∧ r = s := by
  refine Style.paint_line_inj (fun hplain => ?_) h
  obtain ⟨hliteral, hrest⟩ :=
    Value.literal_append_inj (stopsAt_cons rfl r) (stopsAt_cons rfl s) hplain
  exact ⟨hliteral, List.tail_eq_of_cons_eq hrest⟩

theorem bindingLine_append_inj {colours : Bool} {position : Nat} {p q : Param} {r s : List Char}
    (hp : IsLabelled p) (hq : IsLabelled q)
    (h : (bindingLine colours position p).toList ++ r =
      (bindingLine colours position q).toList ++ s) :
    p.name = q.name ∧ p.value.literal = q.value.literal ∧ r = s := by
  rw [toList_bindingLine, toList_bindingLine] at h
  simp only [List.cons_append, List.append_assoc, List.nil_append, List.cons.injEq, true_and] at h
  have hlabel := congrArg (List.takeWhile (· != ' ')) h
  rw [takeWhile_run (ne_blank_of_mem_label hp position) (stopsAt_cons rfl _),
    takeWhile_run (ne_blank_of_mem_label hq position) (stopsAt_cons rfl _)] at hlabel
  rw [hlabel, List.append_cancel_left_eq] at h
  simp only [List.cons.injEq, true_and] at h
  exact ⟨name_eq_of_label_eq hp hq (String.toList_inj.1 hlabel), literal_eq_of_paint h⟩

/-- The same name is bound to the same value, or to numbers that are shown alike, one of them a
double. -/
def ListedAlike (p q : Param) : Prop :=
  p.name = q.name ∧ (p.value = q.value ∨ p.value.isNumber = true ∧ q.value.isNumber = true ∧
    (p.value.isFloat = true ∨ q.value.isFloat = true))

/-- Lists that read alike bind the same to the same name, line by line. -/
theorem forall₂_of_bindingLines_eq {colours : Bool} {position : Nat} {ps qs : List Param}
    (hps : ∀ p ∈ ps, IsLabelled p) (hqs : ∀ q ∈ qs, IsLabelled q)
    (h : bindingLines colours position ps = bindingLines colours position qs) :
    List.Forall₂ ListedAlike ps qs := by
  have hline : ∀ (k : Nat) (q : Param) (qs : List Param),
      bindingLines colours k (q :: qs) ≠ "" := by
    intro k q qs he
    have hlist := congrArg String.toList he
    rw [bindingLines, String.toList_append, toList_bindingLine] at hlist
    cases hlist
  induction ps generalizing position qs with
  | nil =>
    cases qs with
    | nil => exact .nil
    | cons q qs => exact absurd h.symm (hline position q qs)
  | cons p ps ih =>
    cases qs with
    | nil => exact absurd h (hline position p ps)
    | cons q qs =>
      have hlist := congrArg String.toList h
      rw [bindingLines, bindingLines, String.toList_append, String.toList_append] at hlist
      obtain ⟨hname, hliteral, hrest⟩ := bindingLine_append_inj (hps p List.mem_cons_self)
        (hqs q List.mem_cons_self) hlist
      refine .cons ⟨hname, Value.eq_or_numbers_of_literal_eq hliteral⟩ ?_
      exact ih (fun p hp => hps p (List.mem_cons_of_mem _ hp))
        (fun q hq => hqs q (List.mem_cons_of_mem _ hq)) (String.toList_inj.1 hrest)

theorem isLabelled_of_compile {c : Convention} {r : Request} {s : Statement}
    (h : r.compile c = .ok s) : ∀ p ∈ s.params, IsLabelled p := by
  intro p hp n hn
  cases hnamed : c.markers.isNamed with
  | true =>
    obtain ⟨m, hm, hlabel⟩ := (Request.names_of_isNamed h hnamed).1 p hp
    obtain rfl : m = n := Option.some.inj (hm.symm.trans hn)
    exact hlabel
  | false =>
    rw [Request.names_of_not_isNamed h hnamed p hp] at hn
    cases hn

/-! ## Whole listings -/

/-- A text is shown as one token: with anything behind it that does not begin with a quote, reading
a literal gives back the text and leaves what follows. Values that are not doubles are shown alike
only if they are equal, and a text is shown as nothing else is, doubles included. So two statements
with the same list of bindings, in colours or not, bind the same names, to the same values up to
doubles that are shown as other numbers. -/
theorem bindings_unambiguous :
    (∀ s rest : String, (∀ c ∈ rest.toList.head?, c ≠ '\x27') →
      Quoted.read? '\x27' '\x27' ((Value.string s).literal ++ rest).toList =
        some (s.toList, rest.toList)) ∧
    (∀ v w : Value, v.isFloat = false → w.isFloat = false → v.literal = w.literal → v = w) ∧
    (∀ (v : Value) (s : String), v.literal = (Value.string s).literal → v = .string s) ∧
    ∀ (colours : Bool) (c c' : Convention) (r r' : Request) (s s' : Statement),
      r.compile c = .ok s → r'.compile c' = .ok s' →
      bindingLines colours 1 s.params = bindingLines colours 1 s'.params →
      List.Forall₂ (fun p q => p.name = q.name ∧ (p.value = q.value ∨
        p.value.isNumber = true ∧ q.value.isNumber = true ∧
          (p.value.isFloat = true ∨ q.value.isFloat = true))) s.params s'.params := by
  refine ⟨fun s rest hr => ?_, fun v w hv hw h => ?_, fun v s h => Value.eq_string_of_literal_eq h,
    fun colours c c' r r' s s' hs hs' h => ?_⟩
  · rw [String.toList_append, Value.toList_literal_string]
    exact Quoted.read?_write_append _ _ hr
  · rcases Value.eq_or_numbers_of_literal_eq h with heq | ⟨-, -, hfloat | hfloat⟩
    · exact heq
    · exact absurd hfloat (by simp [hv])
    · exact absurd hfloat (by simp [hw])
  · exact forall₂_of_bindingLines_eq (isLabelled_of_compile hs) (isLabelled_of_compile hs') h

/-- A text that would go on as a line of its own, and a whole double in the place of an integer. -/
theorem bindings_unambiguous_hostile :
    let row (v : Value) : Row := ⟨[("a", v), ("b", .string "\n  #2 = NULL")], by simp, by simp⟩
    let insert (v : Value) : Request := .insert ⟨"dbo", "t"⟩ (row v)
    Quoted.read? '\x27' '\x27' "\x27O\x27\x27Brien\x27\x27\x27\n  #2 = NULL\n".toList =
        some ("O\x27Brien\x27".toList, "\n  #2 = NULL\n".toList) ∧
      ∃ s s', (insert (.int 5)).compile .standard = .ok s ∧
        (insert (.float (.ofNat 5))).compile .standard = .ok s' ∧
        bindingLines true 1 s.params = bindingLines true 1 s'.params ∧
        List.Forall₂ (fun p q => p.name = q.name ∧ (p.value = q.value ∨
          p.value.isNumber = true ∧ q.value.isNumber = true ∧
            (p.value.isFloat = true ∨ q.value.isFloat = true))) s.params s'.params := by
  intro row insert
  obtain ⟨hread, -, -, hlist⟩ := bindings_unambiguous
  have hshown : bindingLines true 1 [⟨none, .int 5⟩, ⟨none, .string "\n  #2 = NULL"⟩] =
      bindingLines true 1 [⟨none, .float (.ofNat 5)⟩, ⟨none, .string "\n  #2 = NULL"⟩] := by
    decide +kernel
  exact ⟨hread "O\x27Brien\x27" "\n  #2 = NULL\n" (by simp), _, _, rfl, rfl, hshown,
    hlist true .standard .standard (insert (.int 5)) (insert (.float (.ofNat 5))) _ _ rfl rfl
      hshown⟩

end RestSql.Cli
