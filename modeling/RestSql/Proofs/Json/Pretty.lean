import RestSql.Proofs.Json.Numerals

/-!
Reading back text in lines. On every level a value is read from its lines, an array from its items
and an object from its members; blanks between them are skipped.
-/

namespace RestSql.Json

open RestSql.Text (StopsAt)
open Written (skipBlank value? items? members?)

/-- On every level the text of the value is read as the written value, before anything that does not
go on with a numeral. -/
def ReadInLines (v : Json) (w : Written) : Prop :=
  ∀ level fuel rest, (prettyChars level v).length ≤ fuel → StopsAt isNumeralChar rest →
    value? fuel (prettyChars level v ++ rest) = some (w, rest)

theorem exists_fuel {cs : List Char} {fuel : Nat} (hne : cs ≠ []) (h : cs.length ≤ fuel) :
    ∃ n, fuel = n + 1 :=
  Nat.exists_eq_add_one.2 (Nat.lt_of_lt_of_le (List.length_pos_of_ne_nil hne) h)

/-! ## Values on one line -/

theorem readInLines_null : ReadInLines .null .null := by
  intro level fuel rest hfuel _
  obtain ⟨n, rfl⟩ := exists_fuel (by simp [prettyChars, chars]) hfuel
  rfl

theorem readInLines_bool (b : Bool) : ReadInLines (.bool b) (.bool b) := by
  intro level fuel rest hfuel _
  cases b with
  | true =>
    obtain ⟨n, rfl⟩ := exists_fuel (by simp [prettyChars, chars]) hfuel
    rfl
  | false =>
    obtain ⟨n, rfl⟩ := exists_fuel (by simp [prettyChars, chars]) hfuel
    rfl

theorem readInLines_string {s : String} {ls : List Letter} (h : SpelledBy s ls) :
    ReadInLines (.string s) (.string ls) :=
  fun _ fuel rest hfuel _ => readAs_string h fuel rest hfuel

theorem readInLines_number {k : Number} {n : Numeral} (hn : n.IsProper)
    (h : k.text.toList = n.chars) : ReadInLines (.number k) (.number n) := by
  intro level fuel rest hfuel hr
  obtain ⟨c, cs, hcs, -⟩ := n.exists_chars_eq hn
  have htext : prettyChars level (.number k) = n.chars := h
  rw [htext] at hfuel ⊢
  obtain ⟨m, rfl⟩ := exists_fuel (by simp [hcs]) hfuel
  exact n.value?_chars hn hr m

/-! ## Lines -/

theorem skipBlank_newline (level : Nat) (cs : List Char) :
    skipBlank (newline level ++ cs) = skipBlank cs := by
  have hblank : ∀ c ∈ newline level, Written.isBlank c = true := by
    intro c hc
    rcases List.mem_cons.1 hc with rfl | hc
    · rfl
    · rw [List.eq_of_mem_replicate hc]
      rfl
  exact List.dropWhile_append_of_pos hblank

theorem value?_newline (fuel level : Nat) (cs : List Char) :
    value? fuel (newline level ++ cs) = value? fuel cs := by
  cases fuel with
  | zero => rfl
  | succ fuel => rw [value?, value?, skipBlank_newline]

theorem stopsAt_newline (level : Nat) (cs : List Char) :
    StopsAt isNumeralChar (newline level ++ cs) := by
  intro c hc
  obtain rfl : '\n' = c := by simpa [newline] using hc
  rfl

theorem stopsAt_comma (cs : List Char) : StopsAt isNumeralChar (',' :: cs) := by
  intro c hc
  obtain rfl : ',' = c := by simpa using hc
  rfl

/-! ## Arrays -/

theorem prettyItems_cons_cons (level : Nat) (v next : Json) (vs : List Json) :
    prettyItems level (v :: next :: vs) =
      prettyChars level v ++ ',' :: (newline level ++ prettyItems level (next :: vs)) := by
  simp [prettyItems]

/-- Items are read one by one up to the closing bracket. -/
theorem items?_prettyItems {vs : List Json} {ws : List Written}
    (h : List.Forall₂ ReadInLines vs ws) (hne : vs ≠ []) (level level' : Nat) (rest : List Char) :
    ∀ fuel, (prettyItems level vs).length < fuel →
      items? fuel (newline level ++ (prettyItems level vs ++ (newline level' ++ ']' :: rest))) =
        some (ws, rest) := by
  induction h with
  | nil => exact absurd rfl hne
  | @cons v w vs ws hv hvs ih =>
    intro fuel hfuel
    obtain ⟨n, rfl⟩ : ∃ n, fuel = n + 1 := Nat.exists_eq_add_one.2 (Nat.zero_lt_of_lt hfuel)
    -- the last item leaves the bracket, any other a comma and the items behind it
    cases hvs with
    | nil =>
      have hlast := hv level n (newline level' ++ ']' :: rest) (Nat.lt_succ_iff.1 hfuel)
        (stopsAt_newline _ _)
      rw [items?, prettyItems, value?_newline, hlast]
      simp only [skipBlank_newline]
      rfl
    | @cons next w' vs ws hnext hvs =>
      rw [prettyItems_cons_cons] at hfuel ⊢
      simp only [List.length_append, List.length_cons] at hfuel
      have hothers := ih (List.cons_ne_nil _ _) n (by omega)
      have hfirst := hv level n (',' :: (newline level ++ (prettyItems level (next :: vs) ++
        (newline level' ++ ']' :: rest)))) (by omega) (stopsAt_comma _)
      rw [items?, value?_newline, List.append_assoc, List.cons_append, List.append_assoc, hfirst]
      simp [skipBlank, Written.isBlank, hothers]

theorem items?_of_closing {cs rest : List Char} (h : skipBlank cs = ']' :: rest) (fuel : Nat) :
    items? fuel cs = none := by
  cases fuel with
  | zero => rfl
  | succ fuel =>
    have hvalue : value? fuel cs = none := by
      cases fuel with
      | zero => rfl
      | succ fuel =>
        rw [value?, h]
        rfl
    rw [items?, hvalue]

theorem value?_of_items? {fuel : Nat} {cs rest : List Char} {ws : List Written}
    (h : items? fuel cs = some (ws, rest)) :
    value? (fuel + 1) ('[' :: cs) = some (.array ws, rest) := by
  have hskip : skipBlank ('[' :: cs) = '[' :: cs := rfl
  simp only [value?, hskip]
  split
  · rename_i hclosing
    rw [items?_of_closing hclosing] at h
    cases h
  · rw [h, Option.map_some]

theorem readInLines_array {vs : List Json} {ws : List Written}
    (h : List.Forall₂ ReadInLines vs ws) : ReadInLines (.array vs) (.array ws) := by
  intro level fuel rest hfuel _
  cases h with
  | nil =>
    obtain ⟨n, rfl⟩ := exists_fuel (by simp [prettyChars]) hfuel
    rfl
  | @cons v w vs ws hv hvs =>
    have htext : prettyChars level (.array (v :: vs)) ++ rest =
        '[' :: (newline (level + 1) ++ (prettyItems (level + 1) (v :: vs) ++
          (newline level ++ ']' :: rest))) := by
      simp [prettyChars]
    simp only [prettyChars, List.length_cons, List.length_append] at hfuel
    obtain ⟨n, rfl⟩ : ∃ n, fuel = n + 1 := Nat.exists_eq_add_one.2 (by omega)
    rw [htext]
    exact value?_of_items? (items?_prettyItems (.cons hv hvs) (List.cons_ne_nil v vs) _ _ rest n
      (by omega))

/-! ## Objects -/

def MemberInLines (m : String × Json) (w : List Letter × Written) : Prop :=
  SpelledBy m.1 w.1 ∧ ReadInLines m.2 w.2

theorem prettyMembers_cons_cons (level : Nat) (m next : String × Json)
    (ms : List (String × Json)) :
    prettyMembers level (m :: next :: ms) = quoted m.1 ++ ':' :: ' ' :: (prettyChars level m.2 ++
      ',' :: (newline level ++ prettyMembers level (next :: ms))) := by
  simp [prettyMembers]

theorem value?_blank (fuel : Nat) (cs : List Char) : value? fuel (' ' :: cs) = value? fuel cs := by
  have hskip : skipBlank (' ' :: cs) = skipBlank cs := rfl
  cases fuel with
  | zero => rfl
  | succ fuel => rw [value?, value?, hskip]

/-- A member is the last one before the closing brace on its line, or others follow its comma. -/
theorem members?_line {m : String × Json} {w : List Letter × Written} (h : MemberInLines m w)
    {level fuel : Nat} (hfuel : (prettyChars level m.2).length ≤ fuel) (rest : List Char) :
    (∀ level', members? (fuel + 1) (newline level ++ (quoted m.1 ++ ':' :: ' ' ::
        (prettyChars level m.2 ++ (newline level' ++ '}' :: rest)))) = some ([w], rest)) ∧
      ∀ tail ws, members? fuel tail = some (ws, rest) →
        members? (fuel + 1) (newline level ++ (quoted m.1 ++ ':' :: ' ' ::
          (prettyChars level m.2 ++ ',' :: tail))) = some (w :: ws, rest) := by
  obtain ⟨⟨-, hname⟩, hvalue⟩ := h
  have hcolon : ∀ cs, skipBlank (':' :: ' ' :: cs) = ':' :: ' ' :: cs := fun _ => rfl
  refine ⟨fun level' => ?_, fun tail ws htail => ?_⟩
  · obtain ⟨body, hbody, hread⟩ := hname (':' :: ' ' :: (prettyChars level m.2 ++
      (newline level' ++ '}' :: rest)))
    have hlast := hvalue level fuel (newline level' ++ '}' :: rest) hfuel (stopsAt_newline _ _)
    have hbrace : skipBlank ('}' :: rest) = '}' :: rest := rfl
    rw [hbody, members?, skipBlank_newline, skipBlank_quote]
    simp only [hread, hcolon, value?_blank, hlast, skipBlank_newline, hbrace]
  · obtain ⟨body, hbody, hread⟩ := hname (':' :: ' ' :: (prettyChars level m.2 ++ ',' :: tail))
    have hfirst := hvalue level fuel (',' :: tail) hfuel (stopsAt_comma tail)
    have hcomma : skipBlank (',' :: tail) = ',' :: tail := rfl
    rw [hbody, members?, skipBlank_newline, skipBlank_quote]
    simp only [hread, hcolon, value?_blank, hfirst, hcomma, htail, Option.map_some]

/-- Members are read one by one up to the closing brace. -/
theorem members?_prettyMembers {ms : List (String × Json)} {ws : List (List Letter × Written)}
    (h : List.Forall₂ MemberInLines ms ws) (hne : ms ≠ []) (level level' : Nat)
    (rest : List Char) :
    ∀ fuel, (prettyMembers level ms).length ≤ fuel →
      members? fuel (newline level ++ (prettyMembers level ms ++ (newline level' ++ '}' :: rest))) =
        some (ws, rest) := by
  induction h with
  | nil => exact absurd rfl hne
  | @cons m w ms ws hm hms ih =>
    intro fuel hfuel
    cases hms with
    | nil =>
      simp only [prettyMembers, List.length_append, List.length_cons] at hfuel
      obtain ⟨n, rfl⟩ : ∃ n, fuel = n + 1 := Nat.exists_eq_add_one.2 (by omega)
      have hlast := (members?_line hm (show (prettyChars level m.2).length ≤ n by omega) rest).1
      rw [prettyMembers, List.append_assoc, List.cons_append, List.cons_append, hlast]
    | @cons next w' ms ws hnext hms =>
      rw [prettyMembers_cons_cons] at hfuel ⊢
      simp only [List.length_append, List.length_cons] at hfuel
      obtain ⟨n, rfl⟩ : ∃ n, fuel = n + 1 := Nat.exists_eq_add_one.2 (by omega)
      have hothers := ih (List.cons_ne_nil _ _) n (by omega)
      have hall := (members?_line hm (show (prettyChars level m.2).length ≤ n by omega) rest).2
        _ _ hothers
      rw [List.append_assoc, List.cons_append, List.cons_append, List.append_assoc,
        List.cons_append, List.append_assoc, hall]

theorem value?_of_members? {fuel : Nat} {cs rest : List Char} {ws : List (List Letter × Written)}
    (h : members? fuel cs = some (ws, rest)) :
    value? (fuel + 1) ('{' :: cs) = some (.object ws, rest) := by
  have hskip : skipBlank ('{' :: cs) = '{' :: cs := rfl
  simp only [value?, hskip]
  split
  · -- no member begins with a closing brace
    rename_i hclosing
    cases fuel with
    | zero => cases h
    | succ fuel =>
      rw [members?, hclosing] at h
      cases h
  · rw [h, Option.map_some]

theorem readInLines_object {ms : List (String × Json)} {ws : List (List Letter × Written)}
    (h : List.Forall₂ MemberInLines ms ws) : ReadInLines (.object ms) (.object ws) := by
  intro level fuel rest hfuel _
  cases h with
  | nil =>
    obtain ⟨n, rfl⟩ := exists_fuel (by simp [prettyChars]) hfuel
    rfl
  | @cons m w ms ws hm hms =>
    have htext : prettyChars level (.object (m :: ms)) ++ rest =
        '{' :: (newline (level + 1) ++ (prettyMembers (level + 1) (m :: ms) ++
          (newline level ++ '}' :: rest))) := by
      simp [prettyChars]
    simp only [prettyChars, List.length_cons, List.length_append] at hfuel
    obtain ⟨n, rfl⟩ : ∃ n, fuel = n + 1 := Nat.exists_eq_add_one.2 (by omega)
    rw [htext]
    exact value?_of_members? (members?_prettyMembers (.cons hm hms) (List.cons_ne_nil m ms) _ _ rest
      n (by omega))

/-- The lines of a value, and a line break behind them, are read as the written value. -/
theorem ofText?_pretty {v : Json} {w : Written} (h : ReadInLines v w) :
    Written.ofText? (pretty v) = some w ∧ Written.ofText? (pretty v ++ "\n") = some w := by
  have hread : ∀ rest, StopsAt isNumeralChar rest → skipBlank rest = [] →
      Written.ofText? (String.ofList (prettyChars 0 v ++ rest)) = some w := by
    intro rest hr hblank
    have hvalue := h 0 (2 * (prettyChars 0 v ++ rest).length + 2) rest
      (by rw [List.length_append]; omega) hr
    simp only [Written.ofText?, String.toList_ofList, hvalue, hblank]
    rfl
  constructor
  · have hend := hread [] (fun c hc => by cases hc) rfl
    rwa [List.append_nil] at hend
  · have hend := hread ['\n'] (stopsAt_newline 0 []) rfl
    rwa [String.ofList_append] at hend

theorem ofText?_number {k : Number} {n : Numeral} (h : ReadInLines (.number k) (.number n)) :
    ofText? k.text = n.value?.map .number := by
  have hpretty : pretty (.number k) = k.text := String.ofList_toList
  have hdepth : (Written.number n).depth ≤ Written.maxDepth := Nat.zero_le _
  rw [← hpretty, ofText?, (ofText?_pretty h).1, Option.bind_some, Written.toJson?, if_pos hdepth,
    Written.meaning?]

end RestSql.Json
