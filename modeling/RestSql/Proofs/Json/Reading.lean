import Mathlib.Data.List.Forall2
import RestSql.Json.Meaning
import RestSql.Json.Printer
import RestSql.Text.Blank

/-!
Reading back compact text. Every string is read back from its quoted form, and an object from its
members, whatever follows; the members are found in the order in which they were written.
-/

namespace RestSql.Json

open RestSql.Text (hexValue?)

/-! ## Strings -/

/-- An escape that is no half of a pair stands for its own code point. -/
theorem lettersText?_unit {code : Nat} (h : code < 0xD800) (ls : List Letter) :
    lettersText? (.unit code :: ls) = (lettersText? ls).map (Char.ofNat code :: ·) := by
  have hhigh : isHighSurrogate code = false := by
    simp only [isHighSurrogate, Bool.and_eq_false_iff, decide_eq_false_iff_not]
    omega
  have hlow : isLowSurrogate code = false := by
    simp only [isLowSurrogate, Bool.and_eq_false_iff, decide_eq_false_iff_not]
    omega
  cases ls with
  | nil => simp [lettersText?, hhigh, hlow]
  | cons l ls => cases l <;> simp [lettersText?, hhigh, hlow]

theorem hexValue?_hexChar :
    ∀ n < 32, hexValue? ['0', '0', hexChar (n / 16), hexChar (n % 16)] = some n := by
  decide

/-- A character is escaped by one letter or by four digits, or it stands for itself. -/
theorem escaped_cases (c : Char) :
    (∃ e, e ≠ 'u' ∧ Written.shortEscape? e = some c ∧ escaped c = ['\\', e]) ∨
      (c.toNat < 32 ∧
        escaped c = ['\\', 'u', '0', '0', hexChar (c.toNat / 16), hexChar (c.toNat % 16)]) ∨
      (c ≠ '\x22' ∧ c ≠ '\\' ∧ ¬c < ' ' ∧ escaped c = [c]) := by
  by_cases hquote : c = '\x22'
  · exact .inl ⟨'\x22', by decide, by rw [hquote]; rfl, by rw [hquote]; rfl⟩
  by_cases hbackslash : c = '\\'
  · exact .inl ⟨'\\', by decide, by rw [hbackslash]; rfl, by rw [hbackslash]; rfl⟩
  by_cases hb : c = '\x08'
  · exact .inl ⟨'b', by decide, by rw [hb]; rfl, by rw [hb]; rfl⟩
  by_cases hf : c = '\x0c'
  · exact .inl ⟨'f', by decide, by rw [hf]; rfl, by rw [hf]; rfl⟩
  by_cases hn : c = '\n'
  · exact .inl ⟨'n', by decide, by rw [hn]; rfl, by rw [hn]; rfl⟩
  by_cases hr : c = '\r'
  · exact .inl ⟨'r', by decide, by rw [hr]; rfl, by rw [hr]; rfl⟩
  by_cases ht : c = '\t'
  · exact .inl ⟨'t', by decide, by rw [ht]; rfl, by rw [ht]; rfl⟩
  have hescaped : escaped c = if c < ' ' then
      ['\\', 'u', '0', '0', hexChar (c.toNat / 16), hexChar (c.toNat % 16)] else [c] := by
    rw [escaped, if_neg hquote, if_neg hbackslash, if_neg hb, if_neg hf, if_neg hn, if_neg hr,
      if_neg ht]
  by_cases hcontrol : c < ' '
  · exact .inr (.inl ⟨hcontrol, by rw [hescaped, if_pos hcontrol]⟩)
  · exact .inr (.inr ⟨hquote, hbackslash, hcontrol, by rw [hescaped, if_neg hcontrol]⟩)

theorem exists_letter (c : Char) :
    ∃ l, (∀ ls, lettersText? (l :: ls) = (lettersText? ls).map (c :: ·)) ∧
      ∀ cs, Written.letters? (escaped c ++ cs) =
        (Written.letters? cs).map fun p => (l :: p.1, p.2) := by
  rcases escaped_cases c with ⟨e, hu, he, hescaped⟩ | ⟨hlt, hescaped⟩ |
    ⟨hquote, hbackslash, hcontrol, hescaped⟩
  · refine ⟨.char c, fun ls => rfl, fun cs => ?_⟩
    simp [hescaped, Written.letters?, hu, he]
  · refine ⟨.unit c.toNat, fun ls => ?_, fun cs => ?_⟩
    · rw [lettersText?_unit (by omega), Char.ofNat_toNat]
    · simp [hescaped, Written.letters?, hexValue?_hexChar c.toNat hlt]
  · refine ⟨.char c, fun ls => rfl, fun cs => ?_⟩
    simp [hescaped, Written.letters?, hquote, hbackslash, hcontrol]

/-- The letters mean the text, and its quoted form is read as these letters. -/
def SpelledBy (s : String) (ls : List Letter) : Prop :=
  letters ls = some s ∧ ∀ rest, ∃ body, quoted s ++ rest = '\x22' :: body ∧
    Written.letters? body = some (ls, rest)

theorem exists_spelledBy (s : String) : ∃ ls, SpelledBy s ls := by
  have hchars : ∀ cs : List Char, ∃ ls, lettersText? ls = some cs ∧
      ∀ rest, Written.letters? (cs.flatMap escaped ++ '\x22' :: rest) = some (ls, rest) := by
    intro cs
    induction cs with
    | nil => exact ⟨[], rfl, fun rest => rfl⟩
    | cons c cs ih =>
      obtain ⟨ls, htext, hread⟩ := ih
      obtain ⟨l, hl, hc⟩ := exists_letter c
      refine ⟨l :: ls, by rw [hl, htext, Option.map_some], fun rest => ?_⟩
      rw [List.flatMap_cons, List.append_assoc, hc, hread, Option.map_some]
  obtain ⟨ls, htext, hread⟩ := hchars s.toList
  refine ⟨ls, by rw [letters, htext, Option.map_some, String.ofList_toList], fun rest => ?_⟩
  exact ⟨s.toList.flatMap escaped ++ '\x22' :: rest, by simp [quoted], hread rest⟩

/-! ## Strings and objects as values -/

open Written (skipBlank value? members?)

/-- The text is read as the written value, whatever follows, if the fuel is as long as the text. -/
def ReadAs (cs : List Char) (w : Written) : Prop :=
  ∀ fuel rest, cs.length ≤ fuel → value? fuel (cs ++ rest) = some (w, rest)

theorem skipBlank_quote (cs : List Char) : skipBlank ('\x22' :: cs) = '\x22' :: cs := rfl

theorem readAs_string {s : String} {ls : List Letter} (h : SpelledBy s ls) :
    ReadAs (chars (.string s)) (.string ls) := by
  intro fuel rest hfuel
  obtain ⟨n, rfl⟩ : ∃ n, fuel = n + 1 :=
    Nat.exists_eq_add_one.2 (Nat.lt_of_lt_of_le (by simp [chars, quoted]) hfuel)
  obtain ⟨body, hbody, hread⟩ := h.2 rest
  rw [chars, hbody, value?, skipBlank_quote]
  simp [hread]

def MemberReadAs (m : String × Json) (w : List Letter × Written) : Prop :=
  SpelledBy m.1 w.1 ∧ ReadAs (chars m.2) w.2

/-- A member is the last one before the closing brace, or others follow its comma. -/
theorem members?_member {m : String × Json} {w : List Letter × Written} (h : MemberReadAs m w)
    {fuel : Nat} (hfuel : (chars m.2).length ≤ fuel) (rest : List Char) :
    members? (fuel + 1) (quoted m.1 ++ ':' :: (chars m.2 ++ '}' :: rest)) = some ([w], rest) ∧
      ∀ tail ws, members? fuel tail = some (ws, rest) →
        members? (fuel + 1) (quoted m.1 ++ ':' :: (chars m.2 ++ ',' :: tail)) =
          some (w :: ws, rest) := by
  obtain ⟨⟨-, hname⟩, hvalue⟩ := h
  refine ⟨?_, fun tail ws htail => ?_⟩
  · obtain ⟨body, hbody, hread⟩ := hname (':' :: (chars m.2 ++ '}' :: rest))
    have hlast := hvalue fuel ('}' :: rest) hfuel
    rw [hbody, members?, skipBlank_quote]
    simp [hread, skipBlank, Written.isBlank, hlast]
  · obtain ⟨body, hbody, hread⟩ := hname (':' :: (chars m.2 ++ ',' :: tail))
    have hfirst := hvalue fuel (',' :: tail) hfuel
    rw [hbody, members?, skipBlank_quote]
    simp [hread, skipBlank, Written.isBlank, hfirst, htail]

theorem charsMembers_cons_cons (m next : String × Json) (ms : List (String × Json)) :
    charsMembers (m :: next :: ms) =
      quoted m.1 ++ ':' :: (chars m.2 ++ ',' :: charsMembers (next :: ms)) := by
  simp [charsMembers]

theorem exists_charsMembers_eq (m : String × Json) (ms : List (String × Json)) :
    ∃ cs, charsMembers (m :: ms) = '\x22' :: cs := by
  cases ms with
  | nil => exact ⟨_, rfl⟩
  | cons next ms => exact ⟨_, rfl⟩

/-- Members are read one by one up to the closing brace. -/
theorem members?_charsMembers {ms : List (String × Json)} {ws : List (List Letter × Written)}
    (h : List.Forall₂ MemberReadAs ms ws) (hne : ms ≠ []) :
    ∀ fuel rest, (charsMembers ms).length ≤ fuel →
      members? fuel (charsMembers ms ++ '}' :: rest) = some (ws, rest) := by
  induction h with
  | nil => exact absurd rfl hne
  | @cons m w ms ws hm hms ih =>
    intro fuel rest hfuel
    -- the last member leaves the brace, any other a comma and the members behind it
    cases hms with
    | nil =>
      simp only [charsMembers, List.length_append, List.length_cons] at hfuel
      obtain ⟨n, rfl⟩ : ∃ n, fuel = n + 1 := Nat.exists_eq_add_one.2 (by omega)
      have hlast := (members?_member hm (show (chars m.2).length ≤ n by omega) rest).1
      rw [charsMembers, List.append_assoc, List.cons_append, hlast]
    | @cons next w' ms ws _ _ =>
      simp only [charsMembers_cons_cons, List.length_append, List.length_cons] at hfuel
      obtain ⟨n, rfl⟩ : ∃ n, fuel = n + 1 := Nat.exists_eq_add_one.2 (by omega)
      have hothers := ih (List.cons_ne_nil _ _) n rest (by omega)
      have hall := (members?_member hm (show (chars m.2).length ≤ n by omega) rest).2 _ _ hothers
      rw [charsMembers_cons_cons, List.append_assoc, List.cons_append, List.append_assoc,
        List.cons_append, hall]

theorem readAs_object {ms : List (String × Json)} {ws : List (List Letter × Written)}
    (h : List.Forall₂ MemberReadAs ms ws) : ReadAs (chars (.object ms)) (.object ws) := by
  intro fuel rest hfuel
  simp only [chars, List.length_append, List.length_cons] at hfuel
  obtain ⟨n, rfl⟩ : ∃ n, fuel = n + 1 := Nat.exists_eq_add_one.2 (by omega)
  rw [chars, List.cons_append, List.append_assoc, List.singleton_append]
  cases h with
  | nil => rfl
  | @cons m w ms ws hm hms =>
    have hmembers := members?_charsMembers (.cons hm hms) (List.cons_ne_nil _ _) n rest (by omega)
    obtain ⟨cs, hcs⟩ := exists_charsMembers_eq m ms
    rw [hcs, List.cons_append] at hmembers ⊢
    rw [value?]
    simp [skipBlank, Written.isBlank, hmembers]

theorem ofText?_compact {v : Json} {w : Written} (h : ReadAs (chars v) w) :
    Written.ofText? (compact v) = some w := by
  have hread := h (2 * (chars v).length + 2) [] (by omega)
  rw [List.append_nil] at hread
  simp [Written.ofText?, compact, hread, skipBlank]

/-! ## Telling objects from other texts -/

theorem head?_skipBlank_of_object {fuel : Nat} {cs rest : List Char}
    {ws : List (List Letter × Written)} (h : value? fuel cs = some (.object ws, rest)) :
    (skipBlank cs).head? = some '{' := by
  cases fuel with
  | zero => simp [value?] at h
  | succ fuel =>
    rw [value?] at h
    split at h
    case h_5 => split at h <;> simp at h
    case h_6 hbrace => rw [hbrace, List.head?_cons]
    all_goals simp at h

theorem isBlank_of_writtenIsBlank {c : Char} (h : Written.isBlank c = true) :
    RestSql.Text.isBlank c = true := by
  simp only [Written.isBlank, Bool.or_eq_true, beq_iff_eq] at h
  rcases h with ((rfl | rfl) | rfl) | rfl <;> decide

theorem find?_of_object {s : String} {ws : List (List Letter × Written)}
    (h : Written.ofText? s = some (.object ws)) :
    s.toList.find? (!RestSql.Text.isBlank ·) = some '{' := by
  have hhead : (skipBlank s.toList).head? = some '{' := by
    simp only [Written.ofText?] at h
    split at h
    · rename_i w rest hread
      obtain ⟨-, rfl⟩ : (skipBlank rest).isEmpty = true ∧ w = .object ws := by simpa using h
      exact head?_skipBlank_of_object hread
    · cases h
  rw [skipBlank] at hhead
  generalize s.toList = cs at hhead
  induction cs with
  | nil => cases hhead
  | cons c cs ih =>
    rw [List.dropWhile_cons] at hhead
    rw [List.find?_cons]
    split at hhead
    · rename_i hblank
      simpa [isBlank_of_writtenIsBlank hblank] using ih hhead
    · obtain rfl : c = '{' := by simpa using hhead
      rfl

end RestSql.Json
