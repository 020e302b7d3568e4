import Mathlib.Data.List.Chain
import RestSql.Proofs.Text.Reading
import RestSql.Statement.Binding

/-!
The lexemes of statement text: quoted identifiers, markers, numbers, keywords and signs. A split of
a text is a list of lexemes that spell it, each of them as long as it can be. Reading lexeme by
lexeme finds the split of a text, so a text has one at most.
-/

namespace RestSql

open RestSql.Text

/-- What stands for a marker is a parameter: its characters in text, a value where it is resolved.
-/
inductive Lexeme (α : Type)
  | ident (name : String)
  | marker (slot : α)
  | number (n : Nat)
  | word (w : String)
  | sign (c : Char)
deriving DecidableEq, Repr

namespace MarkerStyle

def opening : MarkerStyle → List Char
  | positional => ['?']
  | dollar => ['$']
  | atIndexed => ['@', 'p']
  | namedAt => ['@']
  | namedColon => [':']

def continues : MarkerStyle → Char → Bool
  | positional => fun _ => false
  | dollar | atIndexed => isDigit
  | namedAt | namedColon => Binding.isNameChar

/-- A positional marker is its opening alone, and any other has something after it. -/
def IsMarker (style : MarkerStyle) (cs : List Char) : Prop :=
  ∃ tail, cs = style.opening ++ tail ∧ (∀ c ∈ tail, style.continues c = true) ∧
    (tail = [] ↔ style = positional)

def next? (style : MarkerStyle) (cs : List Char) : Option (List Char × List Char) :=
  if style.opening.isPrefixOf cs then
    let rest := cs.drop style.opening.length
    let tail := rest.takeWhile style.continues
    if tail.isEmpty && style != positional then none
    else some (style.opening ++ tail, rest.dropWhile style.continues)
  else none

theorem opening_ne_nil (style : MarkerStyle) : style.opening ≠ [] := by
  cases style <;> simp [opening]

theorem IsMarker.ne_nil {style : MarkerStyle} {cs : List Char} (h : style.IsMarker cs) :
    cs ≠ [] := by
  obtain ⟨tail, rfl, -⟩ := h
  simp [style.opening_ne_nil]

theorem next?_append {style : MarkerStyle} {cs rest : List Char} (h : style.IsMarker cs)
    (hr : StopsAt style.continues rest) : style.next? (cs ++ rest) = some (cs, rest) := by
  obtain ⟨tail, rfl, ht, he⟩ := h
  have hp : style.opening.isPrefixOf (style.opening ++ tail ++ rest) = true := by
    rw [List.isPrefixOf_iff_prefix, List.append_assoc]
    exact List.prefix_append _ _
  have hd : (style.opening ++ tail ++ rest).drop style.opening.length = tail ++ rest := by
    rw [List.append_assoc, List.drop_left]
  have hn : (tail.isEmpty && style != positional) = false := by
    by_cases hs : style = positional
    · simp [hs]
    · simp [hs, he]
  rw [next?, if_pos hp]
  simp only [hd, takeWhile_run ht hr, dropWhile_run ht hr, hn]
  rfl

theorem length_lt_of_next? {style : MarkerStyle} {cs : List Char} {p : List Char × List Char}
    (h : style.next? cs = some p) : p.2.length < cs.length := by
  unfold next? at h
  split at h
  · rename_i hp
    have h1 := (List.isPrefixOf_iff_prefix.1 hp).length_le
    have h2 := List.length_pos_iff.2 style.opening_ne_nil
    have h3 := (List.dropWhile_suffix style.continues (l := cs.drop style.opening.length)).length_le
    simp only at h
    split at h
    · simp at h
    · obtain rfl := Option.some.inj h
      rw [List.length_drop] at h3
      show (List.dropWhile _ _).length < cs.length
      omega
  · simp at h

end MarkerStyle

namespace Lexeme

def words : List String :=
  ["SELECT", "TOP", "FROM", "WHERE", "AND", "ORDER", "BY", "ASC", "DESC", "NULL", "LIMIT", "OFFSET",
    "ROWS", "FETCH", "NEXT", "ONLY", "INSERT", "INTO", "DEFAULT", "VALUES", "UPDATE", "SET",
    "DELETE", "LIKE", "NOT", "IN", "call"]

def signs : List Char := [' ', '.', ',', '(', ')', '*', '=', '<', '>', '\x7b', '\x7d']

def isLetter (c : Char) : Bool := ('a' ≤ c && c ≤ 'z') || ('A' ≤ c && c ≤ 'Z')

def chars (d : Dialect) : Lexeme (List Char) → List Char
  | ident name => Quoted.write d.delimiters.1 d.delimiters.2 name.toList
  | marker cs => cs
  | number n => Nat.toDigits 10 n
  | word w => w.toList
  | sign c => [c]

/-- Keywords and signs are those of statements, and markers those of the style. -/
def Valid (style : MarkerStyle) : Lexeme (List Char) → Prop
  | ident _ | number _ => True
  | marker cs => style.IsMarker cs
  | word w => w ∈ words
  | sign c => c ∈ signs

/-- Whether the lexeme would be longer with this character behind it. A delimiter behind an
identifier would double the closing one. -/
def extends? (c : Convention) : Lexeme (List Char) → Char → Bool
  | ident _ => fun ch => ch == c.dialect.delimiters.2
  | marker _ => c.markers.continues
  | number _ => isDigit
  | word _ => isLetter
  | sign _ => fun _ => false

/-- Reads the longest lexeme at the start. -/
def next? (c : Convention) : List Char → Option (Lexeme (List Char) × List Char)
  | [] => none
  | ch :: cs =>
    if ch = c.dialect.delimiters.1 then
      (Quoted.readBody? c.dialect.delimiters.2 cs).map fun p => (ident (String.ofList p.1), p.2)
    else if isDigit ch then
      some (number (digitsValue (ch :: cs.takeWhile isDigit)), cs.dropWhile isDigit)
    else if isLetter ch then
      let w := String.ofList (ch :: cs.takeWhile isLetter)
      if w ∈ words then some (word w, cs.dropWhile isLetter) else none
    else if ch ∈ signs then some (sign ch, cs)
    else (c.markers.next? (ch :: cs)).map fun p => (marker p.1, p.2)

/-! ## One lexeme is read back -/

theorem not_isDigit_of_isLetter {ch : Char} (h : isLetter ch = true) : isDigit ch = false := by
  simp only [isLetter, isDigit, Bool.or_eq_true, Bool.and_eq_true, decide_eq_true_eq,
    Char.le_def, UInt32.le_iff_toNat_le] at h ⊢
  simp only [Bool.and_eq_false_iff, decide_eq_false_iff_not]
  simp at h ⊢
  omega

theorem ne_delimiter_of_isDigit {d : Dialect} {ch : Char} (h : isDigit ch = true) :
    ch ≠ d.delimiters.1 := by
  rintro rfl
  cases d <;> simp [Dialect.delimiters, isDigit] at h

theorem ne_delimiter_of_isLetter {d : Dialect} {ch : Char} (h : isLetter ch = true) :
    ch ≠ d.delimiters.1 := by
  rintro rfl
  revert h
  cases d <;> decide

theorem letters_of_mem_words {w : String} (h : w ∈ words) :
    w.toList ≠ [] ∧ ∀ ch ∈ w.toList, isLetter ch = true := by
  have hall : (words.all fun w => !w.toList.isEmpty && w.toList.all isLetter) = true := by decide
  have hw := List.all_eq_true.1 hall w h
  rw [Bool.and_eq_true, List.all_eq_true] at hw
  exact ⟨by simpa using hw.1, hw.2⟩

/-- Signs are in none of the classes of characters that other lexemes begin with. -/
theorem class_of_mem_signs {d : Dialect} {ch : Char} (h : ch ∈ signs) :
    ch ≠ d.delimiters.1 ∧ isDigit ch = false ∧ isLetter ch = false := by
  have hall : (signs.all fun ch => ch != d.delimiters.1 && !isDigit ch && !isLetter ch) = true := by
    cases d <;> decide
  have hs := List.all_eq_true.1 hall ch h
  simpa [and_assoc] using hs

theorem class_of_mem_opening {d : Dialect} {style : MarkerStyle} {ch : Char} {cs : List Char}
    (h : style.opening = ch :: cs) :
    ch ≠ d.delimiters.1 ∧ isDigit ch = false ∧ isLetter ch = false ∧ ch ∉ signs := by
  have hall : (style.opening.head?.all fun ch =>
      ch != d.delimiters.1 && !isDigit ch && !isLetter ch && !signs.contains ch) = true := by
    cases d <;> cases style <;> decide
  rw [h, List.head?_cons, Option.all_some] at hall
  simpa [and_assoc] using hall

theorem chars_ne_nil {d : Dialect} {style : MarkerStyle} {l : Lexeme (List Char)}
    (h : l.Valid style) : l.chars d ≠ [] := by
  cases l with
  | ident name => simp [chars, Quoted.write]
  | marker cs => exact MarkerStyle.IsMarker.ne_nil h
  | number n => exact Nat.toDigits_ne_nil
  | word w => exact (letters_of_mem_words h).1
  | sign c => simp [chars]

/-- A lexeme that what follows does not make longer is read back. -/
theorem next?_chars {c : Convention} {l : Lexeme (List Char)} {rest : List Char}
    (h : l.Valid c.markers) (hr : StopsAt (l.extends? c) rest) :
    next? c (l.chars c.dialect ++ rest) = some (l, rest) := by
  cases l with
  | ident name =>
    have hq := Quoted.readBody?_doubled c.dialect.delimiters.2 name.toList rest fun ch hc => by
      simpa [extends?] using hr ch hc
    simp [chars, Quoted.write, next?, hq]
  | marker cs =>
    -- nothing else begins with the character that opens a marker
    obtain ⟨ch, os, ho⟩ := List.exists_cons_of_ne_nil c.markers.opening_ne_nil
    obtain ⟨tail, hm, -⟩ := id h
    obtain ⟨h1, h2, h3, h4⟩ := class_of_mem_opening (d := c.dialect) ho
    have hc : cs ++ rest = ch :: (os ++ tail ++ rest) := by rw [hm, ho]; rfl
    have hn := MarkerStyle.next?_append h hr
    rw [chars, hc, next?, if_neg h1, if_neg (by simp [h2]), if_neg (by simp [h3]), if_neg h4, ← hc,
      hn]
    rfl
  | number n =>
    obtain ⟨ch, ds, hd⟩ := List.exists_cons_of_ne_nil (Nat.toDigits_ne_nil (n := n) (b := 10))
    have hall : ∀ d ∈ ch :: ds, isDigit d = true := fun d hm => isDigit_of_mem_toDigits (hd ▸ hm)
    have hc := hall ch (by simp)
    have hds : ∀ d ∈ ds, isDigit d = true := fun d hm => hall d (by simp [hm])
    rw [chars, hd, List.cons_append, next?, if_neg (ne_delimiter_of_isDigit hc), if_pos hc,
      takeWhile_run hds hr, dropWhile_run hds hr, ← hd, digitsValue_toDigits]
  | word w =>
    obtain ⟨hne, hall⟩ := letters_of_mem_words h
    obtain ⟨ch, ls, hw⟩ := List.exists_cons_of_ne_nil hne
    have hc := hall ch (by simp [hw])
    have hls : ∀ d ∈ ls, isLetter d = true := fun d hm => hall d (by simp [hw, hm])
    have hof : String.ofList (ch :: ls) = w := by rw [← hw, String.ofList_toList]
    have hin : w ∈ words := h
    simp [chars, hw, next?, ne_delimiter_of_isLetter hc, hc, not_isDigit_of_isLetter hc,
      takeWhile_run hls hr, dropWhile_run hls hr, hof, hin]
  | sign ch =>
    obtain ⟨h1, h2, h3⟩ := class_of_mem_signs (d := c.dialect) h
    have hin : ch ∈ signs := h
    simp [chars, next?, h1, h2, h3, hin]

theorem length_lt_of_next? {c : Convention} {cs rest : List Char} {l : Lexeme (List Char)}
    (h : next? c cs = some (l, rest)) : rest.length < cs.length := by
  cases cs with
  | nil => simp [next?] at h
  | cons ch cs =>
    rw [next?] at h
    split at h
    · obtain ⟨p, hp, he⟩ := Option.map_eq_some_iff.1 h
      have hl := Quoted.length_lt_of_readBody? hp
      obtain ⟨-, rfl⟩ := Prod.mk.inj he
      simp only [List.length_cons]
      omega
    split at h
    · obtain ⟨-, rfl⟩ := Prod.mk.inj (Option.some.inj h)
      have hl := (List.dropWhile_suffix isDigit (l := cs)).length_le
      simp only [List.length_cons]
      omega
    split at h
    · have hl := (List.dropWhile_suffix isLetter (l := cs)).length_le
      simp only at h
      split at h
      · obtain ⟨-, rfl⟩ := Prod.mk.inj (Option.some.inj h)
        simp only [List.length_cons]
        omega
      · simp at h
    split at h
    · obtain ⟨-, rfl⟩ := Prod.mk.inj (Option.some.inj h)
      simp
    · obtain ⟨p, hp, he⟩ := Option.map_eq_some_iff.1 h
      have hl := MarkerStyle.length_lt_of_next? hp
      obtain ⟨-, rfl⟩ := Prod.mk.inj he
      exact hl

/-! ## Splits -/

def list? (c : Convention) (cs : List Char) : Option (List (Lexeme (List Char))) :=
  match _h : next? c cs with
  | some (l, rest) => (list? c rest).map (l :: ·)
  | none => if cs = [] then some [] else none
termination_by cs.length
decreasing_by exact length_lt_of_next? ‹_›

/-- The lexemes spell the text, and none of them would be longer with what follows it. -/
structure IsSplit (c : Convention) (cs : List Char) (ls : List (Lexeme (List Char))) : Prop where
  spelled : ls.flatMap (chars c.dialect) = cs
  valid : ∀ l ∈ ls, l.Valid c.markers
  longest : ls.IsChain fun a b => StopsAt (a.extends? c) (b.chars c.dialect)

theorem list?_cons {c : Convention} {l : Lexeme (List Char)} {cs rest : List Char}
    (h : next? c cs = some (l, rest)) : list? c cs = (list? c rest).map (l :: ·) := by
  rw [list?]
  split
  · rename_i h'
    obtain ⟨rfl, rfl⟩ := Prod.mk.inj (Option.some.inj (h.symm.trans h'))
    rfl
  · rename_i h'
    simp [h] at h'

theorem list?_nil (c : Convention) : list? c [] = some [] := by
  rw [list?]
  simp [next?]

theorem IsSplit.tail {c : Convention} {cs : List Char} {l : Lexeme (List Char)}
    {ls : List (Lexeme (List Char))} (h : IsSplit c cs (l :: ls)) :
    IsSplit c (ls.flatMap (chars c.dialect)) ls :=
  ⟨rfl, fun m hm => h.valid m (by simp [hm]), h.longest.tail⟩

theorem IsSplit.stopsAt_head {c : Convention} {cs : List Char} {l : Lexeme (List Char)}
    {ls : List (Lexeme (List Char))} (h : IsSplit c cs (l :: ls)) :
    StopsAt (l.extends? c) (ls.flatMap (chars c.dialect)) := by
  intro ch hc
  cases ls with
  | nil => simp at hc
  | cons m ls =>
    have hm := chars_ne_nil (d := c.dialect) (h.valid m (by simp))
    rw [List.flatMap_cons, List.head?_append, List.head?_eq_some_head hm, Option.some_or,
      ← List.head?_eq_some_head hm] at hc
    exact (List.isChain_cons_cons.1 h.longest).1 ch hc

/-- A split is what reading finds. -/
theorem IsSplit.list? {c : Convention} {cs : List Char} {ls : List (Lexeme (List Char))}
    (h : IsSplit c cs ls) : list? c cs = some ls := by
  induction ls generalizing cs with
  | nil =>
    rw [← h.spelled]
    exact list?_nil c
  | cons l ls ih =>
    -- the first lexeme is read, and the rest is the split of what is left
    have hn := next?_chars (h.valid l (by simp)) h.stopsAt_head
    rw [← List.flatMap_cons, h.spelled] at hn
    rw [list?_cons hn, ih h.tail]
    rfl

theorem IsSplit.unique {c : Convention} {cs : List Char} {ls ms : List (Lexeme (List Char))}
    (h : IsSplit c cs ls) (h' : IsSplit c cs ms) : ls = ms :=
  Option.some.inj (h.list?.symm.trans h'.list?)

/-! ## Text up to a line end -/

section Lines

variable {c : Convention} {a b r s rest : List Char} {l : Lexeme (List Char)}
  {ls ms : List (Lexeme (List Char))}

end Lines

/-! ## Names and slots -/

section Contents

variable {α : Type}

def identName? : Lexeme α → Option String
  | ident n => some n
  | _ => none

def held? : Lexeme α → Option α
  | marker a => some a
  | _ => none

def identifiers (ls : List (Lexeme α)) : List String := ls.filterMap identName?

def slots (ls : List (Lexeme α)) : List α := ls.filterMap held?

theorem slots_append (ls ms : List (Lexeme α)) : slots (ls ++ ms) = slots ls ++ slots ms :=
  List.filterMap_append

end Contents

end Lexeme

end RestSql
