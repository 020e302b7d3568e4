import RestSql.Proofs.Sql.Lexeme
import RestSql.Statement.Compile

/-!
The split of a statement's text into lexemes. Every piece is a few lexemes, and the pieces of a
request are such that no two lexemes run together: of two neighbours one is a sign. So the lexemes
of the pieces are the split of the text.
-/

namespace RestSql

open RestSql.Text

namespace Lexeme

def isSign {α : Type} : Lexeme α → Bool
  | sign _ => true
  | _ => false

/-- One of two neighbours is a sign, so they do not run together. -/
def Apart {α : Type} (a b : Lexeme α) : Prop := (a.isSign || b.isSign) = true

instance {α : Type} : DecidableRel (Apart (α := α)) :=
  fun a b => inferInstanceAs (Decidable ((a.isSign || b.isSign) = true))

def isFixed {α : Type} : Lexeme α → Bool
  | word w => words.contains w
  | sign c => signs.contains c
  | _ => false

theorem valid_of_isFixed {style : MarkerStyle} {l : Lexeme (List Char)} (h : l.isFixed = true) :
    l.Valid style := by
  cases l with
  | word w => exact List.contains_iff_mem.1 h
  | sign c => exact List.contains_iff_mem.1 h
  | ident _ => trivial
  | number _ => trivial
  | marker _ => simp [isFixed] at h

/-- A sign ends whatever stands before it. -/
theorem stopsAt_sign {c : Convention} (a : Lexeme (List Char)) {ch : Char} (h : ch ∈ signs) :
    StopsAt (a.extends? c) [ch] := by
  have hall : (signs.all fun ch => ch != c.dialect.delimiters.2 && !c.markers.continues ch &&
      !isDigit ch && !isLetter ch) = true := by
    cases c.dialect <;> cases c.markers <;> decide
  have hs := List.all_eq_true.1 hall ch h
  simp only [Bool.and_eq_true, bne_iff_ne, Bool.not_eq_true'] at hs
  obtain ⟨⟨⟨h1, h2⟩, h3⟩, h4⟩ := hs
  intro d hd
  obtain rfl : ch = d := by simpa using hd
  cases a <;> simp [extends?, *]

theorem Apart.stopsAt {c : Convention} {a b : Lexeme (List Char)}
    (hb : b.Valid c.markers) (h : Apart a b) :
    StopsAt (a.extends? c) (b.chars c.dialect) := by
  cases a with
  | sign s => exact fun ch _ => rfl
  | _ =>
    cases b with
    | sign s => exact stopsAt_sign _ hb
    | _ => simp [Apart, isSign] at h

end Lexeme

namespace Piece

/-! ## Pieces as lexemes -/

/-- The lexemes of fixed text: runs of letters, and any other character by itself. -/
def fixed {α : Type} : List Char → List (Lexeme α)
  | [] => []
  | ch :: cs =>
    if Lexeme.isLetter ch then
      match fixed cs with
      | .word w :: ls => .word (String.ofList (ch :: w.toList)) :: ls
      | ls => .word (String.ofList [ch]) :: ls
    else .sign ch :: fixed cs

def lexemes {α : Type} (slot : Nat → String → α) : Piece → List (Lexeme α)
  | word t => fixed t.toList
  | ident n => [.ident n]
  | marker position label => [.marker (slot position label)]
  | number n => [.number n]

def textLexemes (c : Convention) (ps : List Piece) : List (Lexeme (List Char)) :=
  ps.flatMap (lexemes fun position label => (c.markers.render position label).toList)

theorem chars_fixed (d : Dialect) (cs : List Char) : (fixed cs).flatMap (Lexeme.chars d) = cs := by
  induction cs with
  | nil => rfl
  | cons ch cs ih =>
    rw [fixed]
    split
    · -- a letter goes in front of the word that the rest begins with, if it does
      split
      · rename_i w ls hf
        rw [hf] at ih
        simpa [Lexeme.chars] using ih
      · simpa [Lexeme.chars] using ih
    · simpa [Lexeme.chars] using ih

theorem chars_textLexemes (c : Convention) (ps : List Piece) :
    (textLexemes c ps).flatMap (Lexeme.chars c.dialect) = (render c ps).toList := by
  rw [textLexemes, render, String.toList_ofList, List.flatMap_assoc]
  congr 1
  funext p
  cases p with
  | word t => exact chars_fixed _ _
  | ident n => simp [lexemes, Lexeme.chars, text, Dialect.quote]
  | marker position label => simp [lexemes, Lexeme.chars, text]
  | number n => simp [lexemes, Lexeme.chars, text]

/-! ## Pieces that do not run together -/

def fixedText (t : String) : List (Lexeme (List Char)) := fixed t.toList

/-- The first lexeme is a sign. -/
def opens : Piece → Bool
  | word t => (fixedText t).head?.any (·.isSign)
  | _ => false

/-- The last lexeme is a sign. -/
def closes : Piece → Bool
  | word t => (fixedText t).getLast?.any (·.isSign)
  | _ => false

def IsFixedText (t : String) : Prop :=
  fixedText t ≠ [] ∧ (∀ l ∈ fixedText t, l.isFixed = true) ∧ (fixedText t).IsChain Lexeme.Apart

instance (t : String) : Decidable (IsFixedText t) :=
  inferInstanceAs (Decidable (_ ∧ _ ∧ _))

def IsSeparator (t : String) : Prop :=
  IsFixedText t ∧ (word t).opens = true ∧ (word t).closes = true

instance (t : String) : Decidable (IsSeparator t) :=
  inferInstanceAs (Decidable (_ ∧ _ ∧ _))

def Valid (c : Convention) : Piece → Prop
  | word t => IsFixedText t
  | ident _ | number _ => True
  | marker position label => c.markers.IsMarker (c.markers.render position label).toList

/-- The pieces are valid, and of two neighbours one has a sign towards the other. -/
structure Readable (c : Convention) (ps : List Piece) : Prop where
  valid : ∀ p ∈ ps, p.Valid c
  apart : ps.IsChain fun p q => p.closes || q.opens

/-- The pieces can also stand behind any other ones. -/
structure Trailing (c : Convention) (ps : List Piece) : Prop extends Readable c ps where
  opens : ∀ p ∈ ps.head?, p.opens = true

section Composition

variable {c : Convention} {p : Piece} {ps qs : List Piece}

theorem Readable.nil : Readable c [] := ⟨by simp, .nil⟩

theorem Trailing.nil : Trailing c [] := ⟨.nil, by simp⟩

theorem Readable.single (h : p.Valid c) : Readable c [p] := ⟨by simpa using h, .singleton _⟩

theorem Readable.append (h : Readable c ps) (h' : Trailing c qs) : Readable c (ps ++ qs) := by
  refine ⟨fun p hp => ?_, List.isChain_append.2 ⟨h.apart, h'.apart, fun p _ q hq => ?_⟩⟩
  · rcases List.mem_append.1 hp with hp | hp
    · exact h.valid p hp
    · exact h'.valid p hp
  · simp [h'.opens q hq]

theorem Trailing.append (h : Trailing c ps) (h' : Trailing c qs) : Trailing c (ps ++ qs) := by
  refine ⟨h.toReadable.append h', fun p hp => ?_⟩
  cases ps with
  | nil => exact h'.opens p (by simpa using hp)
  | cons q ps => exact h.opens p (by simpa using hp)

/-- Behind a piece that closes, anything can stand. -/
theorem Readable.cons (hp : p.Valid c) (hc : p.closes = true) (h : Readable c ps) :
    Readable c (p :: ps) := by
  refine ⟨List.forall_mem_cons.2 ⟨hp, h.valid⟩, List.isChain_cons.2 ⟨fun q _ => ?_, h.apart⟩⟩
  simp [hc]

theorem Trailing.cons {t : String} (ht : IsSeparator t) (h : Readable c ps) :
    Trailing c (word t :: ps) :=
  ⟨h.cons ht.1 ht.2.2, by simp [ht.2.1]⟩

/-- Before a piece that opens, anything can stand. -/
theorem Readable.cons_trailing (hp : p.Valid c) (h : Trailing c ps) : Readable c (p :: ps) :=
  (Readable.single hp).append h

/-- Text that closes can begin a statement. -/
theorem Readable.word {t : String} (ht : IsFixedText t) (hc : (Piece.word t).closes = true)
    (h : Readable c ps) : Readable c (Piece.word t :: ps) :=
  h.cons ht hc

theorem Trailing.word {t : String} (ht : IsFixedText t) (ho : (Piece.word t).opens = true) :
    Trailing c [Piece.word t] :=
  ⟨.single ht, by simp [ho]⟩

theorem Readable.separated {separator : String} {parts : List (List Piece)}
    (hs : IsSeparator separator) (h : ∀ part ∈ parts, Readable c part) :
    Readable c (separated separator parts) := by
  rw [Piece.separated]
  induction parts with
  | nil => exact .nil
  | cons part parts ih =>
    have hpart := h part (by simp)
    have hparts := ih fun q hq => h q (by simp [hq])
    cases parts with
    | nil => simpa using hpart
    | cons next parts =>
      rw [List.intercalate_cons_cons, List.append_assoc]
      exact hpart.append (Trailing.cons hs hparts)

theorem Readable.names (ns : List String) : Readable c (names ns) := by
  apply Readable.separated (by decide)
  intro part hp
  obtain ⟨n, -, rfl⟩ := List.mem_map.1 hp
  exact .single trivial

theorem Readable.of_mem_zipWith {β : Type} {f : β → Piece → List Piece} {bs : List β}
    {markers part : List Piece} (hm : ∀ m ∈ markers, m.Valid c)
    (hf : ∀ b m, m.Valid c → Readable c (f b m)) (hp : part ∈ List.zipWith f bs markers) :
    Readable c part := by
  rw [← List.map_uncurry_zip_eq_zipWith] at hp
  obtain ⟨⟨b, m⟩, hmem, rfl⟩ := List.mem_map.1 hp
  have hvalid : m.Valid c := hm m (List.of_mem_zip hmem).2
  exact hf b m hvalid

end Composition

/-! ## The split of readable pieces -/

/-- A valid piece has lexemes that do not run together, with signs at the ends that it opens and
closes with. -/
structure SplitsAs (p : Piece) (ls : List (Lexeme (List Char))) : Prop where
  ne_nil : ls ≠ []
  apart : ls.IsChain Lexeme.Apart
  head : p.opens = true → ∀ l ∈ ls.head?, l.isSign = true
  last : p.closes = true → ∀ l ∈ ls.getLast?, l.isSign = true

theorem splitsAs {c : Convention} {p : Piece} (h : p.Valid c) :
    p.SplitsAs (textLexemes c [p]) := by
  cases p with
  | word t =>
    have he : textLexemes c [word t] = fixedText t := by simp [textLexemes, lexemes, fixedText]
    rw [he]
    refine ⟨h.1, h.2.2, fun ho l hl => ?_, fun ho l hl => ?_⟩
    · simpa [opens, Option.mem_def.1 hl] using ho
    · simpa [closes, Option.mem_def.1 hl] using ho
  | _ => exact ⟨by simp [textLexemes, lexemes], .singleton _, by simp [opens], by simp [closes]⟩

theorem valid_textLexemes {c : Convention} {p : Piece} (h : p.Valid c) :
    ∀ l ∈ textLexemes c [p], l.Valid c.markers := by
  intro l hl
  cases p with
  | word t =>
    exact Lexeme.valid_of_isFixed (h.2.1 l (by simpa [textLexemes, lexemes, fixedText] using hl))
  | ident n =>
    obtain rfl : l = .ident n := by simpa [textLexemes, lexemes] using hl
    trivial
  | marker position label =>
    obtain rfl : l = .marker (c.markers.render position label).toList := by
      simpa [textLexemes, lexemes] using hl
    exact h
  | number n =>
    obtain rfl : l = .number n := by simpa [textLexemes, lexemes] using hl
    trivial

theorem textLexemes_cons (c : Convention) (p : Piece) (ps : List Piece) :
    textLexemes c (p :: ps) = textLexemes c [p] ++ textLexemes c ps := by
  simp [textLexemes]

theorem Readable.apart_textLexemes {c : Convention} {ps : List Piece} (h : Readable c ps) :
    (textLexemes c ps).IsChain Lexeme.Apart := by
  induction ps with
  | nil => exact .nil
  | cons p ps ih =>
    have hp := splitsAs (h.valid p (by simp))
    rw [textLexemes_cons]
    refine List.isChain_append.2 ⟨hp.apart, ih ⟨fun q hq => h.valid q (by simp [hq]), ?_⟩, ?_⟩
    · exact h.apart.tail
    · intro a ha b hb
      cases ps with
      | nil => simp [textLexemes] at hb
      | cons q ps =>
        have hq := splitsAs (h.valid q (by simp))
        -- of two neighbouring pieces one closes or the other opens
        rw [textLexemes_cons, List.head?_append_of_ne_nil _ hq.ne_nil] at hb
        rcases Bool.or_eq_true_iff.1 (List.isChain_cons_cons.1 h.apart).1 with hc | ho
        · simp [Lexeme.Apart, hp.last hc a ha]
        · simp [Lexeme.Apart, hq.head ho b hb]

/-- The lexemes of readable pieces are the split of their text. -/
theorem Readable.isSplit {c : Convention} {ps : List Piece} (h : Readable c ps) :
    Lexeme.IsSplit c (render c ps).toList (textLexemes c ps) := by
  have hv : ∀ l ∈ textLexemes c ps, l.Valid c.markers := by
    intro l hl
    obtain ⟨p, hp, hl⟩ := List.mem_flatMap.1 hl
    exact valid_textLexemes (h.valid p hp) l (by simpa [textLexemes] using hl)
  refine ⟨chars_textLexemes c ps, hv, h.apart_textLexemes.imp_of_mem_imp ?_⟩
  exact fun a b _ hb hab => Lexeme.Apart.stopsAt (hv b hb) hab

end Piece

/-! ## The pieces of requests are readable -/

section Requests

open Piece

variable {c : Convention} {markers : List Piece}

theorem TableName.readable (t : TableName) : Readable c t.pieces :=
  .cons_trailing trivial (.cons (by decide) (.single trivial))

theorem Filter.readable (f : Filter) {m : Piece} (hm : m.Valid c) : Readable c (f.pieces m) := by
  have h1 : ∀ op : Operator, IsSeparator (" " ++ op.sql ++ " (") := by rintro ⟨⟩ <;> decide
  have h2 : ∀ op : Operator, IsSeparator (" " ++ op.sql ++ " ") := by rintro ⟨⟩ <;> decide
  rw [Filter.pieces]
  split
  · exact .cons_trailing trivial (.cons (h1 f.op)
      (.cons_trailing hm (.cons (by decide) .nil)))
  · exact .cons_trailing trivial (.cons (h2 f.op) (.single hm))

theorem Filter.trailing_clause (fs : List Filter) (hm : ∀ m ∈ markers, m.Valid c) :
    Trailing c (Filter.clause fs markers) := by
  rw [Filter.clause]
  split
  · exact .nil
  · apply Trailing.cons (by decide)
    apply Readable.separated (by decide)
    intro part hp
    exact .of_mem_zipWith hm (fun f m h => f.readable h) hp

theorem OrderItem.readable (o : OrderItem) : Readable c o.pieces := by
  rw [OrderItem.pieces]
  split
  · rename_i d _
    have hd : IsFixedText (" " ++ d.sql) ∧ (word (" " ++ d.sql)).opens = true := by
      cases d <;> decide
    exact .cons_trailing trivial (.word hd.1 hd.2)
  · exact .single trivial

theorem OrderItem.trailing_clause (order : List OrderItem) :
    Trailing c (OrderItem.clause order) := by
  rw [OrderItem.clause]
  split
  · exact .nil
  · apply Trailing.cons (by decide)
    apply Readable.separated (by decide)
    intro part hp
    obtain ⟨o, -, rfl⟩ := List.mem_map.1 hp
    exact o.readable

namespace Window

/-- What stands in front of the columns, where the style has a place for the window there. -/
theorem head_eq {style : WindowStyle} {w : Window} {ps : List Piece} (h : w.head style = .ok ps) :
    ps = if style = .top then w.limit.elim [] fun n => [word "TOP (", number n, word ") "]
      else [] := by
  cases style with
  | top =>
    cases ho : w.effectiveOffset with
    | some m => simp [head, ho] at h
    | none => cases hl : w.limit <;> simp_all [head]
  | _ => simp_all [head]

theorem trailing_tail (style : WindowStyle) (ordered : Bool) (w : Window) :
    Trailing c (w.tail style ordered) := by
  have hnumber : ∀ {t : String} {n : Nat} {ps : List Piece}, IsSeparator t → Trailing c ps →
      Trailing c (word t :: number n :: ps) :=
    fun ht hps => .cons ht (.cons_trailing trivial hps)
  cases style with
  | top => exact .nil
  | limitOffset =>
    apply Trailing.append
    · cases w.limit with
      | none => exact .nil
      | some n => exact hnumber (by decide) .nil
    · cases w.effectiveOffset with
      | none => exact .nil
      | some n => exact hnumber (by decide) .nil
  | offsetFetch =>
    rw [tail]
    split
    · exact .nil
    · apply Trailing.append
      · apply Trailing.append
        · split
          · exact .nil
          · exact .word (by decide) (by decide)
        · exact hnumber (by decide) (.word (by decide) (by decide))
      · cases w.limit with
        | none => exact .nil
        | some n => exact hnumber (by decide) (.word (by decide) (by decide))

end Window

theorem Select.pieces_eq {s : Select} {style : WindowStyle} {ps : List Piece}
    (h : s.pieces style markers = .ok ps) : ∃ head, s.window.head style = .ok head ∧
      ps = word "SELECT " :: head ++ (if s.columns.isEmpty then [word "*"] else names s.columns) ++
        word " FROM " :: s.table.pieces ++ Filter.clause s.filters markers ++
        OrderItem.clause s.order ++ s.window.tail style !s.order.isEmpty := by
  cases hh : s.window.head style with
  | error f => simp [Select.pieces, hh, bind, Except.bind] at h
  | ok head =>
    refine ⟨head, rfl, ?_⟩
    simpa [Select.pieces, hh, bind, Except.bind, pure, Except.pure] using h.symm

theorem Select.readable {s : Select} {style : WindowStyle} {ps : List Piece}
    (hm : ∀ m ∈ markers, m.Valid c) (h : s.pieces style markers = .ok ps) : Readable c ps := by
  obtain ⟨head, hh, rfl⟩ := Select.pieces_eq h
  have hcolumns : Readable c (if s.columns.isEmpty then [word "*"] else names s.columns) := by
    split
    · exact .single (by decide : IsFixedText "*")
    · exact .names _
  have hselect : Readable c (word "SELECT " :: head ++
      if s.columns.isEmpty then [word "*"] else names s.columns) := by
    rw [List.cons_append]
    apply Readable.word (by decide) (by decide)
    rw [Window.head_eq hh]
    split
    · cases s.window.limit with
      | none => exact hcolumns
      | some n =>
        exact .word (by decide) (by decide) (.cons_trailing trivial (.cons (by decide) hcolumns))
    · exact hcolumns
  exact (((hselect.append (.cons (by decide) s.table.readable)).append
    (Filter.trailing_clause _ hm)).append (OrderItem.trailing_clause _)).append
    (Window.trailing_tail _ _ _)

theorem readable_markers (hm : ∀ m ∈ markers, m.Valid c) :
    Readable c (separated ", " (markers.map fun m => [m])) := by
  apply Readable.separated (by decide)
  intro part hp
  obtain ⟨m, hmem, rfl⟩ := List.mem_map.1 hp
  exact .single (hm m hmem)

theorem readable_insertPieces (table : TableName) (row : Row) (hm : ∀ m ∈ markers, m.Valid c) :
    Readable c (insertPieces table row markers) := by
  have htable : Readable c (word "INSERT INTO " :: table.pieces) :=
    .word (by decide) (by decide) table.readable
  apply htable.append
  split
  · exact .word (by decide) (by decide)
  · have hcolumns : Trailing c (word " (" :: names row.columns) := .cons (by decide) (.names _)
    exact (hcolumns.append (.cons (by decide) (readable_markers hm))).append
      (.word (by decide) (by decide))

theorem Update.readable (u : Update) (hm : ∀ m ∈ markers, m.Valid c) :
    Readable c (u.pieces markers) := by
  have htable : Readable c (word "UPDATE " :: u.table.pieces) :=
    .word (by decide) (by decide) u.table.readable
  have hassignments : Readable c (separated ", "
      (List.zipWith (fun n m => [ident n, word " = ", m]) u.row.columns markers)) := by
    have hassignment : ∀ (n : String) (m : Piece), m.Valid c →
        Readable c [ident n, word " = ", m] :=
      fun n m h => .cons_trailing trivial (.cons (by decide) (.single h))
    apply Readable.separated (by decide)
    intro part hp
    exact .of_mem_zipWith hm hassignment hp
  have hfilters : Trailing c
      (Filter.clause u.filters (markers.drop u.row.columns.length)) :=
    Filter.trailing_clause _ fun m h => hm m (List.mem_of_mem_drop h)
  exact (htable.append (.cons (by decide) hassignments)).append hfilters

theorem readable_deletePieces (table : TableName) (filters : List Filter)
    (hm : ∀ m ∈ markers, m.Valid c) : Readable c (deletePieces table filters markers) := by
  have htable : Readable c (word "DELETE FROM " :: table.pieces) :=
    .word (by decide) (by decide) table.readable
  exact htable.append (Filter.trailing_clause _ hm)

theorem Call.readable (k : Call) (hm : ∀ m ∈ markers, m.Valid c) :
    Readable c (k.pieces markers) := by
  have htarget : Readable c [ident k.routine.schema, word ".", ident k.routine.name] :=
    TableName.readable ⟨k.routine.schema, k.routine.name⟩
  have harguments : Trailing c (if markers.isEmpty then [word "()"]
      else word "( " :: separated ", " (markers.map fun m => [m]) ++ [word " )"]) := by
    split
    · exact .word (by decide) (by decide)
    · exact .append (.cons (by decide) (readable_markers hm)) (.word (by decide) (by decide))
  rw [Call.pieces]
  split
  · exact ((Readable.word (by decide) (by decide) htarget).append harguments).append
      (.word (by decide) (by decide))
  split
  · exact (Readable.word (by decide) (by decide) htarget).append harguments
  · exact (Readable.word (by decide) (by decide) htarget).append harguments

theorem Request.readable {r : Request} {ps : List Piece} (hm : ∀ m ∈ markers, m.Valid c)
    (h : r.pieces c markers = .ok ps) : Readable c ps := by
  cases r with
  | select s => exact Select.readable hm h
  | insert table row => exact Except.ok.inj h ▸ readable_insertPieces table row hm
  | update u => exact Except.ok.inj h ▸ u.readable hm
  | delete table filters => exact Except.ok.inj h ▸ readable_deletePieces table filters hm
  | call k => exact Except.ok.inj h ▸ k.readable hm

end Requests

end RestSql
