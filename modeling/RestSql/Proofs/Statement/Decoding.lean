import RestSql.Proofs.Statement.Binding
import RestSql.Proofs.Statement.Content

namespace RestSql

open Piece

/-- Where the parameters of a statement stand: their positions from one, and their names. -/
def Param.places (params : List Param) : List (Nat × String) :=
  params.zipIdx.map fun p => (p.2 + 1, p.1.name.getD "")

def Param.markerTexts (c : Convention) (params : List Param) : List (List Char) :=
  slotsAt (fun position label => (c.markers.render position label).toList) (places params)

theorem Param.markersAt_places (params : List Param) :
    markersAt (places params) = markers params := by
  rw [markersAt, places, markers, List.map_map]
  rfl

theorem Param.length_places (params : List Param) : (places params).length = params.length := by
  simp [places]

theorem Param.length_markerTexts (c : Convention) (params : List Param) :
    (markerTexts c params).length = params.length := by
  simp [markerTexts, length_slotsAt, length_places]

namespace Request

variable {c : Convention} {r : Request} {s : Statement}

theorem length_params (h : r.compile c = .ok s) : s.params.length = r.slotCount := by
  rw [(compile_eq_ok h).1, MarkerStyle.length_params, length_bindings]

theorem exists_isSplit (h : r.compile c = .ok s) :
    ∃ ps, r.pieces c (markersAt (Param.places s.params)) = .ok ps ∧
      Lexeme.IsSplit c s.text.toList (textLexemes c ps) := by
  obtain ⟨-, ps, hp, ht⟩ := compile_eq_ok h
  refine ⟨ps, ?_, isSplit_compile h hp ht⟩
  rw [Param.markersAt_places]
  exact hp

/-- Reading the text gives the request back, with the markers in order in its slots. -/
theorem ofText?_compile (h : r.compile c = .ok s) :
    Sketch.ofText? c s.text = some (r.sketch (Param.markerTexts c s.params)) := by
  obtain ⟨ps, hp, hs⟩ := exists_isSplit h
  have hlength : (Param.places s.params).length = r.slotCount := by
    rw [Param.length_places, length_params h]
  rw [Sketch.ofText?, hs.list?, Option.bind_some]
  exact ofLexemes?_pieces hlength hp

/-- The text of a statement has one split into identifiers, markers, numbers, keywords and signs.
Its identifiers are the names of the request, each whole and in order, and what the split says is
what the request is, but for the values of its parameters. So only requests of one shape have one
text. -/
theorem text_decodes (h : r.compile c = .ok s) :
    (∃! ls, Lexeme.IsSplit c s.text.toList ls) ∧
      (∀ ls, Lexeme.IsSplit c s.text.toList ls → Lexeme.identifiers ls = r.names) ∧
      (Sketch.ofText? c s.text).map Sketch.shape = some r.shape ∧
      ∀ r' s', compile c r' = .ok s' → s'.text = s.text → r'.shape = r.shape := by
  have hshape : ∀ {r' s'}, compile c r' = .ok s' →
      (Sketch.ofText? c s'.text).map Sketch.shape = some r'.shape := by
    intro r' s' h'
    rw [ofText?_compile h', Option.map_some, shape_sketch]
    rw [Param.length_markerTexts, length_params h']
  obtain ⟨ps, hp, hs⟩ := exists_isSplit h
  have hunique : ∀ ls, Lexeme.IsSplit c s.text.toList ls → ls = textLexemes c ps :=
    fun ls hls => hls.unique hs
  refine ⟨⟨_, hs, hunique⟩, fun ls hls => ?_, hshape h, fun r' s' h' ht => ?_⟩
  · rw [hunique ls hls]
    exact identifiers_pieces (by rw [Param.length_places, length_params h]) hp
  · have h1 := hshape h'
    rw [ht, hshape h] at h1
    exact (Option.some.inj h1).symm

/-- Delimiters, keywords and markers in names change nothing. -/
theorem text_decodes_hostile :
    compile .standard (.select ⟨⟨"dbo", "t] WHERE ["⟩, [⟨"?", .among, "1"⟩], ["a]", "b, [c"],
      [⟨"d DESC", some .ascending⟩], ⟨some 5, some 0⟩⟩) = .ok ⟨
    "SELECT [a]]], [b, [c] FROM [dbo].[t]] WHERE [] WHERE [?] IN (?) ORDER BY [d DESC] ASC LIMIT 5",
        [⟨none, .string "1"⟩]⟩ ∧
    (Sketch.ofText? .standard
    "SELECT [a]]], [b, [c] FROM [dbo].[t]] WHERE [] WHERE [?] IN (?) ORDER BY [d DESC] ASC LIMIT 5"
      ).map Sketch.shape = some (.select ⟨"dbo", "t] WHERE ["⟩ ["a]", "b, [c"] [⟨"?", .among, ()⟩]
        [⟨"d DESC", some .ascending⟩] ⟨some 5, none⟩) :=
  have h : compile .standard (.select ⟨⟨"dbo", "t] WHERE ["⟩, [⟨"?", .among, "1"⟩],
      ["a]", "b, [c"], [⟨"d DESC", some .ascending⟩], ⟨some 5, some 0⟩⟩) = .ok ⟨
    "SELECT [a]]], [b, [c] FROM [dbo].[t]] WHERE [] WHERE [?] IN (?) ORDER BY [d DESC] ASC LIMIT 5",
        [⟨none, .string "1"⟩]⟩ := rfl
  ⟨h, (text_decodes h).2.2.1⟩

end Request

end RestSql
