import RestSql.Proofs.Text.Pieces
import RestSql.Request.Lists

/-!
Lists of names. A list is read through its segments, the pieces between commas that are not blank,
and a list of names is what its segments spell. Two things stand between a list and its segments: a
star alone, which the select list looks for before it cuts, and the direction of an order item,
which is what stands behind the last point.
-/

namespace RestSql

open RestSql.Text

/-! ## Pieces -/

theorem listPieces_append (a b : List Char) :
    listPieces (a ++ ',' :: b) = listPieces a ++ listPieces b := by
  unfold listPieces
  rw [splitOn_append, List.map_append, List.filter_append]

theorem listPieces_of_notMem {cs : List Char} (h : ',' ∉ cs) :
    listPieces cs = if trim cs = [] then [] else [trim cs] := by
  unfold listPieces
  rw [splitOn_of_notMem h, List.map_singleton]
  split
  · rename_i hnil
    rw [hnil]
    rfl
  · rename_i hne
    rw [List.filter_cons_of_pos (by simpa using hne), List.filter_nil]

theorem comma_notMem_of_blank {cs : List Char} (h : ∀ c ∈ cs, isBlank c = true) : ',' ∉ cs := by
  intro hmem
  have hblank : isBlank ',' = true := h ',' hmem
  cases hblank

/-- Blanks in front belong to the piece before the first comma. -/
theorem listPieces_blank_append {a : List Char} (h : ∀ c ∈ a, isBlank c = true)
    (cs : List Char) : listPieces (a ++ cs) = listPieces cs := by
  have hfree : ∀ x : List Char, ',' ∉ x → listPieces (a ++ x) = listPieces x := by
    intro x hx
    have hax : ',' ∉ a ++ x := by simp [comma_notMem_of_blank h, hx]
    rw [listPieces_of_notMem hax, listPieces_of_notMem hx, trim_blank_append h]
  by_cases hcomma : ',' ∈ cs
  · obtain ⟨x, y, rfl, hx⟩ := List.eq_append_cons_of_mem hcomma
    rw [← List.append_assoc, listPieces_append, listPieces_append, hfree x hx]
  · exact hfree cs hcomma

theorem listPieces_append_blank {b : List Char} (h : ∀ c ∈ b, isBlank c = true)
    (cs : List Char) : listPieces (cs ++ b) = listPieces cs := by
  have hfree : ∀ y : List Char, ',' ∉ y → listPieces (y ++ b) = listPieces y := by
    intro y hy
    have hyb : ',' ∉ y ++ b := by simp [comma_notMem_of_blank h, hy]
    rw [listPieces_of_notMem hyb, listPieces_of_notMem hy, trim_append_blank h]
  obtain ⟨hcomma, -⟩ | ⟨x, y, rfl, hy, -⟩ := cutLast?_cases ',' cs
  · exact hfree cs hcomma
  · rw [List.append_assoc, List.cons_append, listPieces_append, listPieces_append, hfree y hy]

theorem listPieces_trim (cs : List Char) : listPieces (trim cs) = listPieces cs := by
  obtain ⟨a, b, hcs, ha, hb⟩ := exists_blank_ends cs
  conv_rhs => rw [hcs, listPieces_append_blank hb, listPieces_blank_append ha]

/-! ## Segments -/

/-- What stands between the commas of a text, trimmed, where it is not blank. -/
def segments (raw : String) : List String :=
  ((raw.toList.splitOn ',').map fun p => trimmed (String.ofList p)).filter (· ≠ "")

/-- A name that a list keeps whole: not empty, without blank ends, without a comma. -/
structure IsName (name : String) : Prop where
  ne_empty : name ≠ ""
  trimmed_eq : trimmed name = name
  comma_free : ',' ∉ name.toList

theorem IsName.isTrimmed {name : String} (h : IsName name) : IsTrimmed name.toList := by
  have hlist := congrArg String.toList h.trimmed_eq
  rwa [trimmed, String.toList_ofList, trim_eq_self_iff] at hlist

theorem segments_eq (raw : String) : segments raw = (listPieces raw.toList).map String.ofList := by
  have htrim : (fun p => trimmed (String.ofList p)) = String.ofList ∘ trim := by
    funext p
    rw [trimmed, String.toList_ofList, Function.comp_apply]
  have hempty : (fun s : String => decide (s ≠ "")) ∘ String.ofList = (!·.isEmpty) := by
    funext p
    cases p <;> simp
  rw [segments, htrim, ← List.map_map, List.filter_map, hempty, ← splitOn_eq, listPieces]

theorem segments_of_notMem {raw : String} (h : ',' ∉ raw.toList) :
    segments raw = if isBlankText raw then [] else [trimmed raw] := by
  rw [segments_eq, listPieces_of_notMem h, isBlankText, trimmed]
  simp only [trim_eq_nil]
  split <;> rfl

theorem segments_of_blank {raw : String} (h : isBlankText raw = true) : segments raw = [] := by
  rw [segments_of_notMem (comma_notMem_of_blank (List.all_eq_true.1 h)), if_pos h]

theorem segments_of_isName {name : String} (h : IsName name) : segments name = [name] := by
  have hblank : ¬isBlankText name = true := by
    rw [← trimmed_eq_empty, h.trimmed_eq]
    exact h.ne_empty
  rw [segments_of_notMem h.comma_free, if_neg hblank, h.trimmed_eq]

theorem isName_of_mem_segments {raw name : String} (h : name ∈ segments raw) : IsName name := by
  rw [segments_eq] at h
  obtain ⟨p, hp, rfl⟩ := List.mem_map.1 h
  obtain ⟨hmem, hne⟩ := List.mem_filter.1 hp
  obtain ⟨q, hq, rfl⟩ := List.mem_map.1 hmem
  refine ⟨?_, ?_, ?_⟩
  · rw [ne_eq, String.ofList_eq_empty_iff]
    simpa using hne
  · rw [trimmed, String.toList_ofList, trim_trim]
  · rw [String.toList_ofList, mem_trim (by decide)]
    exact notMem_of_mem_splitOn hq

theorem segments_append (a b : String) :
    segments (a ++ "," ++ b) = segments a ++ segments b := by
  have hlist : (a ++ "," ++ b).toList = a.toList ++ ',' :: b.toList := by
    simp [String.toList_append]
  rw [segments_eq, segments_eq, segments_eq, hlist, listPieces_append, List.map_append]

/-- The segments of a list are those of its members, which may be lists themselves. -/
theorem segments_intercalate (texts : List String) :
    segments (",".intercalate texts) = texts.flatMap segments := by
  induction texts with
  | nil => decide
  | cons a rest ih =>
    cases rest with
    | nil => simp
    | cons b rest =>
      rw [String.intercalate_cons_cons, segments_append, ih, ← List.flatMap_cons]

theorem segments_joined {names : List String} (h : ∀ name ∈ names, IsName name) :
    segments (",".intercalate names) = names := by
  rw [segments_intercalate]
  induction names with
  | nil => rfl
  | cons name rest ih =>
    rw [List.flatMap_cons, segments_of_isName (h name List.mem_cons_self),
      ih fun n hn => h n (List.mem_cons_of_mem name hn), List.singleton_append]

/-! ## Select lists -/

/-- A star alone asks for all columns, but a star with commas around it names one. -/
theorem columnsOfText_eq (raw : String) :
    columnsOfText raw =
      if segments raw = ["*"] ∧ ',' ∉ raw.toList then [] else segments raw := by
  by_cases hcomma : ',' ∈ raw.toList
  · -- the comma outlives the trimming, so the text is neither empty nor a star
    have hmem : ',' ∈ trim raw.toList := (mem_trim (by decide)).2 hcomma
    have hne : trim raw.toList ≠ [] ∧ trim raw.toList ≠ ['*'] := by
      refine ⟨fun h => ?_, fun h => ?_⟩ <;> rw [h] at hmem <;> revert hmem <;> decide
    rw [columnsOfText, if_neg (by simpa using hne), if_neg fun h => h.2 hcomma, segments_eq,
      listPieces_trim]
  · by_cases hblank : isBlankText raw = true
    · rw [columnsOfText, if_pos (by simp [trim_eq_nil.2 hblank]), segments_of_blank hblank,
        ite_self]
    · have hnil : trim raw.toList ≠ [] := fun h => hblank (trim_eq_nil.1 h)
      have hstar : trim raw.toList = ['*'] ↔ segments raw = ["*"] := by
        rw [segments_of_notMem hcomma, if_neg hblank, trimmed, List.singleton_inj,
          ← String.toList_inj, String.toList_ofList]
        rfl
      rw [columnsOfText, listPieces_trim, ← segments_eq]
      simp [hnil, hstar, hcomma]

theorem comma_mem_intercalate {texts : List String} (h : 1 < texts.length) :
    ',' ∈ (",".intercalate texts).toList := by
  match texts with
  | a :: b :: rest =>
    rw [String.intercalate_cons_cons, String.toList_append, String.toList_append]
    simp

theorem segments_insert {b : String} (h : isBlankText b = true) (xs ys : List String) :
    segments (",".intercalate (xs ++ b :: ys)) = segments (",".intercalate (xs ++ ys)) := by
  rw [segments_intercalate, segments_intercalate, List.flatMap_append, List.flatMap_cons,
    segments_of_blank h, List.nil_append, List.flatMap_append]

theorem columnsOfText_eq_iff {raw raw' : String} (h : segments raw' = segments raw) :
    columnsOfText raw' = columnsOfText raw ↔
      (segments raw = ["*"] → (',' ∈ raw'.toList ↔ ',' ∈ raw.toList)) := by
  rw [columnsOfText_eq, columnsOfText_eq, h]
  by_cases hstar : segments raw = ["*"]
  · by_cases hc : ',' ∈ raw.toList <;> by_cases hc' : ',' ∈ raw'.toList <;> simp [hstar, hc, hc']
  · simp [hstar]

theorem columnsOfText_insert {b : String} (hb : isBlankText b = true) (xs ys : List String) :
    columnsOfText (",".intercalate (xs ++ b :: ys)) = columnsOfText (",".intercalate (xs ++ ys)) ↔
      (segments (",".intercalate (xs ++ ys)) = ["*"] →
        ',' ∈ (",".intercalate (xs ++ ys)).toList) := by
  refine (columnsOfText_eq_iff (segments_insert hb xs ys)).trans ?_
  refine imp_congr_right fun hone => iff_true_left (comma_mem_intercalate ?_)
  have hne : xs ++ ys ≠ [] := by
    intro hnil
    rw [hnil] at hone
    revert hone
    decide
  have hpos : 0 < (xs ++ ys).length := List.length_pos_iff.2 hne
  rw [List.length_append] at hpos
  rw [List.length_append, List.length_cons]
  omega

theorem columnsOfText_joined {names : List String} (h : ∀ name ∈ names, IsName name)
    (hne : names ≠ ["*"]) : columnsOfText (",".intercalate names) = names := by
  rw [columnsOfText_eq, segments_joined h, if_neg fun hc => hne hc.1]

theorem columnsOfText_star {raw : String} (h : segments raw = ["*"]) :
    columnsOfText raw = [] ↔ ',' ∉ raw.toList := by
  rw [columnsOfText_eq, h]
  by_cases hc : ',' ∈ raw.toList <;> simp [hc]

theorem columnsOfText_rejoined (raw : String) :
    columnsOfText (",".intercalate (columnsOfText raw)) = columnsOfText raw ↔
      (segments raw = ["*"] → ',' ∉ raw.toList) := by
  by_cases hone : segments raw = ["*"]
  · by_cases hc : ',' ∈ raw.toList
    · -- the star that is named comes back alone, and asks for all columns
      have hback : columnsOfText (",".intercalate ["*"]) = [] := by decide
      rw [columnsOfText_eq raw, if_neg fun h => h.2 hc, hone, hback]
      simp [hc]
    · have hback : columnsOfText (",".intercalate []) = [] := by decide
      rw [columnsOfText_eq raw, if_pos ⟨hone, hc⟩, hback]
      simp [hc]
  · rw [columnsOfText_eq raw, if_neg fun h => hone h.1,
      columnsOfText_joined (fun _ => isName_of_mem_segments) hone]
    simp [hone]

/-- The columns are the segments, except that no column is named where the one segment is a star
and no comma is written. So two lists with the same segments ask for the same columns, unless the
segment is a star and only one of them has a comma. -/
theorem columns_of_segments (raw : String) :
    (∀ raw' : String, segments raw' = segments raw →
      (columnsOfText raw' = columnsOfText raw ↔
        (segments raw = ["*"] → (',' ∈ raw'.toList ↔ ',' ∈ raw.toList)))) ∧
    (∀ (xs ys : List String) (b : String), raw = ",".intercalate (xs ++ ys) →
      isBlankText b = true →
      segments (",".intercalate (xs ++ b :: ys)) = segments raw ∧
      (columnsOfText (",".intercalate (xs ++ b :: ys)) = columnsOfText raw ↔
        (segments raw = ["*"] → ',' ∈ raw.toList))) ∧
    (columnsOfText (",".intercalate (columnsOfText raw)) = columnsOfText raw ↔
      (segments raw = ["*"] → ',' ∉ raw.toList)) ∧
    (segments raw = ["*"] → (columnsOfText raw = [] ↔ ',' ∉ raw.toList)) ∧
    ∀ names : List String, raw = ",".intercalate names → (∀ name ∈ names, IsName name) →
      names ≠ ["*"] → columnsOfText raw = names := by
  refine ⟨fun raw' => columnsOfText_eq_iff, ?_, columnsOfText_rejoined raw, columnsOfText_star, ?_⟩
  · rintro xs ys b rfl hb
    exact ⟨segments_insert hb xs ys, columnsOfText_insert hb xs ys⟩
  · rintro names rfl h hne
    exact columnsOfText_joined h hne

/-- Two names, and a blank segment between them. -/
theorem columns_of_segments_padded :
    columnsOfText (",".intercalate (["id"] ++ " " :: ["name"])) = ["id", "name"] ∧
      columnsOfText "id,name" = ["id", "name"] := by
  obtain ⟨-, hinsert, -, -, hnames⟩ := columns_of_segments "id,name"
  have hback : columnsOfText "id,name" = ["id", "name"] := by
    refine hnames ["id", "name"] (by decide) ?_ (by decide)
    intro name hname
    simp only [List.mem_cons, List.not_mem_nil, or_false] at hname
    obtain rfl | rfl := hname <;> exact ⟨by decide, by decide, by decide⟩
  refine ⟨((hinsert ["id"] ["name"] " " (by decide) (by decide)).2.2 ?_).trans hback, hback⟩
  intro _
  decide

/-- The one segment of this text is a star, and it is taken for the name of a column. -/
theorem star_with_comma_named :
    segments "*," = ["*"] ∧ segments "*" = ["*"] ∧ columnsOfText "*," = ["*"] ∧
      columnsOfText "*" = [] ∧ columnsOfText (",".intercalate (columnsOfText "*,")) = [] := by
  decide

/-! ## Order lists -/

def Direction.word : Direction → String
  | .ascending => "asc"
  | .descending => "desc"

/-- The text ends in a point and a direction, in capitals or not, with something before them. -/
def EndsInDirection (text : String) : Prop :=
  ∃ front word, text.toList = front ++ '.' :: word ∧ front ≠ [] ∧
    ∃ d : Direction, word.map Char.toLower = d.word.toList

namespace Direction

theorem ofWord?_eq_some {word : List Char} {d : Direction} :
    ofWord? word = some d ↔ word.map Char.toLower = d.word.toList := by
  simp only [ofWord?]
  by_cases hasc : word.map Char.toLower = ['a', 's', 'c']
  · rw [if_pos hasc, hasc]
    cases d <;> decide
  · by_cases hdesc : word.map Char.toLower = ['d', 'e', 's', 'c']
    · rw [if_neg hasc, if_pos hdesc, hdesc]
      cases d <;> decide
    · rw [if_neg hasc, if_neg hdesc]
      cases d <;> simp [Direction.word, hasc, hdesc]

theorem point_notMem_of_ofWord? {word : List Char} {d : Direction} (h : ofWord? word = some d) :
    '.' ∉ word := by
  intro hmem
  have hlower : '.' ∈ d.word.toList := by
    rw [← ofWord?_eq_some.1 h]
    exact List.mem_map_of_mem hmem
  revert hlower
  cases d <;> decide

theorem ofWord?_word (d : Direction) : ofWord? d.word.toList = some d := by
  cases d <;> decide

end Direction

namespace OrderItem

def written (o : OrderItem) : String :=
  match o.direction with
  | none => o.identifier
  | some d => o.identifier ++ "." ++ d.word

def writtenList (os : List OrderItem) : String := ",".intercalate (os.map written)

theorem ofText_of_direction {front word : List Char} {d : Direction} (hne : front ≠ [])
    (h : Direction.ofWord? word = some d) :
    ofText (front ++ '.' :: word) = ⟨String.ofList front, some d⟩ := by
  unfold ofText
  simp only [cutLast?_append (Direction.point_notMem_of_ofWord? h), h, if_neg hne]

theorem ofText_of_plain {text : String} (h : ¬EndsInDirection text) :
    ofText text.toList = ⟨text, none⟩ := by
  unfold ofText
  rw [String.ofList_toList]
  obtain ⟨-, hcut⟩ | ⟨front, word, hlist, -, hcut⟩ := cutLast?_cases '.' text.toList
  · rw [hcut]
  · rw [hcut]
    cases hword : Direction.ofWord? word with
    | none => simp only [hword]
    | some d =>
      -- a direction is left in the identifier only if nothing stands before it
      have hfront : front = [] := by
        by_contra hne
        exact h ⟨front, word, hlist, hne, d, Direction.ofWord?_eq_some.1 hword⟩
      simp only [hword, if_pos hfront]

theorem direction_ofText_eq_none {text : String} :
    (ofText text.toList).direction = none ↔ ¬EndsInDirection text := by
  refine ⟨fun hnone hends => ?_, fun hplain => ?_⟩
  · obtain ⟨front, word, hlist, hne, d, hword⟩ := hends
    rw [hlist, ofText_of_direction hne (Direction.ofWord?_eq_some.2 hword)] at hnone
    cases hnone
  · rw [ofText_of_plain hplain]

theorem toList_directed (identifier : String) (d : Direction) :
    (identifier ++ "." ++ d.word).toList = identifier.toList ++ '.' :: d.word.toList := by
  simp [String.toList_append]

/-- A direction makes a name of every text that is not blank at its front, even where the text ends
in blanks. -/
theorem isName_directed {identifier : String} (hne : identifier ≠ "")
    (hhead : ∀ c ∈ identifier.toList.head?, isBlank c = false) (hcomma : ',' ∉ identifier.toList)
    (d : Direction) : IsName (identifier ++ "." ++ d.word) := by
  have hcons : identifier.toList ≠ [] := by
    rwa [ne_eq, String.toList_eq_nil_iff]
  have hends : IsTrimmed (identifier.toList ++ '.' :: d.word.toList) := by
    refine ⟨?_, ?_⟩
    · rwa [List.head?_append_of_ne_nil _ hcons]
    · have hlast : (identifier.toList ++ '.' :: d.word.toList).getLast? = some 'c' := by
        cases d <;> simp [Direction.word]
      intro c hc
      obtain rfl := Option.some.inj (hlast.symm.trans hc)
      rfl
  refine ⟨?_, ?_, ?_⟩
  · rw [ne_eq, ← String.toList_eq_nil_iff, toList_directed]
    simp
  · rw [trimmed, toList_directed, trim_eq_self_iff.2 hends, ← toList_directed,
      String.ofList_toList]
  · rw [toList_directed]
    cases d <;> simp [Direction.word, hcomma]

/-- What a list can write and read back: the written form is a name, and an item without a direction
does not look as if it had one. -/
structure IsReadable (o : OrderItem) : Prop where
  isName : IsName o.written
  ne_empty : o.identifier ≠ ""
  plain : o.direction = none → ¬EndsInDirection o.identifier

theorem IsReadable.ofText_written {o : OrderItem} (h : o.IsReadable) :
    ofText o.written.toList = o := by
  obtain ⟨identifier, direction⟩ := o
  cases direction with
  | none => exact ofText_of_plain (h.plain rfl)
  | some d =>
    have hne : identifier.toList ≠ [] := by
      rw [ne_eq, String.toList_eq_nil_iff]
      exact h.ne_empty
    rw [written, toList_directed, ofText_of_direction hne d.ofWord?_word, String.ofList_toList]

theorem isReadable_of_isName {o : OrderItem} (h : IsName o.identifier)
    (hplain : o.direction = none → ¬EndsInDirection o.identifier) : o.IsReadable := by
  refine ⟨?_, h.ne_empty, hplain⟩
  unfold written
  split
  · exact h
  · exact isName_directed h.ne_empty h.isTrimmed.1 h.comma_free _

/-- What is read from a name can be written and read back. -/
theorem isReadable_ofText {name : String} (h : IsName name) : (ofText name.toList).IsReadable := by
  by_cases hdirection : EndsInDirection name
  · obtain ⟨front, word, hlist, hne, d, hword⟩ := hdirection
    rw [hlist, ofText_of_direction hne (Direction.ofWord?_eq_some.2 hword)]
    have hfront : String.ofList front ≠ "" := by
      rwa [ne_eq, String.ofList_eq_empty_iff]
    refine ⟨isName_directed hfront ?_ ?_ d, hfront, fun hnone => nomatch hnone⟩
    · have hhead := h.isTrimmed.1
      rwa [hlist, List.head?_append_of_ne_nil _ hne, ← @String.toList_ofList front] at hhead
    · have hcomma := h.comma_free
      rw [hlist, List.mem_append, not_or] at hcomma
      rw [String.toList_ofList]
      exact hcomma.1
  · rw [ofText_of_plain hdirection]
    exact ⟨h, h.ne_empty, fun _ => hdirection⟩

theorem listOfText_eq (raw : String) :
    listOfText raw = (segments raw).map fun name => ofText name.toList := by
  rw [listOfText, segments_eq, List.map_map]
  refine List.map_congr_left ?_
  intro p _
  rw [Function.comp_apply, String.toList_ofList]

theorem isReadable_of_mem {raw : String} {o : OrderItem} (h : o ∈ listOfText raw) :
    o.IsReadable := by
  rw [listOfText_eq] at h
  obtain ⟨name, hname, rfl⟩ := List.mem_map.1 h
  exact isReadable_ofText (isName_of_mem_segments hname)

theorem listOfText_writtenList {os : List OrderItem} (h : ∀ o ∈ os, o.IsReadable) :
    listOfText (writtenList os) = os := by
  have hnames : ∀ name ∈ os.map written, IsName name := by
    intro name hname
    obtain ⟨o, ho, rfl⟩ := List.mem_map.1 hname
    exact (h o ho).isName
  rw [listOfText_eq, writtenList, segments_joined hnames, List.map_map]
  conv_rhs => rw [← List.map_id os]
  refine List.map_congr_left ?_
  intro o ho
  exact (h o ho).ofText_written

/-- Order lists are read back from what is written of them, whether they were read from a text or
made of names that do not look as if they had a direction. -/
theorem listOfText_round_trip :
    (∀ raw : String, listOfText (writtenList (listOfText raw)) = listOfText raw) ∧
    (∀ os : List OrderItem,
      (∀ o ∈ os, IsName o.identifier ∧ (o.direction = none → ¬EndsInDirection o.identifier)) →
      listOfText (writtenList os) = os) ∧
    ∀ raw : String, ∀ o ∈ listOfText raw, o.identifier ≠ "" := by
  refine ⟨?_, ?_, ?_⟩
  · intro raw
    exact listOfText_writtenList fun o ho => isReadable_of_mem ho
  · intro os h
    exact listOfText_writtenList fun o ho => isReadable_of_isName (h o ho).1 (h o ho).2
  · intro raw o ho
    exact (isReadable_of_mem ho).ne_empty

example : listOfText "name,created_at.desc,score .ASC,.asc" =
    [⟨"name", none⟩, ⟨"created_at", some .descending⟩, ⟨"score ", some .ascending⟩,
      ⟨".asc", none⟩] := by
  decide

/-- Only the last point counts: a name may itself end in a direction where another one is written
behind it. -/
theorem listOfText_round_trip_nested :
    listOfText (writtenList [⟨"t.col", none⟩, ⟨"x.asc", some .descending⟩]) =
      [⟨"t.col", none⟩, ⟨"x.asc", some .descending⟩] := by
  refine listOfText_round_trip.2.1 _ ?_
  intro o ho
  simp only [List.mem_cons, List.not_mem_nil, or_false] at ho
  obtain rfl | rfl := ho
  · refine ⟨⟨by decide, by decide, by decide⟩, ?_⟩
    intro _
    exact direction_ofText_eq_none.1 (by decide)
  · exact ⟨⟨by decide, by decide, by decide⟩, fun hnone => nomatch hnone⟩

end OrderItem

end RestSql
