import RestSql.Proofs.Request.Entries
import RestSql.Proofs.Request.Operations
import RestSql.Proofs.Statement.Reads
import RestSql.Proofs.Text.Reading

/-!
The window of a read: from the limit and the offset in its query, and from the limit of the policy
where it names none, to the text of its statement. A read is refused for its names, its entries and
its numbers, and for an offset that the convention has no place for. Of several reasons the first
one in this order is told.
-/

namespace RestSql

open RestSql.Text

/-! ## Numbers of rows -/

namespace CountKey

/-- What a query value says about a number of rows; one that is absent or blank says nothing. -/
inductive Says : Option String → Option Nat → Prop
  | absent : Says none none
  | blank {raw : String} (h : isBlankText raw = true) : Says (some raw) none
  | count {raw : String} {n : Nat} (h : IsCount (trimmed raw) n) : Says (some raw) (some n)

/-- A query value that is neither blank nor a number of rows, without its blank ends. -/
def Refused (raw : Option String) (text : String) : Prop :=
  ∃ s, raw = some s ∧ isBlankText s = false ∧ trimmed s = text ∧ ∀ n, ¬IsCount text n

variable {key : CountKey} {raw : Option String}

theorem not_isCount_empty (n : Nat) : ¬IsCount "" n := by
  rintro ⟨digits, hdigits | hdigits, hne, -⟩
  · exact hne hdigits.symm
  · cases hdigits

theorem Says.read_eq {n : Option Nat} (h : Says raw n) : key.read raw = .ok n := by
  cases h with
  | absent => rfl
  | blank h => simp only [read, if_pos (trimmed_eq_empty.2 h)]
  | @count s n h =>
    have hne : trimmed s ≠ "" := by
      intro hempty
      rw [hempty] at h
      exact not_isCount_empty n h
    simp only [read, if_neg hne, count?_eq_some.2 h]

theorem Refused.read_eq {text : String} (h : Refused raw text) :
    key.read raw = .error (.parameter key text) := by
  obtain ⟨s, rfl, hblank, rfl, hno⟩ := h
  have hne : trimmed s ≠ "" := by
    intro hempty
    rw [trimmed_eq_empty.1 hempty] at hblank
    cases hblank
  have hnone : count? countBound (trimmed s) = none :=
    Option.eq_none_iff_forall_ne_some.2 fun n hn => hno n (count?_eq_some.1 hn)
  simp only [read, if_neg hne, hnone]

theorem says_or_refused (raw : Option String) :
    (∃ n, Says raw n) ∨ ∃ text, Refused raw text := by
  cases raw with
  | none => exact .inl ⟨none, .absent⟩
  | some s =>
    by_cases hblank : isBlankText s = true
    · exact .inl ⟨none, .blank hblank⟩
    · by_cases hcount : ∃ n, IsCount (trimmed s) n
      · obtain ⟨n, hn⟩ := hcount
        exact .inl ⟨some n, .count hn⟩
      · exact .inr ⟨trimmed s, s, rfl, by simpa using hblank, rfl, fun n hn => hcount ⟨n, hn⟩⟩

theorem read_eq_ok {n : Option Nat} : key.read raw = .ok n ↔ Says raw n := by
  refine ⟨fun h => ?_, Says.read_eq⟩
  rcases says_or_refused raw with ⟨k, hk⟩ | ⟨text, htext⟩
  · rw [hk.read_eq] at h
    rwa [← Except.ok.inj h]
  · rw [htext.read_eq] at h
    cases h

theorem read_eq_error {f : Failure} :
    key.read raw = .error f ↔ ∃ text, Refused raw text ∧ f = .parameter key text := by
  refine ⟨fun h => ?_, fun ⟨text, htext, hf⟩ => hf ▸ htext.read_eq⟩
  rcases says_or_refused raw with ⟨k, hk⟩ | ⟨text, htext⟩
  · rw [hk.read_eq] at h
    cases h
  · rw [htext.read_eq] at h
    exact ⟨text, htext, (Except.error.inj h).symm⟩

theorem Says.eq {n k : Option Nat} (h : Says raw n) (h' : Says raw k) : n = k := by
  have hread : limit.read raw = .ok n := h.read_eq
  rw [h'.read_eq] at hread
  exact (Except.ok.inj hread).symm

theorem Says.not_refused {n : Option Nat} (h : Says raw n) (text : String) :
    ¬Refused raw text := by
  intro hrefused
  have hread : limit.read raw = .error (.parameter limit text) := hrefused.read_eq
  rw [h.read_eq] at hread
  cases hread

end CountKey

/-! ## Reads -/

namespace Mapping

open CountKey (Says Refused)

variable {m : Mapping} {target : String} {q : Query}

def Names (m : Mapping) (target : String) : Prop := m.convention.schema ≠ "" ∧ target ≠ ""

/-- Why a read leads to no statement. Each reason counts only where those before it do not. -/
inductive ReadFault (m : Mapping) (target : String) (q : Query) : Failure → Prop
  | schema (h : m.convention.schema = "") : ReadFault m target q (.shape .emptySchema)
  | table (hs : m.convention.schema ≠ "") (h : target = "") :
    ReadFault m target q (.shape .emptyTable)
  | filters {f : Failure} (hn : m.Names target) (h : Filter.ofEntries q.filters = .error f) :
    ReadFault m target q f
  | limit {fs : List Filter} {text : String} (hn : m.Names target)
    (hf : Filter.ofEntries q.filters = .ok fs) (h : Refused q.limit text) :
    ReadFault m target q (.parameter .limit text)
  | offset {fs : List Filter} {limit : Option Nat} {text : String} (hn : m.Names target)
    (hf : Filter.ofEntries q.filters = .ok fs) (hl : Says q.limit limit)
    (h : Refused q.offset text) : ReadFault m target q (.parameter .offset text)
  | top {fs : List Filter} {limit : Option Nat} {n : Nat} (hn : m.Names target)
    (hf : Filter.ofEntries q.filters = .ok fs) (hl : Says q.limit limit)
    (ho : Says q.offset (some n)) (hpos : 0 < n) (h : m.convention.window = .top) :
    ReadFault m target q (.shape (.offsetWithTop n))

theorem read_eq {fs : List Filter} {limit offset : Option Nat} (hn : m.Names target)
    (hf : Filter.ofEntries q.filters = .ok fs) (hl : Says q.limit limit)
    (ho : Says q.offset offset) :
    m.read target q = .ok (.select ⟨⟨m.convention.schema, target⟩, fs,
      (q.select.map columnsOfText).getD [], (q.order.map OrderItem.listOfText).getD [],
      ⟨limit.or m.policy.defaultLimit, offset⟩⟩) := by
  rw [read, table_eq_ok.2 ⟨hn.1, hn.2, rfl⟩, hf, hl.read_eq, ho.read_eq]
  rfl

def readStatement (m : Mapping) (target : String) (q : Query) : Except Failure Statement := do
  let r ← m.read target q
  m.compile r

/-- A read is refused for the first reason there is, and for no other. -/
theorem readStatement_eq_error {f : Failure} :
    m.readStatement target q = .error f ↔ m.ReadFault target q f := by
  constructor
  · intro h
    obtain h | ⟨r, hr, h⟩ := bind_eq_error.1 h
    · obtain h | ⟨table, htable, h⟩ := bind_eq_error.1 h
      · obtain ⟨hs, rfl⟩ | ⟨hs, ht, rfl⟩ := table_eq_error.1 h
        · exact .schema hs
        · exact .table hs ht
      obtain ⟨hs, ht, -⟩ := table_eq_ok.1 htable
      have hn : m.Names target := ⟨hs, ht⟩
      obtain h | ⟨fs, hf, h⟩ := bind_eq_error.1 h
      · exact .filters hn h
      obtain h | ⟨limit, hl, h⟩ := bind_eq_error.1 h
      · obtain ⟨text, hrefused, rfl⟩ := CountKey.read_eq_error.1 h
        exact .limit hn hf hrefused
      obtain h | ⟨offset, ho, h⟩ := bind_eq_error.1 h
      · obtain ⟨text, hrefused, rfl⟩ := CountKey.read_eq_error.1 h
        exact .offset hn hf (CountKey.read_eq_ok.1 hl) hrefused
      · cases h
    · obtain ⟨s, limit, rfl, htable, hf, hl, ho, -⟩ := read_eq_ok hr
      obtain ⟨hs, ht, -⟩ := table_eq_ok.1 htable
      obtain ⟨hstyle, n, hn, rfl⟩ := Request.compile_select_eq_error.1 h
      obtain ⟨hoffset, hpos⟩ := Option.filter_eq_some_iff.1 hn
      rw [hoffset] at ho
      exact .top ⟨hs, ht⟩ hf (CountKey.read_eq_ok.1 hl) (CountKey.read_eq_ok.1 ho)
        (by simpa using hpos) hstyle
  · intro h
    rw [readStatement]
    cases h with
    | schema h =>
      have htable : m.table target = .error (.shape .emptySchema) :=
        table_eq_error.2 (.inl ⟨h, rfl⟩)
      rw [read, htable]
      rfl
    | table hs h =>
      have htable : m.table target = .error (.shape .emptyTable) :=
        table_eq_error.2 (.inr ⟨hs, h, rfl⟩)
      rw [read, htable]
      rfl
    | filters hn h =>
      rw [read, table_eq_ok.2 ⟨hn.1, hn.2, rfl⟩, h]
      rfl
    | limit hn hf h =>
      rw [read, table_eq_ok.2 ⟨hn.1, hn.2, rfl⟩, hf, h.read_eq]
      rfl
    | offset hn hf hl h =>
      rw [read, table_eq_ok.2 ⟨hn.1, hn.2, rfl⟩, hf, hl.read_eq, h.read_eq]
      rfl
    | top hn hf hl ho hpos h =>
      rw [read_eq hn hf hl ho]
      refine Request.compile_select_eq_error.2 ⟨h, _, ?_, rfl⟩
      exact Option.filter_eq_some_iff.2 ⟨rfl, by simpa using hpos⟩

theorem readStatement_eq_ok {st : Statement} (h : m.readStatement target q = .ok st) :
    ∃ s limit, m.read target q = .ok (.select s) ∧ m.Names target ∧
      Filter.ofEntries q.filters = .ok s.filters ∧ Says q.limit limit ∧
      Says q.offset s.window.offset ∧ s.window.limit = limit.or m.policy.defaultLimit ∧
      Request.compile m.convention (.select s) = .ok st := by
  obtain ⟨r, hr, h⟩ := ok_of_bind h
  obtain ⟨s, limit, rfl, htable, hf, hl, ho, hlimit⟩ := read_eq_ok hr
  obtain ⟨hs, ht, -⟩ := table_eq_ok.1 htable
  exact ⟨s, limit, hr, ⟨hs, ht⟩, hf, CountKey.read_eq_ok.1 hl, CountKey.read_eq_ok.1 ho, hlimit, h⟩

/-- There is a reason to refuse a read exactly if a name is empty, an entry is bad, a number is no
number, or an offset has no place. -/
theorem exists_readFault :
    (∃ f, m.ReadFault target q f) ↔ m.convention.schema = "" ∨ target = "" ∨
      (∃ raw ∈ q.filters, ∃ f, Filter.ofEntry raw = .error f) ∨
      (∃ text, Refused q.limit text) ∨ (∃ text, Refused q.offset text) ∨
      (m.convention.window = .top ∧ ∃ n, 0 < n ∧ Says q.offset (some n)) := by
  rw [← Filter.exists_ofEntries_eq_error]
  constructor
  · rintro ⟨f, h⟩
    cases h with
    | schema h => exact .inl h
    | table hs h => exact .inr (.inl h)
    | filters hn h => exact .inr (.inr (.inl ⟨f, h⟩))
    | limit hn hf h => exact .inr (.inr (.inr (.inl ⟨_, h⟩)))
    | offset hn hf hl h => exact .inr (.inr (.inr (.inr (.inl ⟨_, h⟩))))
    | top hn hf hl ho hpos h => exact .inr (.inr (.inr (.inr (.inr ⟨h, _, hpos, ho⟩))))
  · intro h
    cases hst : m.readStatement target q with
    | error f => exact ⟨f, readStatement_eq_error.1 hst⟩
    | ok st =>
      exfalso
      obtain ⟨s, limit, -, hn, hf, hl, ho, -, hcompile⟩ := readStatement_eq_ok hst
      obtain h | h | ⟨f, h⟩ | ⟨text, h⟩ | ⟨text, h⟩ | ⟨htop, n, hpos, h⟩ := h
      · exact hn.1 h
      · exact hn.2 h
      · rw [hf] at h
        cases h
      · exact hl.not_refused text h
      · exact ho.not_refused text h
      · have hoffset : s.window.effectiveOffset = some n :=
          Option.filter_eq_some_iff.2 ⟨ho.eq h, by simpa using hpos⟩
        have herror := Request.compile_select_eq_error.2 ⟨htop, n, hoffset, rfl⟩
        rw [hcompile] at herror
        cases herror

/-- A read is refused exactly for these reasons, and for the first of them. Otherwise its statement
shows the window that the query asks for, with the limit of the policy where it names none, and
without an offset of zero; so no read is without a limit where the policy has one. -/
theorem read_window (m : Mapping) (target : String) (q : Query) :
    (∀ f, m.readStatement target q = .error f ↔ m.ReadFault target q f) ∧
      ((∃ f, m.readStatement target q = .error f) ↔ m.convention.schema = "" ∨ target = "" ∨
        (∃ raw ∈ q.filters, ∃ f, Filter.ofEntry raw = .error f) ∨
        (∃ text, Refused q.limit text) ∨ (∃ text, Refused q.offset text) ∨
        (m.convention.window = .top ∧ ∃ n, 0 < n ∧ Says q.offset (some n))) ∧
      ∀ st, m.readStatement target q = .ok st → ∃ s limit offset w,
        m.read target q = .ok (.select s) ∧ Says q.limit limit ∧ Says q.offset offset ∧
        w = ⟨limit.or m.policy.defaultLimit, offset.filter (0 < ·)⟩ ∧
        s.ShowsWindow m.convention w st ∧
        (m.policy.defaultLimit ≠ none → w.limit ≠ none) := by
  refine ⟨fun f => readStatement_eq_error, ?_, fun st h => ?_⟩
  · simp only [readStatement_eq_error]
    exact exists_readFault
  · obtain ⟨s, limit, hr, -, -, hl, ho, hlimit, hcompile⟩ := readStatement_eq_ok h
    have hw : s.window.effective =
        ⟨limit.or m.policy.defaultLimit, s.window.offset.filter (0 < ·)⟩ := by
      rw [Window.effective, hlimit]
      rfl
    refine ⟨s, limit, _, _, hr, hl, ho, hw, Select.showsWindow hcompile, fun hdefault => ?_⟩
    rw [hw]
    cases limit with
    | some n => simp
    | none => exact hdefault

/-- Blanks, a plus sign and leading zeros in a limit, and an offset of zero. -/
theorem read_window_padded :
    let q : Query := ⟨none, none, [], some " +010 ", some "0"⟩
    ∃ st : Statement, ∃ s : Select,
      readStatement ⟨Dialect.sqlServer.convention, .standard⟩ "t" q = .ok st ∧
      s.ShowsWindow Dialect.sqlServer.convention ⟨some 10, none⟩ st ∧
      st.text = "SELECT * FROM [dbo].[t] ORDER BY (SELECT NULL) OFFSET 0 ROWS " ++
        "FETCH NEXT 10 ROWS ONLY" := by
  intro q
  have hread : (readStatement ⟨Dialect.sqlServer.convention, .standard⟩ "t" q).toOption =
      some ⟨"SELECT * FROM [dbo].[t] ORDER BY (SELECT NULL) OFFSET 0 ROWS " ++
        "FETCH NEXT 10 ROWS ONLY", []⟩ := by
    decide +kernel
  obtain ⟨s, limit, offset, w, -, hl, ho, rfl, hshows, -⟩ :=
    (read_window ⟨Dialect.sqlServer.convention, .standard⟩ "t" q).2.2 _ (ok_of_toOption hread)
  have hlimit : CountKey.limit.read q.limit = .ok (some 10) := rfl
  have hoffset : CountKey.offset.read q.offset = .ok (some 0) := rfl
  rw [hl.eq (CountKey.read_eq_ok.1 hlimit), ho.eq (CountKey.read_eq_ok.1 hoffset)] at hshows
  exact ⟨_, s, ok_of_toOption hread, hshows, rfl⟩

end Mapping

end RestSql
