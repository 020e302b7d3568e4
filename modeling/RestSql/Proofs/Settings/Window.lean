import RestSql.Proofs.Request.Window
import RestSql.Settings.Basic

namespace RestSql

open RestSql.CountKey (Says)

namespace Window

/-- What a window shows at the end of a statement, with an offset behind a limit only. -/
def LimitFirst (text : String) : Prop :=
  text = "" ∨ (∃ n : Nat, text = " LIMIT " ++ toString n) ∨
    ∃ n k : Nat, text = " LIMIT " ++ toString n ++ " OFFSET " ++ toString k

variable {w : Window}

theorem limit_ne_offset (s t : String) : " LIMIT " ++ s ≠ " OFFSET " ++ t := by
  intro h
  have hlist := congrArg String.toList h
  simp at hlist

theorem trailing_eq_offset {k : Nat} :
    w.trailing .limitOffset = " OFFSET " ++ toString k ↔ w = ⟨none, some k⟩ := by
  obtain ⟨limit, offset⟩ := w
  constructor
  · intro h
    cases limit with
    | none =>
      cases offset with
      | none =>
        have hlist := congrArg String.toList h
        simp [trailing] at hlist
      | some j =>
        have hlist := congrArg String.toList h
        simp only [trailing, Option.elim_none, Option.elim_some, String.empty_append,
          String.toList_append, List.append_cancel_left_eq, Text.toList_toString] at hlist
        rw [Text.toDigits_injective hlist]
    | some n =>
      simp only [trailing, Option.elim_some, String.append_assoc] at h
      exact absurd h (limit_ne_offset _ _)
  · intro h
    rw [h]
    rfl

theorem not_limitFirst_offset (k : Nat) : ¬LimitFirst (" OFFSET " ++ toString k) := by
  rintro (h | ⟨n, h⟩ | ⟨n, j, h⟩)
  · have hlist := congrArg String.toList h
    simp at hlist
  · exact limit_ne_offset _ _ h.symm
  · rw [String.append_assoc, String.append_assoc] at h
    exact limit_ne_offset _ _ h.symm

/-- The only window with an offset that no limit precedes is an offset alone. -/
theorem limitFirst_iff : LimitFirst (w.trailing .limitOffset) ↔
    ¬∃ k : Nat, w.trailing .limitOffset = " OFFSET " ++ toString k := by
  constructor
  · rintro hfirst ⟨k, hk⟩
    rw [hk] at hfirst
    exact not_limitFirst_offset k hfirst
  · intro halone
    obtain ⟨limit, offset⟩ := w
    cases limit with
    | none =>
      cases offset with
      | none => exact .inl rfl
      | some k => exact absurd ⟨k, trailing_eq_offset.2 rfl⟩ halone
    | some n =>
      cases offset with
      | none => exact .inr (.inl ⟨n, by simp [trailing]⟩)
      | some k => exact .inr (.inr ⟨n, k, by simp [trailing, String.append_assoc]⟩)

end Window

namespace Settings

variable {s : Settings} {target : String} {q : Query} {st : Statement}

/-- A read has no limit where it names none and the settings have turned the limit off. -/
theorem limit_or_eq_none {limit : Option Nat} :
    limit.or s.defaultLimit = none ↔ limit = none ∧ s.recordLimit = 0 := by
  rw [Option.or_eq_none_iff, defaultLimit]
  split
  · rename_i hpos
    simp [Nat.ne_of_gt hpos]
  · rename_i hzero
    simp [Nat.eq_zero_of_not_pos hzero]

/-- Under the dialect's own windows the text of a read ends in a window with an offset behind a
limit only, unless it is an offset alone: that happens exactly if the settings have turned the limit
off, the query names none, and it names an offset that is not zero. -/
theorem sqlite_window_limitFirst (hdialect : s.effectiveConvention.dialect = .sqlite)
    (hwindow : s.effectiveConvention.window = s.effectiveConvention.dialect.convention.window)
    (h : s.mapping.readStatement target q = .ok st) :
    ∃ r w, s.mapping.read target q = .ok (.select r) ∧ r.ShowsWindow s.effectiveConvention w st ∧
      (Window.LimitFirst (w.trailing s.effectiveConvention.window) ↔
        ¬(s.recordLimit = 0 ∧ Says q.limit none ∧ ∃ k, 0 < k ∧ Says q.offset (some k))) ∧
      ∀ k, w.trailing s.effectiveConvention.window = " OFFSET " ++ toString k ↔
        s.recordLimit = 0 ∧ Says q.limit none ∧ 0 < k ∧ Says q.offset (some k) := by
  obtain ⟨r, limit, hread, -, -, hlimit, hoffset, hdefault, hcompile⟩ :=
    Mapping.readStatement_eq_ok h
  have hstyle : s.effectiveConvention.window = .limitOffset := by
    rw [hwindow, hdialect]
    rfl
  have hnone : r.window.limit = none ↔ Says q.limit none ∧ s.recordLimit = 0 := by
    rw [hdefault]
    refine limit_or_eq_none.trans (and_congr_left fun _ => ⟨?_, fun hsaid => hlimit.eq hsaid⟩)
    rintro rfl
    exact hlimit
  have hsome : ∀ k, r.window.effectiveOffset = some k ↔ 0 < k ∧ Says q.offset (some k) := by
    intro k
    rw [Window.effectiveOffset, Option.filter_eq_some_iff, decide_eq_true_eq, and_comm]
    refine and_congr_right fun _ => ⟨fun heq => heq ▸ hoffset, fun hsaid => hoffset.eq hsaid⟩
  have halone : ∀ k, r.window.effective.trailing .limitOffset = " OFFSET " ++ toString k ↔
      s.recordLimit = 0 ∧ Says q.limit none ∧ 0 < k ∧ Says q.offset (some k) := by
    intro k
    rw [Window.trailing_eq_offset, Window.effective, Window.mk.injEq, hnone, hsome, and_assoc,
      and_left_comm]
  refine ⟨r, r.window.effective, hread, Select.showsWindow hcompile, ?_, ?_⟩
  · rw [hstyle, Window.limitFirst_iff, exists_congr halone, exists_and_left, exists_and_left]
  · rw [hstyle]
    exact halone

def onSqlite (recordLimit : Nat) : Settings :=
  { standard with databaseUrl := some "sqlite::memory:", recordLimit }

/-- With the limit of the settings an offset stands behind a limit. -/
theorem sqlite_window_limitFirst_default :
    ∃ st : Statement, (onSqlite 7).mapping.readStatement "t" ⟨none, none, [], none, some "5"⟩ =
      .ok st ∧ st.text = "SELECT * FROM \x22main\x22.\x22t\x22 LIMIT 7 OFFSET 5" ∧
      ∃ (r : Select) (w : Window), r.ShowsWindow (onSqlite 7).effectiveConvention w st ∧
        Window.LimitFirst (w.trailing (onSqlite 7).effectiveConvention.window) := by
  have hread : ((onSqlite 7).mapping.readStatement "t" ⟨none, none, [], none, some "5"⟩).toOption =
      some ⟨"SELECT * FROM \x22main\x22.\x22t\x22 LIMIT 7 OFFSET 5", []⟩ := by
    decide +kernel
  have hdialect : (onSqlite 7).effectiveConvention.dialect = .sqlite := by decide +kernel
  have hwindow : (onSqlite 7).effectiveConvention.window =
      (onSqlite 7).effectiveConvention.dialect.convention.window := by
    decide +kernel
  obtain ⟨r, w, -, hshows, hfirst, -⟩ :=
    sqlite_window_limitFirst hdialect hwindow (ok_of_toOption hread)
  exact ⟨_, ok_of_toOption hread, rfl, r, w, hshows, hfirst.2 fun h => absurd h.1 (by decide)⟩

/-- With the limit turned off an offset stands alone. -/
theorem sqlite_offset_alone :
    (onSqlite 0).effectiveConvention = Dialect.sqlite.convention ∧
      (onSqlite 0).mapping.readStatement "t" ⟨none, none, [], none, some "5"⟩ =
        .ok ⟨"SELECT * FROM \x22main\x22.\x22t\x22 OFFSET 5", []⟩ ∧
      ¬Window.LimitFirst " OFFSET 5" := by
  refine ⟨by decide +kernel, ok_of_toOption ?_, Window.not_limitFirst_offset 5⟩
  decide +kernel

end Settings

end RestSql
