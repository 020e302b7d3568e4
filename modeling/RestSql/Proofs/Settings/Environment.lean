import RestSql.Proofs.Text.Reading
import RestSql.Settings.Environment

namespace RestSql

namespace Settings

open RestSql.Text (isBlankText IsNatural count?_eq_some_iff count?_eq_none_iff)

variable {s s' t : Settings} {env env' : Environment} {text : String} {v w : Variable}
  {fault : ConfigFault} {vs us ws : List Variable}

/-! ## One variable -/

inductive Place
  | databaseUrl | bindAddress | recordLimit | schema | maxConnections
deriving DecidableEq, Repr

def Place.Same (s t : Settings) : Place → Prop
  | databaseUrl => t.databaseUrl = s.databaseUrl
  | bindAddress => t.bindAddress = s.bindAddress
  | recordLimit => t.recordLimit = s.recordLimit
  | schema => t.schema = s.schema
  | maxConnections => t.maxConnections = s.maxConnections

structure SameElsewhere (s t : Settings) : Prop where
  crossOrigin : t.crossOrigin = s.crossOrigin
  allowUnfilteredWrites : t.allowUnfilteredWrites = s.allowUnfilteredWrites
  convention : t.convention = s.convention

theorem SameElsewhere.trans (h : SameElsewhere s s') (h' : SameElsewhere s' t) :
    SameElsewhere s t :=
  ⟨h'.crossOrigin.trans h.crossOrigin, h'.allowUnfilteredWrites.trans h.allowUnfilteredWrites,
    h'.convention.trans h.convention⟩

theorem Place.Same.refl (p : Place) (s : Settings) : p.Same s s := by
  cases p <;> rfl

theorem Place.Same.trans {p : Place} (h : p.Same s s') (h' : p.Same s' t) : p.Same s t := by
  cases p <;> exact Eq.trans h' h

theorem eq_of_same (hplace : ∀ p : Place, p.Same s t) (helse : SameElsewhere s t) : t = s := by
  obtain ⟨hcross, hwrites, hconvention⟩ := helse
  cases s
  cases t
  simp only [mk.injEq]
  exact ⟨hplace .databaseUrl, hplace .bindAddress, hplace .maxConnections, hcross,
    hplace .recordLimit, hwrites, hplace .schema, hconvention⟩

namespace Variable

/-- A port is an address too, one on every interface. -/
def place : Variable → Place
  | databaseUrl => .databaseUrl
  | bindAddress | port => .bindAddress
  | recordLimit => .recordLimit
  | schema => .schema
  | maxConnections => .maxConnections

/-- The text is no value of the variable, and this fault says so. -/
inductive Refuses : Variable → String → ConfigFault → Prop
  | port {text : String} (h : ∀ n, IsNatural text n → 2 ^ 16 ≤ n) : Refuses port text (.port text)
  | recordLimit {text : String} (h : ∀ n, IsNatural text n → 2 ^ 64 ≤ n) :
    Refuses recordLimit text (.recordLimit text)
  | schema {text : String} (h : isBlankText text = true) :
    Refuses schema text .emptySchemaVariable
  | maxConnections {text : String} (h : ∀ n, IsNatural text n → 2 ^ 32 ≤ n) :
    Refuses maxConnections text (.maxConnections text)

theorem Refuses.unique {fault' : ConfigFault} (h : v.Refuses text fault)
    (h' : v.Refuses text fault') : fault = fault' := by
  cases h <;> cases h' <;> rfl

/-- The settings have in the variable's place what the text says. -/
def Holds (s : Settings) : Variable → String → Prop
  | databaseUrl, text => s.databaseUrl = some text
  | bindAddress, text => s.bindAddress = text
  | port, text => ∃ n < 2 ^ 16, IsNatural text n ∧ s.bindAddress = "0.0.0.0:" ++ toString n
  | recordLimit, text => ∃ n < 2 ^ 64, IsNatural text n ∧ s.recordLimit = n
  | schema, text => s.schema = some text
  | maxConnections, text => ∃ n < 2 ^ 32, IsNatural text n ∧ s.maxConnections = n

theorem Holds.of_same (h : v.Holds s text) (hsame : v.place.Same s t) : v.Holds t text := by
  cases v with
  | databaseUrl | bindAddress | schema => exact Eq.trans hsame h
  | port | recordLimit | maxConnections =>
    obtain ⟨n, hlt, hnatural, hvalue⟩ := h
    exact ⟨n, hlt, hnatural, Eq.trans hsame hvalue⟩

/-- The text alone says what its place holds. -/
theorem Holds.same (hs : v.Holds s text) (ht : v.Holds t text) : v.place.Same s t := by
  cases v with
  | databaseUrl | bindAddress | schema => exact Eq.trans ht hs.symm
  | port | recordLimit | maxConnections =>
    obtain ⟨n, -, hn, hs⟩ := hs
    obtain ⟨m, -, hm, ht⟩ := ht
    obtain rfl := hm.unique hn
    exact Eq.trans ht hs.symm

/-- The text is put in the variable's place and nowhere else. -/
structure Puts (v : Variable) (text : String) (s t : Settings) : Prop where
  holds : v.Holds t text
  same : ∀ p : Place, p ≠ v.place → p.Same s t
  elsewhere : SameElsewhere s t

/-- A text is refused, or it is put in its place; which of the two, the text alone decides. -/
theorem set_cases (v : Variable) (text : String) (s : Settings) :
    (∃ fault, v.Refuses text fault ∧ v.set text s = .error fault) ∨
      (∀ fault, ¬v.Refuses text fault) ∧ ∃ t, v.set text s = .ok t ∧ v.Puts text s t := by
  cases v with
  | databaseUrl | bindAddress =>
    refine .inr ⟨fun fault h => (nomatch h), _, rfl, rfl, fun p hp => ?_, rfl, rfl, rfl⟩
    cases p <;> first | rfl | exact (hp rfl).elim
  | port | recordLimit | maxConnections =>
    rw [set]
    split
    · rename_i n hn
      obtain ⟨hnatural, hlt⟩ := count?_eq_some_iff.1 hn
      refine .inr ⟨fun fault h => ?_, _, rfl, ⟨n, hlt, hnatural, rfl⟩, fun p hp => ?_,
        rfl, rfl, rfl⟩
      · cases h
        rename_i hrange
        exact Nat.not_le_of_lt hlt (hrange n hnatural)
      · cases p <;> first | rfl | exact (hp rfl).elim
    · rename_i hnone
      refine .inl ⟨_, ?_, rfl⟩
      constructor
      exact count?_eq_none_iff.1 hnone
  | schema =>
    rw [set]
    split
    · rename_i hblank
      exact .inl ⟨_, .schema hblank, rfl⟩
    · rename_i hblank
      refine .inr ⟨fun fault h => ?_, _, rfl, rfl, fun p hp => ?_, rfl, rfl, rfl⟩
      · cases h with
        | schema h => exact hblank h
      · cases p <;> first | rfl | exact (hp rfl).elim

theorem set_eq_error_iff : v.set text s = .error fault ↔ v.Refuses text fault := by
  obtain ⟨fault', hrefuses, hset⟩ | ⟨hrefuses, t, hset, -⟩ := set_cases v text s
  · rw [hset, Except.error.injEq]
    exact ⟨fun h => h ▸ hrefuses, fun h => hrefuses.unique h⟩
  · rw [hset]
    exact ⟨fun h => (nomatch h), fun h => absurd h (hrefuses fault)⟩

theorem puts_of_set (h : v.set text s = .ok t) : v.Puts text s t := by
  obtain ⟨fault, -, hset⟩ | ⟨-, t', hset, hputs⟩ := set_cases v text s
  · rw [hset] at h
    cases h
  · rw [hset] at h
    exact Except.ok.inj h ▸ hputs

theorem name_prefix_of_refuses (h : v.Refuses text fault) :
    v.name.toList <+: fault.message.toList := by
  have happend : ∀ head tail : String, v.name.toList <+: head.toList →
      v.name.toList <+: (head ++ tail ++ "'").toList := by
    intro head tail hhead
    rw [String.append_assoc, String.toList_append]
    exact hhead.trans (List.prefix_append _ _)
  cases h with
  | port | recordLimit | maxConnections => exact happend _ text (by decide)
  | schema => decide

end Variable

/-! ## A run of variables -/

def Unrefused (env : Environment) (vs : List Variable) : Prop :=
  ∀ v ∈ vs, ∀ text, env v.name = some text → ∀ fault, ¬v.Refuses text fault

section Steps

variable (vs : List Variable)

theorem applyVariables_of_none (h : env v.name = none) :
    applyVariables env (v :: vs) s = applyVariables env vs s := by
  rw [applyVariables, h]

theorem applyVariables_of_ok (h : env v.name = some text) (hset : v.set text s = .ok s') :
    applyVariables env (v :: vs) s = applyVariables env vs s' := by
  simp only [applyVariables, h, hset]

theorem applyVariables_of_error {fault : ConfigFault} (h : env v.name = some text)
    (hset : v.set text s = .error fault) :
    applyVariables env (v :: vs) s = (s, some fault) := by
  simp only [applyVariables, h, hset]

end Steps

/-- A run keeps what each change of one of its variables keeps. -/
theorem applyVariables_preserves {P : Settings → Prop} (hs : P s)
    (hstep : ∀ v ∈ vs, ∀ text s s', env v.name = some text → v.set text s = .ok s' → P s → P s') :
    P (applyVariables env vs s).1 := by
  induction vs generalizing s with
  | nil => exact hs
  | cons v vs ih =>
    have hrest := fun u hu => hstep u (List.mem_cons_of_mem v hu)
    cases henv : env v.name with
    | none =>
      rw [applyVariables_of_none vs henv]
      exact ih hs hrest
    | some text =>
      cases hset : v.set text s with
      | error fault =>
        rw [applyVariables_of_error vs henv hset]
        exact hs
      | ok s' =>
        rw [applyVariables_of_ok vs henv hset]
        exact ih (hstep v List.mem_cons_self text s s' henv hset hs) hrest

theorem sameElsewhere_applyVariables : SameElsewhere s (applyVariables env vs s).1 := by
  refine applyVariables_preserves ⟨rfl, rfl, rfl⟩ ?_
  intro v _ text u u' _ hset hsame
  exact hsame.trans (Variable.puts_of_set hset).elsewhere

/-- Present variables of other places leave a place alone. -/
theorem same_applyVariables {p : Place} (h : ∀ v ∈ vs, v.place = p → env v.name = none) :
    p.Same s (applyVariables env vs s).1 := by
  refine applyVariables_preserves (P := (p.Same s ·)) (.refl p s) ?_
  intro v hv text u u' henv hset hsame
  have hplace : p ≠ v.place := by
    intro hp
    have habsent := h v hv hp.symm
    rw [henv] at habsent
    cases habsent
  exact hsame.trans ((Variable.puts_of_set hset).same p hplace)

theorem applyVariables_append (h : Unrefused env us) :
    applyVariables env (us ++ vs) s = applyVariables env vs (applyVariables env us s).1 := by
  induction us generalizing s with
  | nil => rfl
  | cons u us ih =>
    obtain ⟨hu, hus⟩ := List.forall_mem_cons.1 h
    rw [List.cons_append]
    cases henv : env u.name with
    | none => rw [applyVariables_of_none _ henv, applyVariables_of_none us henv, ih hus]
    | some text =>
      cases hset : u.set text s with
      | error fault => exact absurd (Variable.set_eq_error_iff.1 hset) (hu text henv fault)
      | ok s' => rw [applyVariables_of_ok _ henv hset, applyVariables_of_ok us henv hset, ih hus]

/-- A run reaches its end exactly if none of its variables is refused. -/
theorem applyVariables_eq_none_iff : (applyVariables env vs s).2 = none ↔ Unrefused env vs := by
  induction vs generalizing s with
  | nil => simp [applyVariables, Unrefused]
  | cons v vs ih =>
    unfold Unrefused
    rw [List.forall_mem_cons]
    cases henv : env v.name with
    | none =>
      rw [applyVariables_of_none vs henv, ih]
      exact (and_iff_right fun text htext => nomatch htext).symm
    | some text =>
      cases hset : v.set text s with
      | error fault =>
        rw [applyVariables_of_error vs henv hset]
        refine ⟨fun h => (nomatch h), fun h => ?_⟩
        exact absurd (Variable.set_eq_error_iff.1 hset) (h.1 text rfl fault)
      | ok s' =>
        rw [applyVariables_of_ok vs henv hset, ih]
        refine (and_iff_right fun text' htext' fault hrefuses => ?_).symm
        obtain rfl := Option.some.inj htext'
        cases hset.symm.trans (Variable.set_eq_error_iff.2 hrefuses)

theorem applyVariables_of_refuses (h : Unrefused env us) (henv : env v.name = some text)
    (hrefuses : v.Refuses text fault) :
    applyVariables env (us ++ v :: vs) s = ((applyVariables env us s).1, some fault) := by
  rw [applyVariables_append h, applyVariables_of_error vs henv
    (Variable.set_eq_error_iff.2 hrefuses)]

theorem applyVariables_congr (h : ∀ v ∈ vs, env' v.name = env v.name) :
    applyVariables env' vs s = applyVariables env vs s := by
  induction vs generalizing s with
  | nil => rfl
  | cons v vs ih =>
    obtain ⟨hv, hvs⟩ := List.forall_mem_cons.1 h
    have hrest : applyVariables env' vs = applyVariables env vs := by
      funext s
      exact ih hvs
    simp only [applyVariables, hv, hrest]

theorem applyVariables_of_absent (h : ∀ v ∈ vs, env v.name = none) :
    applyVariables env vs s = (s, none) := by
  induction vs with
  | nil => rfl
  | cons v vs ih =>
    obtain ⟨hv, hvs⟩ := List.forall_mem_cons.1 h
    rw [applyVariables_of_none vs hv, ih hvs]

/-- At the end of a run a variable holds if no later one of the same place is present. -/
theorem holds_applyVariables (h : Unrefused env (us ++ v :: ws)) (henv : env v.name = some text)
    (hlast : ∀ w ∈ ws, w.place = v.place → env w.name = none) :
    v.Holds (applyVariables env (us ++ v :: ws) s).1 text := by
  have hus : Unrefused env us := fun u hu => h u (List.mem_append_left _ hu)
  rw [applyVariables_append hus]
  cases hset : v.set text (applyVariables env us s).1 with
  | error fault =>
    have hv := h v (List.mem_append_right us List.mem_cons_self) text henv fault
    exact absurd (Variable.set_eq_error_iff.1 hset) hv
  | ok s' =>
    rw [applyVariables_of_ok ws henv hset]
    exact (Variable.puts_of_set hset).holds.of_same (same_applyVariables hlast)

theorem exists_first_of_not_unrefused (h : ¬Unrefused env vs) : ∃ us v ws text fault,
    vs = us ++ v :: ws ∧ Unrefused env us ∧ env v.name = some text ∧ v.Refuses text fault := by
  induction vs with
  | nil => exact absurd (fun v hv => nomatch hv) h
  | cons v vs ih =>
    by_cases hv : ∀ text, env v.name = some text → ∀ fault, ¬v.Refuses text fault
    · have hvs : ¬Unrefused env vs := fun hvs => h (List.forall_mem_cons.2 ⟨hv, hvs⟩)
      obtain ⟨us, w, ws, text, fault, rfl, hus, hw⟩ := ih hvs
      exact ⟨v :: us, w, ws, text, fault, rfl, List.forall_mem_cons.2 ⟨hv, hus⟩, hw⟩
    · push Not at hv
      obtain ⟨text, henv, fault, hrefuses⟩ := hv
      exact ⟨[], v, vs, text, fault, rfl, fun u hu => (nomatch hu), henv, hrefuses⟩

/-! ## The whole environment -/

def Variable.earlier (v : Variable) : List Variable := Variable.all.takeWhile (· ≠ v)

def Variable.later (v : Variable) : List Variable := (Variable.all.dropWhile (· ≠ v)).tail

theorem Variable.all_eq (v : Variable) : Variable.all = v.earlier ++ v :: v.later := by
  cases v <;> rfl

theorem Variable.notMem_earlier_iff : w ∉ v.earlier ↔ w ∈ v :: v.later := by
  cases v <;> cases w <;> decide

theorem Variable.mem_all (v : Variable) : v ∈ Variable.all := by
  cases v <;> decide

theorem Variable.name_injective : Function.Injective Variable.name := by
  intro v w
  cases v <;> cases w <;> decide

def Environment.only (env : Environment) (vs : List Variable) : Environment :=
  fun name => if name ∈ vs.map Variable.name then env name else none

/-- The first of the variables whose text is refused. -/
structure FirstRefusal (env : Environment) (v : Variable) (text : String) (fault : ConfigFault) :
    Prop where
  present : env v.name = some text
  refused : v.Refuses text fault
  earlier : Unrefused env v.earlier

theorem only_name_of_mem (h : v ∈ vs) : env.only vs v.name = env v.name :=
  if_pos (List.mem_map_of_mem h)

theorem only_name_of_notMem (h : v ∉ vs) : env.only vs v.name = none := by
  refine if_neg fun hname => h ?_
  obtain ⟨w, hw, hwv⟩ := List.mem_map.1 hname
  rwa [← Variable.name_injective hwv]

theorem exists_firstRefusal (h : ¬Unrefused env Variable.all) :
    ∃ v text fault, FirstRefusal env v text fault := by
  obtain ⟨us, v, ws, text, fault, hall, hus, henv, hrefuses⟩ := exists_first_of_not_unrefused h
  have hv : v ∉ us := by
    intro hmem
    have hnodup : (us ++ v :: ws).Nodup := hall ▸ (by decide : Variable.all.Nodup)
    exact (List.nodup_append.1 hnodup).2.2 v hmem v List.mem_cons_self rfl
  have hearlier : v.earlier = us := by
    have hne : ∀ u ∈ us, decide (u ≠ v) = true := by
      intro u hu
      exact decide_eq_true fun huv => hv (huv ▸ hu)
    rw [Variable.earlier, hall, List.takeWhile_append_of_pos hne,
      List.takeWhile_cons_of_neg (by simp), List.append_nil]
  exact ⟨v, text, fault, henv, hrefuses, hearlier ▸ hus⟩

theorem FirstRefusal.run (h : FirstRefusal env v text fault) (s : Settings) :
    s.applyEnvironment env = ((applyVariables env v.earlier s).1, some fault) := by
  unfold applyEnvironment
  rw [v.all_eq, applyVariables_of_refuses h.earlier h.present h.refused]

/-- The environment of the variables before the first refused one is taken as a whole, and the
refused one and those behind it add nothing. -/
theorem FirstRefusal.run_earlier (h : FirstRefusal env v text fault) (s : Settings) :
    s.applyEnvironment (env.only v.earlier) = ((applyVariables env v.earlier s).1, none) := by
  have hearlier : applyVariables (env.only v.earlier) v.earlier s =
      applyVariables env v.earlier s :=
    applyVariables_congr fun u hu => only_name_of_mem hu
  have hwhole : Unrefused (env.only v.earlier) v.earlier := by
    rw [← applyVariables_eq_none_iff (s := s), hearlier, applyVariables_eq_none_iff]
    exact h.earlier
  have hlater : ∀ w ∈ v :: v.later, env.only v.earlier w.name = none := by
    intro w hw
    exact only_name_of_notMem (Variable.notMem_earlier_iff.2 hw)
  rw [applyEnvironment, v.all_eq, applyVariables_append hwhole, applyVariables_of_absent hlater,
    hearlier]

/-- The address is the one place of two variables. -/
theorem Variable.eq_of_place_eq (h : v.place = w.place) :
    v = w ∨ (v = bindAddress ∧ w = port) ∨ (v = port ∧ w = bindAddress) := by
  revert h
  cases v <;> cases w <;> decide

theorem Variable.eq_of_later (hw : w ∈ v.later) (hplace : w.place = v.place) :
    v = bindAddress ∧ w = port := by
  obtain rfl | ⟨rfl, rfl⟩ | ⟨rfl, rfl⟩ := eq_of_place_eq hplace
  · revert hw
    cases w <;> decide
  · revert hw
    decide
  · exact ⟨rfl, rfl⟩

/-- A place of the refused variable, or of one behind it, is changed by no variable before, except
that an address may have been put where a port is refused. -/
theorem FirstRefusal.same (h : FirstRefusal env v text fault) (s : Settings)
    (hw : w ∉ v.earlier) (haddress : w = .port → env Variable.bindAddress.name = none) :
    w.place.Same s (s.applyEnvironment env).1 := by
  rw [h.run s]
  refine same_applyVariables fun u hu hplace => ?_
  obtain rfl | ⟨rfl, rfl⟩ | ⟨rfl, rfl⟩ := Variable.eq_of_place_eq hplace
  · exact absurd hu hw
  · exact haddress rfl
  · -- the address is taken before every variable that the port is taken before
    exfalso
    revert hw hu
    clear h
    cases v <;> decide

theorem holds_applyEnvironment (h : Unrefused env Variable.all) (henv : env v.name = some text)
    (hport : v = .bindAddress → env Variable.port.name = none) :
    v.Holds (s.applyEnvironment env).1 text := by
  unfold applyEnvironment
  rw [v.all_eq] at h ⊢
  refine holds_applyVariables h henv ?_
  intro w hw hplace
  obtain ⟨hv, rfl⟩ := Variable.eq_of_later hw hplace
  exact hport hv

theorem same_applyEnvironment {p : Place} (h : ∀ v : Variable, v.place = p → env v.name = none) :
    p.Same s (s.applyEnvironment env).1 :=
  same_applyVariables fun v _ => h v

theorem sameElsewhere_applyEnvironment : SameElsewhere s (s.applyEnvironment env).1 :=
  sameElsewhere_applyVariables

theorem applyEnvironment_again (h : Unrefused env Variable.all) :
    (s.applyEnvironment env).1.applyEnvironment env = ((s.applyEnvironment env).1, none) := by
  have hnone : ∀ u : Settings, (u.applyEnvironment env).2 = none :=
    fun u => applyVariables_eq_none_iff.2 h
  -- both states hold the same texts in the places of the present variables
  refine Prod.ext (eq_of_same (fun p => ?_) sameElsewhere_applyEnvironment) (hnone _)
  by_cases hp : ∃ (v : Variable) (text : String), v.place = p ∧ env v.name = some text ∧
      (v = .bindAddress → env Variable.port.name = none)
  · obtain ⟨v, text, rfl, henv, hport⟩ := hp
    exact (holds_applyEnvironment h henv hport).same (holds_applyEnvironment h henv hport)
  · -- an address alone would be a present variable, and so would the port that replaces it
    push Not at hp
    refine same_applyEnvironment fun v hv => ?_
    by_contra hpresent
    obtain ⟨text, henv⟩ := Option.ne_none_iff_exists'.1 hpresent
    obtain ⟨rfl, hport⟩ := hp v text hv henv
    obtain ⟨port, hport⟩ := Option.ne_none_iff_exists'.1 hport
    exact absurd (hp .port port hv hport).1 (by decide)

/-- The variables are taken in their order up to the first refused one. It alone decides the fault,
and it and those behind it change nothing. Without a refused one every present variable holds, the
port before the address, and the same environment changes nothing more. -/
theorem applyEnvironment_exact {outcome : Option ConfigFault}
    (h : s.applyEnvironment env = (t, outcome)) :
    (outcome ≠ none ↔ ∃ (v : Variable) (text : String) (fault : ConfigFault),
      env v.name = some text ∧ v.Refuses text fault) ∧
    (∀ fault, outcome = some fault ↔ ∃ v text, FirstRefusal env v text fault) ∧
    (∀ v text fault, FirstRefusal env v text fault →
      v.name.toList <+: fault.message.toList ∧
      s.applyEnvironment (env.only v.earlier) = (t, none) ∧
      ∀ w, w ∉ v.earlier → (w = .port → env Variable.bindAddress.name = none) →
        w.place.Same s t) ∧
    (outcome = none →
      (∀ (v : Variable) (text : String), env v.name = some text →
        (v = .bindAddress → env Variable.port.name = none) → v.Holds t text) ∧
      t.applyEnvironment env = (t, none)) ∧
    (∀ p : Place, (∀ v : Variable, v.place = p → env v.name = none) → p.Same s t) ∧
    SameElsewhere s t := by
  obtain rfl : (s.applyEnvironment env).1 = t := congrArg Prod.fst h
  obtain rfl : (s.applyEnvironment env).2 = outcome := congrArg Prod.snd h
  have houtcome : (s.applyEnvironment env).2 = none ↔ Unrefused env Variable.all :=
    applyVariables_eq_none_iff
  have hfirst : ∀ {v text fault}, FirstRefusal env v text fault →
      (s.applyEnvironment env).2 = some fault := by
    intro v text fault hv
    rw [hv.run s]
  refine ⟨?_, fun fault => ⟨fun hfault => ?_, ?_⟩, ?_, ?_, fun p => same_applyEnvironment,
    sameElsewhere_applyEnvironment⟩
  · rw [ne_eq, houtcome]
    unfold Unrefused
    push Not
    exact ⟨fun ⟨v, _, text, henv, fault, hrefuses⟩ => ⟨v, text, fault, henv, hrefuses⟩,
      fun ⟨v, text, fault, henv, hrefuses⟩ => ⟨v, v.mem_all, text, henv, fault, hrefuses⟩⟩
  · have hrefused : ¬Unrefused env Variable.all := by
      rw [← houtcome, hfault]
      exact Option.some_ne_none fault
    obtain ⟨v, text, fault', hv⟩ := exists_firstRefusal hrefused
    obtain rfl : fault' = fault := Option.some.inj ((hfirst hv).symm.trans hfault)
    exact ⟨v, text, hv⟩
  · rintro ⟨v, text, hv⟩
    exact hfirst hv
  · intro v text fault hv
    have hprefix := hv.run_earlier s
    rw [← congrArg Prod.fst (hv.run s)] at hprefix
    exact ⟨Variable.name_prefix_of_refuses hv.refused, hprefix, fun w => hv.same s⟩
  · intro hnone
    have hwhole := houtcome.1 hnone
    exact ⟨fun v text henv hport => holds_applyEnvironment hwhole henv hport,
      applyEnvironment_again hwhole⟩

/-- A limit that is no number comes behind the port, which stays, and before the schema, which is
not reached; without the limit both are taken. -/
theorem applyEnvironment_exact_limit :
    let env : Environment := fun name =>
      [("BIND_ADDRESS", "::1"), ("PORT", "+08"), ("RECORD_LIMIT", "lots"),
        ("DB_SCHEMA", "a")].lookup name
    let env' : Environment := fun name => if name = "RECORD_LIMIT" then none else env name
    (∃ t, standard.applyEnvironment env = (t, some (.recordLimit "lots")) ∧
      FirstRefusal env .recordLimit "lots" (.recordLimit "lots") ∧
      t.bindAddress = "0.0.0.0:8" ∧ Place.schema.Same standard t) ∧
    ∃ t, standard.applyEnvironment env' = (t, none) ∧ t.bindAddress = "0.0.0.0:8" ∧
      t.schema = some "a" ∧ t.applyEnvironment env' = (t, none) := by
  intro env env'
  have hrefused : standard.applyEnvironment env =
      ({ standard with bindAddress := "0.0.0.0:8" }, some (.recordLimit "lots")) := by
    decide +kernel
  have htaken : standard.applyEnvironment env' =
      ({ standard with bindAddress := "0.0.0.0:8", schema := some "a" }, none) := by
    decide +kernel
  obtain ⟨-, hfault, hfirst, -⟩ := applyEnvironment_exact hrefused
  obtain ⟨-, -, -, hnone, -⟩ := applyEnvironment_exact htaken
  obtain ⟨v, text, hv⟩ := (hfault _).1 rfl
  have hrefuses := hv.refused
  cases hrefuses
  refine ⟨⟨_, hrefused, hv, rfl, ?_⟩, _, htaken, rfl, ?_, (hnone rfl).2⟩
  · exact (hfirst _ _ _ hv).2.2 .schema (by decide) (by decide)
  · exact (hnone rfl).1 .schema "a" (by decide) (by decide)

end Settings

end RestSql
