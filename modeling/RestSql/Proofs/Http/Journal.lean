import RestSql.Http.Service

/-!
The statements that a service hands to its engine. An action says which statements it can hand over,
whatever the engine answers; running requests one after the other on an engine keeps a journal of
those that were handed over. What holds of every statement that an action can hand over holds of
every statement in the journal.
-/

namespace RestSql.Http

/-! ## Actions -/

namespace Action

/-- Whatever the engine answers, every statement handed over is one of these. -/
def All (p : Statement → Prop) : Action → Prop
  | .answer _ => True
  | .fetch s next => p s ∧ ∀ x, (next x).All p
  | .execute s next => p s ∧ ∀ x, (next x).All p

theorem All.mapAnswer {p : Statement → Prop} {f : Response → Response} {a : Action} (h : a.All p) :
    (a.mapAnswer f).All p := by
  induction a with
  | answer r => trivial
  | fetch s next ih => exact ⟨h.1, fun x => ih x (h.2 x)⟩
  | execute s next ih => exact ⟨h.1, fun x => ih x (h.2 x)⟩

theorem all_fetchRows {p : Statement → Prop} {s : Statement} (h : p s) : (fetchRows s).All p := by
  refine ⟨h, ?_⟩
  intro x
  cases x <;> trivial

theorem all_executeRows {p : Statement → Prop} {status : Nat} {s : Statement} (h : p s) :
    (executeRows status s).All p := by
  refine ⟨h, ?_⟩
  intro x
  cases x <;> trivial

end Action

/-! ## Engines -/

/-- A database engine with a state of its own: how it answers, and what becomes of it. -/
structure Engine (σ : Type) where
  fetch : Statement → σ → Except EngineFault (List Json) × σ
  execute : Statement → σ → Except EngineFault Nat × σ

structure Session (σ : Type) where
  state : σ
  journal : List Statement

namespace Engine

variable {σ : Type}

def fetchLogged (e : Engine σ) (s : Statement) :
    StateM (Session σ) (Except EngineFault (List Json)) := fun x =>
  ((e.fetch s x.state).1, ⟨(e.fetch s x.state).2, x.journal ++ [s]⟩)

def executeLogged (e : Engine σ) (s : Statement) :
    StateM (Session σ) (Except EngineFault Nat) := fun x =>
  ((e.execute s x.state).1, ⟨(e.execute s x.state).2, x.journal ++ [s]⟩)

def run (e : Engine σ) (a : Action) : StateM (Session σ) Response :=
  a.run e.fetchLogged e.executeLogged

theorem journal_run {p : Statement → Prop} (e : Engine σ) {a : Action} (h : a.All p)
    {x : Session σ} (hx : ∀ s ∈ x.journal, p s) : ∀ s ∈ (e.run a x).2.journal, p s := by
  induction a generalizing x with
  | answer r => exact hx
  | fetch s next ih =>
    apply ih _ (h.2 _)
    exact List.forall_mem_append.2 ⟨hx, List.forall_mem_singleton.2 h.1⟩
  | execute s next ih =>
    apply ih _ (h.2 _)
    exact List.forall_mem_append.2 ⟨hx, List.forall_mem_singleton.2 h.1⟩

def serve (e : Engine σ) (service : Service) : List Request → Session σ → List Response × Session σ
  | [], x => ([], x)
  | r :: rs, x =>
    let (a, y) := e.run (service.act r) x
    let (as, z) := e.serve service rs y
    (a :: as, z)

/-- What every request can hand over is all that a run hands over. -/
theorem journal_serve {p : Statement → Prop} (e : Engine σ) {service : Service}
    (h : ∀ r, (service.act r).All p) (rs : List Request) {x : Session σ}
    (hx : ∀ s ∈ x.journal, p s) : ∀ s ∈ (e.serve service rs x).2.journal, p s := by
  induction rs generalizing x with
  | nil => exact hx
  | cons r rs ih => exact ih (e.journal_run (h r) hx)

end Engine

/-! ## Services -/

namespace Service

variable {p : Statement → Prop}

theorem handle_all {m : Mapping} {route : Route} {target method : String} {q : Query}
    {body : List UInt8}
    (h : ∀ r s, request m route target method q body = .ok r → m.compile r = .ok s → p s) :
    (handle m route target method q body).All p := by
  unfold handle
  cases hr : request m route target method q body with
  | error f => trivial
  | ok r =>
    cases hs : m.compile r with
    | error f => simp [hs, bind, Except.bind, Action.ofExcept, Action.All]
    | ok s =>
      have hp : p s := h r s hr hs
      simp only [hs, bind, Except.bind, pure, Except.pure, Action.ofExcept]
      cases r with
      | insert table row => exact Action.all_executeRows hp
      | _ =>
        dsimp only
        split
        · exact Action.all_fetchRows hp
        · exact Action.all_executeRows hp

theorem withParameter_all {label : String} {raw : List Char} {handler : String → Action}
    (h : ∀ target, (handler target).All p) : (withParameter label raw handler).All p := by
  unfold withParameter
  cases Route.decodeParameter? raw with
  | none => trivial
  | some target => exact h target

theorem dispatch_all {service : Service} {route : Route} {r : Http.Request}
    (h : ∀ target, (serve service.mapping route target r).All p) :
    (service.dispatch route r).All p := by
  unfold dispatch
  split
  · trivial
  · cases route with
    | health => trivial
    | routine raw => exact withParameter_all h
    | table raw => exact withParameter_all h

/-- Only statements compiled from requests are handed over. -/
theorem act_all (service : Service)
    (h : ∀ route target method pairs body r s,
      request service.mapping route target method (Query.ofPairs pairs) body = .ok r →
        service.mapping.compile r = .ok s → p s) (r : Http.Request) : (service.act r).All p := by
  have hserve : ∀ route target, (serve service.mapping route target r).All p := by
    intro route target
    unfold serve
    split
    · trivial
    · exact handle_all (h route target r.method _ r.body)
  unfold act
  cases Route.ofPath? r.target.path with
  | none =>
    -- without a route there is an answer at once
    split
    · trivial
    · split <;> trivial
  | some route =>
    have hroute : (service.dispatch route r).All p := dispatch_all (hserve route)
    split
    · exact hroute.mapAnswer
    · split
      · trivial
      · exact hroute.mapAnswer

end Service

end RestSql.Http
