import RestSql.Proofs.Http.Journal
import RestSql.Proofs.Request.Refusals
import RestSql.Proofs.Statement.Writes
import RestSql.Proofs.Text.Utf8

namespace RestSql.Http

/-! ## Calls of the engine -/

inductive EngineCall
  | fetch (s : Statement) (result : Except EngineFault (List Json))
  | execute (s : Statement) (result : Except EngineFault Nat)

namespace EngineCall

def statement : EngineCall → Statement
  | fetch s _ | execute s _ => s

def isFetch : EngineCall → Bool
  | fetch .. => true
  | execute .. => false

def fault? : EngineCall → Option EngineFault
  | fetch _ (.error fault) | execute _ (.error fault) => some fault
  | fetch _ (.ok _) | execute _ (.ok _) => none

/-- The status of an answer after a call: one if it succeeded, and else that of its fault. -/
def Answered (success : Nat) (call : EngineCall) (response : Response) : Prop :=
  match call.fault? with
  | none => response.status = success
  | some (.connection _) => response.status = 503
  | some (.execution _) => response.status = 500

end EngineCall

structure Exchange where
  calls : List EngineCall
  response : Response

namespace Engine

variable {σ : Type}

def recorded (e : Engine σ) : Engine (σ × List EngineCall) where
  fetch s x := ((e.fetch s x.1).1, (e.fetch s x.1).2, x.2 ++ [.fetch s (e.fetch s x.1).1])
  execute s x := ((e.execute s x.1).1, (e.execute s x.1).2, x.2 ++ [.execute s (e.execute s x.1).1])

def exchange (e : Engine σ) (a : Action) (x : σ) : Exchange × σ :=
  let run := e.recorded.run a ⟨(x, []), []⟩
  (⟨run.2.state.2, run.1⟩, run.2.state.1)

def exchanges (e : Engine σ) (service : Service) : List Request → σ → List Exchange
  | [], _ => []
  | r :: rs, x =>
    let (t, y) := e.exchange (service.act r) x
    t :: e.exchanges service rs y

theorem run_mapAnswer (e : Engine σ) (f : Response → Response) (a : Action) (x : Session σ) :
    e.run (a.mapAnswer f) x = (f (e.run a x).1, (e.run a x).2) := by
  induction a generalizing x with
  | answer r => rfl
  | fetch s next ih => exact ih _ _
  | execute s next ih => exact ih _ _

theorem run_recorded (e : Engine σ) (a : Action) (x : Session σ) (calls : List EngineCall)
    (journal : List Statement) :
    (e.recorded.run a ⟨(x.state, calls), journal⟩).1 = (e.run a x).1 ∧
      (e.recorded.run a ⟨(x.state, calls), journal⟩).2.state.1 = (e.run a x).2.state := by
  induction a generalizing x calls journal with
  | answer r => exact ⟨rfl, rfl⟩
  | fetch s next ih => exact ih _ ⟨(e.fetch s x.state).2, x.journal ++ [s]⟩ _ _
  | execute s next ih => exact ih _ ⟨(e.execute s x.state).2, x.journal ++ [s]⟩ _ _

theorem map_response_exchanges (e : Engine σ) (service : Service) (rs : List Request)
    (x : Session σ) :
    (e.exchanges service rs x.state).map (·.response) = (e.serve service rs x).1 := by
  induction rs generalizing x with
  | nil => rfl
  | cons r rs ih =>
    obtain ⟨hresponse, hstate⟩ := e.run_recorded (service.act r) x [] []
    have hrest := ih (e.run (service.act r) x).2
    rw [← hstate] at hrest
    exact congr (congrArg List.cons hresponse) hrest

theorem exchange_mapAnswer (e : Engine σ) (f : Response → Response) (a : Action) (x : σ) :
    e.exchange (a.mapAnswer f) x =
      (⟨(e.exchange a x).1.calls, f (e.exchange a x).1.response⟩, (e.exchange a x).2) := by
  rw [exchange, run_mapAnswer]
  rfl

theorem exchange_fetchRows (e : Engine σ) (s : Statement) (x : σ) :
    ∃ call response, (e.exchange (fetchRows s) x).1 = ⟨[call], response⟩ ∧
      call.statement = s ∧ call.isFetch = true ∧ call.Answered 200 response := by
  refine ⟨.fetch s (e.fetch s x).1, (e.exchange (fetchRows s) x).1.response, ?_, rfl, rfl, ?_⟩
  all_goals
    simp only [exchange, run, fetchRows, Action.run, fetchLogged, recorded, bind, StateT.bind]
    cases (e.fetch s x).1 with
    | ok rows => rfl
    | error fault => cases fault <;> rfl

theorem exchange_executeRows (e : Engine σ) (status : Nat) (s : Statement) (x : σ) :
    ∃ call response, (e.exchange (executeRows status s) x).1 = ⟨[call], response⟩ ∧
      call.statement = s ∧ call.isFetch = false ∧ call.Answered status response := by
  refine ⟨.execute s (e.execute s x).1, (e.exchange (executeRows status s) x).1.response, ?_, rfl,
    rfl, ?_⟩
  all_goals
    simp only [exchange, run, executeRows, Action.run, executeLogged, recorded, bind, StateT.bind]
    cases (e.execute s x).1 with
    | ok n => rfl
    | error fault => cases fault <;> rfl

end Engine

/-! ## Handlers -/

/-- A body is the JSON of its text, unless it is blank. -/
theorem bodyJson_encode {text : String}
    (h : (Text.Utf8.encode text).all isBlankByte = false) :
    bodyJson (Text.Utf8.encode text) =
      (Json.ofText? text).elim (.error (.body .notJson)) .ok := by
  rw [bodyJson, h, Text.Utf8.decode?_encode, Option.bind_some]
  cases Json.ofText? text <;> rfl

structure Extracted where
  route : Route
  target : String
  method : String
  query : Query
  body : List UInt8
deriving DecidableEq

namespace Extracted

def request (m : Mapping) (x : Extracted) : Except Failure RestSql.Request :=
  Service.request m x.route x.target x.method x.query x.body

def handle (m : Mapping) (x : Extracted) : Action :=
  Service.handle m x.route x.target x.method x.query x.body

theorem refuses_bodyJson (body : List UInt8) : Refuses (bodyJson body) := by
  rw [bodyJson]
  split
  · exact .ok Json.null
  split
  · exact .ok _
  · exact .error rfl

theorem refuses_request (m : Mapping) (x : Extracted) : Refuses (x.request m) := by
  rw [request, Service.request.eq_def]
  -- a call, an insert, an update by either method, a delete, and a read by any other
  split
  · exact (refuses_bodyJson x.body).bind fun v => m.refuses_callJson x.target v
  · exact (refuses_bodyJson x.body).bind fun v => m.refuses_insert x.target v
  · exact (refuses_bodyJson x.body).bind fun v => m.refuses_update x.target x.query v
  · exact (refuses_bodyJson x.body).bind fun v => m.refuses_update x.target x.query v
  · exact m.refuses_delete x.target x.query
  · exact m.refuses_read x.target x.query

/-- A handler answers at once with a failure that is the client's, or runs the statement that it
compiled: for its rows if the request yields rows, and else for their number. -/
theorem handle_cases (m : Mapping) (x : Extracted) :
    (∃ f, f.status = 400 ∧ (∀ r s, x.request m = .ok r → m.compile r ≠ .ok s) ∧
        x.handle m = .answer (.ofFailure f)) ∨
      ∃ r s, x.request m = .ok r ∧ m.compile r = .ok s ∧
        ((r.returnsRows = true ∧ x.handle m = fetchRows s) ∨
          (r.returnsRows = false ∧ ∃ status, (status = 200 ∨ status = 201) ∧
            x.handle m = executeRows status s)) := by
  rw [handle, Service.handle, ← request]
  cases hr : x.request m with
  | error f =>
    refine .inl ⟨f, x.refuses_request m f hr, fun r s h => ?_, rfl⟩
    cases h
  | ok r =>
    cases hs : m.compile r with
    | error f =>
      refine .inl ⟨f, m.refuses_compile r f hs, fun r' s h hs' => ?_, ?_⟩
      · obtain rfl := Except.ok.inj h
        rw [hs] at hs'
        cases hs'
      · simp only [hs, bind, Except.bind]
        rfl
    | ok s =>
      refine .inr ⟨r, s, rfl, hs, ?_⟩
      simp only [hs, bind, Except.bind, pure, Except.pure, Action.ofExcept]
      cases r with
      | select q => exact .inl ⟨rfl, rfl⟩
      | insert table row => exact .inr ⟨rfl, 201, .inr rfl, rfl⟩
      | update u => exact .inr ⟨rfl, 200, .inl rfl, rfl⟩
      | delete table fs => exact .inr ⟨rfl, 200, .inl rfl, rfl⟩
      | call k =>
        by_cases hrows : (RestSql.Request.call k).returnsRows = true
        · exact .inl ⟨hrows, if_pos hrows⟩
        · exact .inr ⟨by simpa using hrows, 200, .inl rfl, if_neg hrows⟩

end Extracted

/-! ## Discipline -/

/-- The engine is called once if the request was mapped and compiled, with the statement compiled,
for rows if that is one that selects; otherwise it is not called. The status of the answer tells
whether it was called and whether the call failed. -/
structure Disciplined (m : Mapping) (x : Extracted) (t : Exchange) : Prop where
  calls_le : t.calls.length ≤ 1
  called_iff : t.calls ≠ [] ↔ ∃ r s, x.request m = .ok r ∧ m.compile r = .ok s
  called_with : ∀ call ∈ t.calls, ∃ r, x.request m = .ok r ∧ m.compile r = .ok call.statement ∧
    call.isFetch = r.returnsRows ∧
    (call.isFetch = true ↔ "SELECT".toList <+: call.statement.text.toList)
  of_client_status : 400 ≤ t.response.status → t.response.status < 500 → t.calls = []
  of_success_status : 200 ≤ t.response.status → t.response.status < 300 →
    ∃ call, t.calls = [call] ∧ call.fault? = none
  of_server_status : 500 ≤ t.response.status → t.response.status < 600 →
    ∃ call fault, t.calls = [call] ∧ call.fault? = some fault ∧
      match fault with
      | .connection _ => t.response.status = 503
      | .execution _ => t.response.status = 500

namespace Disciplined

variable {m : Mapping} {x : Extracted} {t : Exchange}

/-- Calls and status are all that counts. -/
theorem of_status_eq (h : Disciplined m x t) {response : Response}
    (hstatus : response.status = t.response.status) : Disciplined m x ⟨t.calls, response⟩ where
  calls_le := h.calls_le
  called_iff := h.called_iff
  called_with := h.called_with
  of_client_status := by simpa only [hstatus] using h.of_client_status
  of_success_status := by simpa only [hstatus] using h.of_success_status
  of_server_status := by simpa only [hstatus] using h.of_server_status

theorem of_refused {f : Failure} (hf : f.status = 400)
    (h : ∀ r s, x.request m = .ok r → m.compile r ≠ .ok s) :
    Disciplined m x ⟨[], .ofFailure f⟩ where
  calls_le := by simp
  called_iff := ⟨fun hne => absurd rfl hne, fun ⟨r, s, hr, hs⟩ => absurd hs (h r s hr)⟩
  called_with := by simp
  of_client_status _ _ := rfl
  of_success_status _ hlt := by
    have hstatus : (Response.ofFailure f).status = 400 := hf
    simp only [hstatus] at hlt
    omega
  of_server_status hle _ := by
    have hstatus : (Response.ofFailure f).status = 400 := hf
    simp only [hstatus] at hle
    omega

theorem of_called {r : RestSql.Request} {call : EngineCall} {response : Response} {status : Nat}
    (hr : x.request m = .ok r) (hs : m.compile r = .ok call.statement)
    (hfetch : call.isFetch = r.returnsRows) (hok : status = 200 ∨ status = 201)
    (hanswered : call.Answered status response) : Disciplined m x ⟨[call], response⟩ := by
  have hselect := Request.select_prefix_iff hs
  have hcalled : ([call] ≠ [] ↔ ∃ r s, x.request m = .ok r ∧ m.compile r = .ok s) :=
    ⟨fun _ => ⟨r, call.statement, hr, hs⟩, fun _ => by simp⟩
  have hwith : ∀ c ∈ [call], ∃ r, x.request m = .ok r ∧ m.compile r = .ok c.statement ∧
      c.isFetch = r.returnsRows ∧
      (c.isFetch = true ↔ "SELECT".toList <+: c.statement.text.toList) := by
    intro c hc
    obtain rfl := List.mem_singleton.1 hc
    exact ⟨r, hr, hs, hfetch, by rw [hfetch, hselect]⟩
  rw [EngineCall.Answered] at hanswered
  split at hanswered
  · rename_i hnone
    exact ⟨by simp, hcalled, hwith, fun h _ => by simp only [hanswered] at h; omega,
      fun _ _ => ⟨call, rfl, hnone⟩, fun h _ => by simp only [hanswered] at h; omega⟩
  · rename_i message hsome
    exact ⟨by simp, hcalled, hwith, fun _ h => by simp only [hanswered] at h; omega,
      fun _ h => by simp only [hanswered] at h; omega, fun _ _ => ⟨call, _, rfl, hsome, hanswered⟩⟩
  · rename_i message hsome
    exact ⟨by simp, hcalled, hwith, fun _ h => by simp only [hanswered] at h; omega,
      fun _ h => by simp only [hanswered] at h; omega, fun _ _ => ⟨call, _, rfl, hsome, hanswered⟩⟩

end Disciplined

variable {σ : Type}

/-- What a handler leads to on any engine, in any state of it. -/
theorem Extracted.disciplined (m : Mapping) (x : Extracted) (e : Engine σ) (y : σ) :
    Disciplined m x (e.exchange (x.handle m) y).1 := by
  rcases x.handle_cases m with ⟨f, hf, hnone, hhandle⟩ | ⟨r, s, hr, hs, hrows⟩
  · rw [hhandle]
    exact Disciplined.of_refused hf hnone
  · rcases hrows with ⟨hrows, hhandle⟩ | ⟨hrows, status, hstatus, hhandle⟩
    · obtain ⟨call, response, hexchange, rfl, hfetch, hanswered⟩ := e.exchange_fetchRows s y
      rw [hhandle, hexchange]
      exact Disciplined.of_called hr hs (hfetch.trans hrows.symm) (.inl rfl) hanswered
    · obtain ⟨call, response, hexchange, rfl, hfetch, hanswered⟩ :=
        e.exchange_executeRows status s y
      rw [hhandle, hexchange]
      exact Disciplined.of_called hr hs (hfetch.trans hrows.symm) hstatus hanswered

namespace Extracted

variable {m : Mapping} {x : Extracted} {st : Statement}

def statement (m : Mapping) (x : Extracted) : Except Failure Statement := do
  let r ← x.request m
  m.compile r

end Extracted

/-! ## Services -/

def Route.parameter? : Route → Option (List Char)
  | .health => none
  | .routine raw | .table raw => some raw

namespace Service

/-- What a request gives to a handler, if its parameter and its body can be read. -/
def given? (route : Route) (r : Request) : Option Extracted :=
  if route.readsBody r.method && bodyBound < r.body.length then none
  else (route.parameter?.bind Route.decodeParameter?).map fun target =>
    ⟨route, target, r.method, Query.ofPairs (Text.Percent.queryPairs r.target.query), r.body⟩

def extractAt? (route : Route) (r : Request) : Option Extracted :=
  if !route.methods.contains r.method then none else given? route r

/-- What the handler is given that a request reaches, if it reaches one. -/
def extract? (service : Service) (r : Request) : Option Extracted :=
  if service.crossOrigin && r.method = "OPTIONS" then none
  else (Route.ofPath? r.target.path).bind fun route => extractAt? route r

/-- A parameter that cannot be read is answered at once, and so is a body that is too long. -/
theorem withParameter_serve_eq (m : Mapping) (label : String) {route : Route} {raw : List Char}
    (hroute : route.parameter? = some raw) (r : Request) :
    (∃ x, given? route r = some x ∧
        withParameter label raw (fun target => serve m route target r) = x.handle m) ∨
      given? route r = none ∧
        ∃ a, withParameter label raw (fun target => serve m route target r) = .answer a := by
  simp only [given?, hroute, Option.bind_some, withParameter, serve]
  cases Route.decodeParameter? raw with
  | none => exact .inr ⟨by split <;> rfl, _, rfl⟩
  | some target =>
    dsimp only
    split
    · exact .inr ⟨rfl, _, rfl⟩
    · exact .inl ⟨_, rfl, rfl⟩

theorem dispatch_eq (service : Service) (route : Route) (r : Request) :
    (∃ x, extractAt? route r = some x ∧ service.dispatch route r = x.handle service.mapping) ∨
      extractAt? route r = none ∧ ∃ a, service.dispatch route r = .answer a := by
  rw [extractAt?, dispatch.eq_def]
  split
  · exact .inr ⟨rfl, _, rfl⟩
  · cases route with
    | health => exact .inr ⟨by rw [given?]; split <;> rfl, _, rfl⟩
    | routine raw => exact withParameter_serve_eq service.mapping "routine" rfl r
    | table raw => exact withParameter_serve_eq service.mapping "table" rfl r

/-- What a service does on the path of a request. -/
def direct (service : Service) (r : Request) : Action :=
  match Route.ofPath? r.target.path with
  | some route => service.dispatch route r
  | none => .answer (.empty 404)

theorem mapAnswer_direct (service : Service) (r : Request) {f : Response → Response}
    (hf : ∀ a, (f a).status = a.status) :
    (∃ x g, (Route.ofPath? r.target.path).bind (extractAt? · r) = some x ∧
        (∀ a : Response, (g a).status = a.status) ∧
        (service.direct r).mapAnswer f = (x.handle service.mapping).mapAnswer g) ∨
      (Route.ofPath? r.target.path).bind (extractAt? · r) = none ∧
        ∃ a, (service.direct r).mapAnswer f = .answer a := by
  rw [direct]
  cases Route.ofPath? r.target.path with
  | none => exact .inr ⟨rfl, _, rfl⟩
  | some route =>
    rcases service.dispatch_eq route r with ⟨x, hx, hdispatch⟩ | ⟨hnone, a, hdispatch⟩
    · exact .inl ⟨x, f, hx, hf, congrArg (Action.mapAnswer f) hdispatch⟩
    · exact .inr ⟨hnone, f a, congrArg (Action.mapAnswer f) hdispatch⟩

/-- A service does what the handler does that the request reaches, and the last step of its answer
keeps the status; without a handler it answers at once. -/
theorem act_eq (service : Service) (r : Request) :
    (∃ x f, service.extract? r = some x ∧ (∀ a : Response, (f a).status = a.status) ∧
        service.act r = (x.handle service.mapping).mapAnswer f) ∨
      service.extract? r = none ∧ ∃ a, service.act r = .answer a := by
  have hkeeps : ∀ a, (withoutBody r.method a).status = a.status := by
    intro a
    rw [withoutBody]
    split <;> rfl
  rw [extract?, act]
  cases service.crossOrigin with
  | false => exact service.mapAnswer_direct r hkeeps
  | true =>
    by_cases hmethod : r.method = "OPTIONS"
    · simp only [hmethod]
      exact .inr ⟨rfl, _, rfl⟩
    · simp only [hmethod, decide_false, Bool.and_false, Bool.false_eq_true, if_false, Bool.not_true]
      exact service.mapAnswer_direct r hkeeps

/-- One request leads to a disciplined exchange, or it reaches no handler and calls nothing. -/
theorem act_disciplined (service : Service) (e : Engine σ) (r : Request) (y : σ) :
    (service.extract? r = none → (e.exchange (service.act r) y).1.calls = []) ∧
      ∀ x, service.extract? r = some x →
        Disciplined service.mapping x (e.exchange (service.act r) y).1 := by
  rcases service.act_eq r with ⟨x, f, hx, hf, hact⟩ | ⟨hnone, a, hact⟩
  · refine ⟨fun h => by simp [h] at hx, fun x' hx' => ?_⟩
    obtain rfl := Option.some.inj (hx.symm.trans hx')
    rw [hact, Engine.exchange_mapAnswer]
    exact (x.disciplined service.mapping e y).of_status_eq (hf _)
  · refine ⟨fun _ => by rw [hact]; rfl, fun x hx => ?_⟩
    rw [hnone] at hx
    cases hx

/-- Whatever the requests are and whatever the engine does, each request that reaches a handler
leads to a disciplined exchange: one call of the engine with the statement compiled, or none, told
apart by the status of the answer. A request that reaches no handler calls nothing, and the answers
are those of the service. -/
theorem exchanges_disciplined (service : Service) (e : Engine σ) (rs : List Request) (y : σ) :
    (e.exchanges service rs y).map (·.response) = (e.serve service rs ⟨y, []⟩).1 ∧
      List.Forall₂ (fun r t =>
        (∀ x, service.extract? r = some x → Disciplined service.mapping x t) ∧
          (service.extract? r = none → t.calls = [])) rs (e.exchanges service rs y) := by
  refine ⟨e.map_response_exchanges service rs ⟨y, []⟩, ?_⟩
  induction rs generalizing y with
  | nil => exact .nil
  | cons r rs ih =>
    obtain ⟨hnone, hsome⟩ := service.act_disciplined e r y
    exact .cons ⟨hsome, hnone⟩ (ih _)

/-- An engine that answers one call and is out of reach from then on. -/
def onceInReach : Engine Bool where
  fetch _ inReach := (if inReach then .ok [] else .error (.connection "pool timed out"), false)
  execute _ inReach := (if inReach then .ok 1 else .error (.connection "pool timed out"), false)

/-- Of two reads the second one fails in the engine. -/
theorem exchanges_disciplined_reads :
    extract? ⟨⟨.standard, .standard⟩, false⟩ ⟨"GET", ⟨"/t", ""⟩, []⟩ =
        some ⟨.table ['t'], "t", "GET", .empty, []⟩ ∧
      ∃ t u, onceInReach.exchanges ⟨⟨.standard, .standard⟩, false⟩
          [⟨"GET", ⟨"/t", ""⟩, []⟩, ⟨"GET", ⟨"/t", ""⟩, []⟩] true = [t, u] ∧
        Disciplined ⟨.standard, .standard⟩ ⟨.table ['t'], "t", "GET", .empty, []⟩ t ∧
        Disciplined ⟨.standard, .standard⟩ ⟨.table ['t'], "t", "GET", .empty, []⟩ u ∧
        t.response.status = 200 ∧ u.response.status = 503 := by
  have hx : extract? ⟨⟨.standard, .standard⟩, false⟩ ⟨"GET", ⟨"/t", ""⟩, []⟩ =
      some ⟨.table ['t'], "t", "GET", .empty, []⟩ := by decide +kernel
  have hstatus : (onceInReach.exchanges ⟨⟨.standard, .standard⟩, false⟩
      [⟨"GET", ⟨"/t", ""⟩, []⟩, ⟨"GET", ⟨"/t", ""⟩, []⟩] true).map (·.response.status) =
      [200, 503] := by decide +kernel
  have hall := (exchanges_disciplined ⟨⟨.standard, .standard⟩, false⟩ onceInReach
    [⟨"GET", ⟨"/t", ""⟩, []⟩, ⟨"GET", ⟨"/t", ""⟩, []⟩] true).2
  refine ⟨hx, ?_⟩
  generalize onceInReach.exchanges ⟨⟨.standard, .standard⟩, false⟩
    [⟨"GET", ⟨"/t", ""⟩, []⟩, ⟨"GET", ⟨"/t", ""⟩, []⟩] true = ts at hstatus hall ⊢
  cases hall with
  | cons ht htail =>
    cases htail with
    | cons hu hnil =>
      cases hnil
      obtain ⟨h200, hrest⟩ := List.cons.inj hstatus
      exact ⟨_, _, rfl, ht.1 _ hx, hu.1 _ hx, h200, (List.cons.inj hrest).1⟩

end Service

end RestSql.Http
