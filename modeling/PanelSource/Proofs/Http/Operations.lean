import Mathlib.Data.List.Forall2
import PanelSource.Proofs.Http.Exchanges

/-! # Requests as operations on a datasource

A well-formed request asks for one operation. Requests in turn send what their operations send, and
each response tells how its operation has ended. -/
namespace PanelSource

/-- What a client may ask a datasource for. -/
inductive Operation
  | query (request : Request)
  | compile (d : Description)
  | tables
  | columns (table : String)
  | values (table column : String) (limit : Option Nat)
  | health

/-- What a datasource answers. -/
inductive Value
  | series (series : List Series)
  | statement (statement : String)
  | suggestions (texts : List String)
  | health (health : Health)

namespace Datasource

variable {σ : Type} (ds : Datasource σ)

def perform : Operation → Work σ Value
  | .query request => do return .series (← ds.query request)
  | .compile d => do return .statement (← Work.ofQuery (ds.compile d))
  | .tables => do return .suggestions (← ds.tables)
  | .columns table => do return .suggestions (← ds.columns table)
  | .values table column limit => do return .suggestions (← ds.values table column limit)
  | .health => do return .health (← ds.health)

/-- Operations in turn, each with its outcome and what it has sent, and the store behind the last
one. -/
def performAll : List Operation → σ → List (Except ServiceError Value × List String) × σ
  | [], x => ([], x)
  | op :: rest, x =>
    let (outcome, s) := (ds.perform op).outcome { store := x }
    let (results, y) := performAll rest s.store
    ((outcome, s.sent) :: results, y)

end Datasource

namespace HttpRequest

/-- Answers are read with their content, or only their heads. -/
def Reads (req : HttpRequest) : Prop := req.method = "GET" ∨ req.method = "HEAD"

/-- A well-formed request asks for an operation. -/
inductive Asks (req : HttpRequest) : Operation → Prop
  | query {request : Request} (hpath : req.At .query) (hmethod : req.method = "POST")
      (hbody : req.Holds Request.shape.reader request) : Asks req (.query request)
  | compile {d : Description} (hpath : req.At .compile) (hmethod : req.method = "POST")
      (hbody : req.Holds Description.shape.reader d) : Asks req (.compile d)
  | tables (hpath : req.At .tables) (hmethod : req.Reads) : Asks req .tables
  | columns {segment : List Char} {table : String} (hpath : req.At (.columns segment))
      (hmethod : req.Reads) (htable : Names segment table) : Asks req (.columns table)
  | values {segment segment' : List Char} {table column : String} {limit : Option Nat}
      (hpath : req.At (.values segment segment')) (hmethod : req.Reads)
      (htable : Names segment table) (hcolumn : Names segment' column)
      (hlimit : Server.limit? req.query = some limit) : Asks req (.values table column limit)
  | health (hpath : req.At .status) (hmethod : req.Reads) : Asks req .health

end HttpRequest

/-- The status and the code that a class of errors is reported with. -/
inductive ServiceError.ReportedAs : ServiceError → Nat → String → Prop
  | invalidDescription (what : Shortcoming) :
      ReportedAs (.query (.invalidDescription what)) 400 "INVALID_QUERY_DESCRIPTION"
  | missingColumn (name : String) :
      ReportedAs (.query (.missingColumn name)) 502 "MISSING_COLUMN"
  | invalidTimestamp (row : Nat) (cell : Json) :
      ReportedAs (.query (.invalidTimestamp row cell)) 502 "INVALID_TIMESTAMP"
  | database (message : String) : ReportedAs (.store (.database message)) 400 "SQL_ERROR"
  | pool (message : String) : ReportedAs (.store (.pool message)) 500 "CONNECTION_ERROR"
  | task (message : String) : ReportedAs (.store (.task message)) 500 "INTERNAL_ERROR"

def ServiceError.report (code message : String) : Json :=
  Json.ofFields [("error", Json.ofFields [("code", .text code), ("message", .text message)])]

namespace Server

variable {σ : Type} (srv : Server σ)

def valueJson : Value → Json
  | .series series => seriesJson series
  | .statement statement => sqlJson statement
  | .suggestions texts => Json.texts texts
  | .health health => srv.statusJson health

/-- A response with JSON for its content, which is withheld where only the head is asked for. -/
def told (req : HttpRequest) (status : Nat) (body : Json) : HttpResponse where
  status := status
  contentType := some "application/json"
  content := if req.method = "HEAD" then none else some (.json body)

def toldFailure (req : HttpRequest) (e : ServiceError) : HttpResponse :=
  told req e.status (ServiceError.report e.code e.message)

/-- The response tells how an operation has ended. -/
inductive Tells (req : HttpRequest) : Except ServiceError Value → HttpResponse → Prop
  | value (v : Value) : Tells req (.ok v) (told req 200 (srv.valueJson v))
  | failure {e : ServiceError} {status : Nat} {code : String} (h : e.ReportedAs status code) :
      Tells req (.error e) (told req status (ServiceError.report code e.message))

theorem tells_ofOutcome (req : HttpRequest) (outcome : Except ServiceError Value) :
    srv.Tells req outcome
      (if req.method = "HEAD" then
        (HttpResponse.ofOutcome (outcome.map srv.valueJson)).withoutContent
      else HttpResponse.ofOutcome (outcome.map srv.valueJson)) := by
  have htold (status : Nat) (body : Json) : told req status body =
      if req.method = "HEAD" then (HttpResponse.withContent status (.json body)).withoutContent
      else HttpResponse.withContent status (.json body) := by
    unfold told
    split <;> rfl
  cases outcome with
  | ok v =>
    have hvalue : srv.Tells req (.ok v) (told req 200 (srv.valueJson v)) := .value v
    rwa [htold] at hvalue
  | error e =>
    have hreported : e.ReportedAs e.status e.code := by
      rcases e with (_ | _ | _) | (_ | _ | _) <;> constructor
    have hfailure : srv.Tells req (.error e)
        (told req e.status (ServiceError.report e.code e.message)) := .failure hreported
    rwa [htold] at hfailure

variable {srv} {req : HttpRequest} {response : HttpResponse}

theorem Tells.eq_told_value {v : Value} (h : srv.Tells req (.ok v) response) :
    response = told req 200 (srv.valueJson v) := by
  cases h
  rfl

theorem Tells.eq_toldFailure {e : ServiceError} (h : srv.Tells req (.error e) response) :
    response = toldFailure req e := by
  cases h with
  | failure h => cases h <;> rfl

variable (srv)

/-- The exchange ends as the work does, and has done nothing else but report. -/
def Follows (exchange : Exchange σ HttpResponse) (w : Work σ Value) : Prop :=
  ∀ s, ∃ events, exchange.run s =
    (.ofOutcome ((w.outcome s).1.map srv.valueJson), { (w.outcome s).2 with events := events })

theorem respond_follows {α : Type} {toJson : α → Json} (g : α → Value)
    (hjson : ∀ a, srv.valueJson (g a) = toJson a) (w : Work σ α) :
    srv.Follows (respond toJson w) (w >>= fun a => pure (g a)) := by
  intro s
  obtain ⟨events, he⟩ := respond_run toJson w s
  refine ⟨events, ?_⟩
  rw [he, Work.outcome_map]
  cases (w.outcome s).1 with
  | error e => rfl
  | ok a => simp only [Except.map, hjson]

theorem runQuery_follows (request : Request) :
    srv.Follows (respond seriesJson (srv.runQuery request))
      (srv.datasource.perform (.query request)) := by
  intro s
  obtain ⟨events, he⟩ := Work.outcome_bind_report (srv.datasource.query request)
    (fun series => .queryAnswered series.length) s
  obtain ⟨events', he'⟩ := srv.respond_follows Value.series
    (fun series => (rfl : _ = seriesJson series)) (srv.runQuery request) s
  refine ⟨events', ?_⟩
  rw [he', Datasource.perform, Work.outcome_map, Work.outcome_map, runQuery, he]

open HttpRequest in
theorem answer_follows {req : HttpRequest} {op : Operation} (h : req.Asks op) :
    ∃ r, req.At r ∧ req.method ∈ r.methods ∧
      srv.Follows (srv.answer req r) (srv.datasource.perform op) := by
  have hread (hr : req.Reads) {r : Route} (hbody : r.takesBody = false) :
      req.method ∈ r.methods := by
    rcases hr with hr | hr <;> simp [Route.methods, hbody, hr]
  cases h with
  | query hpath hmethod hbody =>
    refine ⟨_, hpath, by rw [hmethod]; decide, ?_⟩
    rw [answer, withBody_of_holds hbody]
    exact srv.runQuery_follows _
  | compile hpath hmethod hbody =>
    refine ⟨_, hpath, by rw [hmethod]; decide, ?_⟩
    rw [answer, withBody_of_holds hbody]
    exact srv.respond_follows Value.statement (fun _ => rfl) _
  | tables hpath hmethod =>
    refine ⟨_, hpath, hread hmethod rfl, ?_⟩
    exact srv.respond_follows Value.suggestions (fun _ => rfl) _
  | columns hpath hmethod htable =>
    refine ⟨_, hpath, hread hmethod rfl, ?_⟩
    rw [answer, withName_of_names htable]
    exact srv.respond_follows Value.suggestions (fun _ => rfl) _
  | values hpath hmethod htable hcolumn hlimit =>
    refine ⟨_, hpath, hread hmethod rfl, ?_⟩
    rw [answer, withName_of_names htable, withName_of_names hcolumn, withLimit_of_limit hlimit]
    exact srv.respond_follows Value.suggestions (fun _ => rfl) _
  | health hpath hmethod =>
    refine ⟨_, hpath, hread hmethod rfl, ?_⟩
    exact srv.respond_follows Value.health (fun _ => rfl) _

/-- One request is one operation. -/
theorem step_tells {a : Arrival} {op : Operation} (h : a.request.Asks op) (x : σ) :
    ∃ response s, srv.step a x = (response, s) ∧
      s.store = ((srv.datasource.perform op).outcome { store := x }).2.store ∧
      s.sent = ((srv.datasource.perform op).outcome { store := x }).2.sent ∧
      (srv.upFor a.uptimeSeconds).Tells a.request
        ((srv.datasource.perform op).outcome { store := x }).1 response := by
  obtain ⟨r, hpath, hmethod, hfollows⟩ := (srv.upFor a.uptimeSeconds).answer_follows h
  obtain ⟨events, he⟩ := hfollows { store := x }
  refine ⟨_, { ((srv.datasource.perform op).outcome { store := x }).2 with events := events }, ?_,
    rfl, rfl, tells_ofOutcome _ a.request _⟩
  rw [step, handle_of_at hpath hmethod, StateT.run_bind, he]
  rfl

theorem step_of_yields {a : Arrival} {op : Operation} {x y : σ} {r : Except ServiceError Value}
    {sent : List String} (h : a.request.Asks op)
    (hyields : (srv.datasource.perform op).Yields x r sent y) :
    (srv.step a x).2.store = y ∧ (srv.step a x).2.sent = sent ∧
      (srv.upFor a.uptimeSeconds).Tells a.request r (srv.step a x).1 := by
  obtain ⟨response, s, hstep, hstore, hsent, htells⟩ := srv.step_tells h x
  obtain ⟨events, he⟩ := hyields { store := x } rfl
  rw [he] at hstore hsent htells
  rw [hstep]
  exact ⟨hstore, hsent, htells⟩

/-- A step sends what its operation sends and tells how it has ended. -/
def Answers (asked : Arrival × Except ServiceError Value × List String)
    (step : HttpResponse × List String) : Prop :=
  step.2 = asked.2.2 ∧
    (srv.upFor asked.1.uptimeSeconds).Tells asked.1.request asked.2.1 step.1

/-- A panel is refreshed, then the head of one suggestion is asked for and the content of another,
with an escape in its path. -/
def threeArrivals : List Arrival :=
  [⟨⟨"POST", "/api/query".toList, [], [("content-type", "application/json")],
      "\x7b\"targets\":[\x7b\"mode\":\"sql\",\"query\":\"SELECT 1\"\x7d]\x7d"⟩, 0⟩,
    ⟨⟨"HEAD", "/api/tables".toList, [], [], ""⟩, 1⟩,
    ⟨⟨"GET", "/api/tables/a%2Fb/columns/c/values".toList, "limit=3".toList, [], ""⟩, 2⟩]

def threeOperations : List Operation :=
  [.query { targets := [{ mode := .sql, query := some "SELECT 1" }] }, .tables,
    .values "a/b" "c" (some 3)]

def threeAnswers : List (Except StoreError Table) :=
  [.ok ⟨["time", "v"], [[.int 1, .int 2]]⟩, .error (.database "gone"),
    .ok ⟨["c"], [[.text "x"], [.null]]⟩, .error (.database "not asked for")]

end Server
end PanelSource
