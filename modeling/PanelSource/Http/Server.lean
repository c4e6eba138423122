import PanelSource.Http.Request
import PanelSource.Http.Response
import PanelSource.Json.Scanner

/-! # The service over HTTP -/
namespace PanelSource

structure Server (σ : Type) where
  datasource : Datasource σ
  version : String := "0.1.0"
  uptimeSeconds : Nat := 0

/-- Work that always has an outcome. -/
abbrev Exchange (σ α : Type) := StateM (Session σ) α

namespace Server

variable {σ : Type} (srv : Server σ)

/-- The value of finished work as JSON; failed work is reported and answered by its error. -/
def respond {α : Type} (toJson : α → Json) (work : Work σ α) : Exchange σ HttpResponse := do
  match ← work.run with
  | .ok a => return .ok (toJson a)
  | .error e =>
    modify fun s => { s with events := s.events ++ [.requestFailed e.code e.message] }
    return e.toResponse

def reject (r : Rejection) : Exchange σ HttpResponse := return .rejected r

/-- A body of the right media type, read as a value. -/
def withBody {α : Type} (read : Reader α) (req : HttpRequest) (f : α → Exchange σ HttpResponse) :
    Exchange σ HttpResponse :=
  if req.hasJsonBody then
    match Outline.readText read req.body with
    | .ok a => f a
    | .error fault => reject (.ofFault fault)
  else reject .notJson

def withName (segment : List Char) (f : String → Exchange σ HttpResponse) :
    Exchange σ HttpResponse :=
  match Text.Percent.decodeSegment? segment with
  | some cs => f (String.ofList cs)
  | none => reject .brokenPath

/-- The limit of a query, which may be given once; other parameters are not looked at. -/
def limit? (query : List Char) : Option (Option Nat) :=
  match (Text.Percent.pairs query).filter (fun p => p.1 == "limit") with
  | [] => some none
  | [(_, value)] => (Text.below? UInt64.size value).map some
  | _ => none

def withLimit (req : HttpRequest) (f : Option Nat → Exchange σ HttpResponse) :
    Exchange σ HttpResponse :=
  match limit? req.query with
  | some limit => f limit
  | none => reject .badQuery

def seriesJson (series : List Series) : Json := .array (series.map Series.toJson)

def sqlJson (statement : String) : Json := Json.ofFields [("sql", .text statement)]

def statusJson (health : Health) : Json :=
  Json.ofFields [("status", .text health.status), ("message", .text health.message),
    ("title", .text health.title), ("version", .text srv.version),
    ("uptime_seconds", Json.int srv.uptimeSeconds)]

def runQuery (request : Request) : Work σ (List Series) := do
  let series ← srv.datasource.query request
  Work.report (.queryAnswered series.length)
  return series

def answer (req : HttpRequest) : Route → Exchange σ HttpResponse
  | .query => withBody Request.shape.reader req fun request =>
    respond seriesJson (srv.runQuery request)
  | .compile => withBody Description.shape.reader req fun d =>
    respond sqlJson (Work.ofQuery (srv.datasource.compile d))
  | .tables => respond Json.texts srv.datasource.tables
  | .columns table => withName table fun table =>
    respond Json.texts (srv.datasource.columns table)
  | .values table column => withName table fun table => withName column fun column =>
    withLimit req fun limit => respond Json.texts (srv.datasource.values table column limit)
  | .status => respond srv.statusJson srv.datasource.health

/-- Preflight requests are answered for every path. A request for the head of an answer is worked
like one for the answer. -/
def handle (req : HttpRequest) : Exchange σ HttpResponse :=
  let route := Route.ofPath? req.path
  if req.method = "OPTIONS" then return .preflight (route.map Route.allow)
  else match route with
    | none => return .notFound
    | some route =>
      if route.methods.contains req.method then do
        let response ← srv.answer req route
        return if req.method = "HEAD" then response.withoutContent else response
      else return .methodNotAllowed route.allow

end Server

/-- A request, and how long the server has been up when it comes. -/
structure Arrival where
  request : HttpRequest
  uptimeSeconds : Nat

namespace Server

variable {σ : Type} (srv : Server σ)

/-- The server after some time. -/
def upFor (seconds : Nat) : Server σ := { srv with uptimeSeconds := seconds }

/-- Each request is worked in a session of its own; only the store goes on to the next. -/
def step (a : Arrival) (x : σ) : HttpResponse × Session σ :=
  ((srv.upFor a.uptimeSeconds).handle a.request).run { store := x }

/-- Requests in turn, each with its response and what was sent for it, and the store behind the
last. -/
def run : List Arrival → σ → List (HttpResponse × List String) × σ
  | [], x => ([], x)
  | a :: rest, x =>
    let (response, s) := srv.step a x
    let (steps, y) := run rest s.store
    ((response, s.sent) :: steps, y)

end Server
end PanelSource
