import PanelSource.Proofs.Http.Operations
import PanelSource.Proofs.Json.Respelling
import PanelSource.Proofs.Panel.ListedTargets
import PanelSource.Proofs.Panel.Preview

/-! # Previews over HTTP

A body that asks for a preview may stand, as it is, among the targets of a refresh. The refresh then
sends at this place what the preview has shown. -/
namespace PanelSource

namespace HttpRequest

/-- What is the whole body of one request is the target at a place in the body of another. -/
def ListsAt (refresh : HttpRequest) (n : Nat) (preview : HttpRequest) : Prop :=
  ∃ items x, (Json.scan refresh.body).1.ListsTargets items ∧ items[n]? = some x ∧
    x.flat = (Json.scan preview.body).1.flat

theorem holds_of_scan {α : Type} {read : Reader α} {req : HttpRequest} {o : Outline} {a : α}
    (hjson : req.hasJsonBody = true) (hscan : Json.scan req.body = (o, false))
    (hread : read o = .ok a) : req.Holds read a :=
  ⟨hjson, Outline.readText_eq_ok_iff.mpr (by rw [hscan]; exact ⟨hread, rfl⟩)⟩

variable {preview refresh : HttpRequest} {request : Request} {d : Description} {n : Nat}

theorem ListsAt.target (h : refresh.ListsAt n preview) (hpreview : preview.Asks (.compile d))
    (hrefresh : refresh.Asks (.query request)) : request.targets[n]? = some d := by
  obtain ⟨items, x, hlists, hx, hsame⟩ := h
  cases hpreview with
  | compile _ _ hbody =>
    cases hrefresh with
    | query _ _ hbody' =>
      obtain ⟨halone, -⟩ := Outline.readText_eq_ok_iff.mp hbody.2
      obtain ⟨hread, -⟩ := Outline.readText_eq_ok_iff.mp hbody'.2
      exact Request.target_of_listed hread hlists hx halone hsame

end HttpRequest

namespace Server
variable {σ : Type}

theorem toldFailure_eq_of_asks {preview refresh : HttpRequest} {request : Request}
    {d : Description} (hpreview : preview.Asks (.compile d))
    (hrefresh : refresh.Asks (.query request)) (e : ServiceError) :
    toldFailure refresh e = toldFailure preview e := by
  cases hpreview with
  | compile _ hmethod _ =>
    cases hrefresh with
    | query _ hmethod' _ => simp only [toldFailure, told, hmethod, hmethod']

variable {srv : Server σ} {d : Description} {range : Option TimeRange} {preview refresh : Arrival}

theorem step_preview (srv : Server σ) (h : preview.request.Asks (.compile d)) (x : σ) :
    (srv.step preview x).2.sent = [] ∧ (srv.step preview x).2.store = x ∧
      (∀ statement, srv.datasource.compile d = .ok statement →
        (srv.step preview x).1 = told preview.request 200 (sqlJson statement)) ∧
      ∀ e, srv.datasource.compile d = .error e →
        (srv.step preview x).1 = toldFailure preview.request (.query e) := by
  obtain ⟨hstore, hsent, htells⟩ := srv.step_of_yields h
    ((Work.yields_ofQuery (srv.datasource.compile d) x).map Value.statement)
  refine ⟨hsent, hstore, fun statement hok => ?_, fun e herror => ?_⟩
  · rw [hok] at htells
    exact htells.eq_told_value
  · rw [herror] at htells
    exact htells.eq_toldFailure

/-- A preview that is asked for at any time shows the statement that a refresh sends behind what it
has sent earlier, or both are answered by the same error, the refresh without another statement. -/
inductive Runs (srv : Server σ) (d : Description) (range : Option TimeRange)
    (preview refresh : Arrival) (earlier : List String) (after : List Description) (x y : σ) : Prop
  | sends {statement : String} {later : List String}
      (hcompile : srv.datasource.compile d = .ok statement)
      (hshown : ∀ x₀, (srv.step preview x₀).1 = told preview.request 200 (sqlJson statement))
      (hsent : (srv.step refresh x).2.sent = earlier ++ statement :: later)
      (hleft : srv.datasource.Continues range d after y statement later
        (srv.step refresh x).2.store) :
      Runs srv d range preview refresh earlier after x y
  | fails {e : QueryError} (hcompile : srv.datasource.compile d = .error e)
      (hshown : ∀ x₀, (srv.step preview x₀).1 = toldFailure preview.request (.query e))
      (htold : ∀ x₀, (srv.step refresh x).1 = (srv.step preview x₀).1)
      (hsent : (srv.step refresh x).2.sent = earlier) (hleft : (srv.step refresh x).2.store = y) :
      Runs srv d range preview refresh earlier after x y

theorem split_at_target {request : Request} {n : Nat} (h : request.targets[n]? = some d) :
    request = { targets := request.targets.take n ++ d :: request.targets.drop (n + 1),
                range := request.range } := by
  obtain ⟨hn, rfl⟩ := List.getElem?_eq_some_iff.mp h
  rw [← List.drop_eq_getElem_cons hn, List.take_append_drop]

theorem runs_of_listed {request : Request} {n : Nat} {x y : σ} {series : List Series}
    {earlier : List String} (hd : d.hide = false)
    (hcompile : (srv.datasource.prepare request.range d).compile = srv.datasource.compile d)
    (hpreview : preview.request.Asks (.compile d))
    (hrefresh : refresh.request.Asks (.query request)) (hlisted : request.targets[n]? = some d)
    (hbefore : (srv.datasource.query { request with targets := request.targets.take n }).Yields x
      (.ok series) earlier y) :
    srv.Runs d request.range preview refresh earlier (request.targets.drop (n + 1)) x y := by
  have hsplit := split_at_target hlisted
  cases h : srv.datasource.compile d with
  | ok statement =>
    obtain ⟨r, later, z, hyields, hcontinues⟩ :=
      Datasource.query_sends hd (hcompile.trans h) hbefore (request.targets.drop (n + 1))
    rw [← hsplit] at hyields
    obtain ⟨rfl, hsent, -⟩ := srv.step_of_yields hrefresh (hyields.map Value.series)
    exact .sends h (fun x₀ => (srv.step_preview hpreview x₀).2.2.1 statement h) hsent hcontinues
  | error e =>
    have hyields := Datasource.query_fails hd (hcompile.trans h) hbefore
      (request.targets.drop (n + 1))
    rw [← hsplit] at hyields
    obtain ⟨hleft, hsent, htells⟩ := srv.step_of_yields hrefresh (hyields.map Value.series)
    have hshown (x₀ : σ) := (srv.step_preview hpreview x₀).2.2.2 e h
    refine .fails h hshown (fun x₀ => ?_) hsent hleft
    rw [hshown, ← toldFailure_eq_of_asks hpreview hrefresh]
    exact htells.eq_toldFailure

def boundedBody : String :=
  "\x7b\"table\":\"t\",\"mode\":\"select\",\"selectColumns\":[\"a\"],\"timeFrom\":5\x7d"

def threeTargetsBody : String :=
  "\x7b\"targets\":[[\"sql\",\"SELECT 1\"]," ++ boundedBody ++
    ",[]],\"range\":[\"2020-1-1T0:0:0Z\",\"2020-1-2T0:0:0Z\"]\x7d"

def boundedOutline (depth : Nat) : Outline :=
  .object depth [(some "table", .text (some "t")), (some "mode", .text (some "select")),
    (some "selectColumns", .array (depth + 1) [.text (some "a")]),
    (some "timeFrom", .number (some (.int 5)))]

def threeTargets : List Outline :=
  [.array 3 [.text (some "sql"), .text (some "SELECT 1")], boundedOutline 3, .array 3 []]

def threeTargetsOutline : Outline :=
  .object 1 [(some "targets", .array 2 threeTargets),
    (some "range", .array 2 [.text (some "2020-1-1T0:0:0Z"), .text (some "2020-1-2T0:0:0Z")])]

/-- A target with one bound of its own. -/
def boundedTarget : Description :=
  { mode := .select, table := "t", selectColumns := ["a"], timeFrom := some 5 }

def threeTargetsRequest : Request :=
  ⟨[{ mode := .sql, query := some "SELECT 1" }, boundedTarget, {}],
    some ⟨⟨1577836800, 0⟩, ⟨1577923200, 0⟩⟩⟩

def post (r : Route) (body : String) : Arrival :=
  ⟨⟨"POST", r.path, [], [("content-type", "application/json")], body⟩, 0⟩

end Server
end PanelSource
