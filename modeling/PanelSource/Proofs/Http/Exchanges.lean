import PanelSource.Http.Server
import PanelSource.Proofs.Http.Paths
import PanelSource.Proofs.Panel.Work

/-! # How a request is worked

A request with everything in its place is answered as the work it asks for ends. -/
namespace PanelSource

/-- A segment decodes to a name. -/
def HttpRequest.Names (segment : List Char) (name : String) : Prop :=
  ∃ cs, Text.Percent.decodeSegment? segment = some cs ∧ String.ofList cs = name

/-- A body of the right media type that reads as a value. -/
def HttpRequest.Holds {α : Type} (req : HttpRequest) (read : Reader α) (a : α) : Prop :=
  req.hasJsonBody = true ∧ Outline.readText read req.body = .ok a

/-- What is answered for finished work. -/
def HttpResponse.ofOutcome : Except ServiceError Json → HttpResponse
  | .ok body => .ok body
  | .error e => e.toResponse

theorem Route.options_not_mem_methods (r : Route) : "OPTIONS" ∉ r.methods := by
  cases r <;> simp [methods, takesBody]

namespace Work
variable {σ α β : Type}

theorem outcome_map (w : Work σ α) (g : α → β) (s : Session σ) :
    (w >>= fun a => pure (g a)).outcome s = ((w.outcome s).1.map g, (w.outcome s).2) := by
  rw [outcome_bind]
  cases (w.outcome s).1 <;> rfl

/-- A report behind the work changes neither its result nor what has been sent. -/
theorem outcome_bind_report (w : Work σ α) (event : α → Event) (s : Session σ) :
    ∃ events, (w >>= fun a => do report (event a); return a).outcome s =
      ((w.outcome s).1, { (w.outcome s).2 with events := events }) := by
  rw [outcome_bind]
  cases hw : (w.outcome s).1 with
  | error e => exact ⟨_, rfl⟩
  | ok a => exact ⟨_, rfl⟩

theorem outcome_ofQuery_error {q : Except QueryError α} {e : QueryError} (h : q = .error e)
    (s : Session σ) : (ofQuery q : Work σ α).outcome s = (.error (.query e), s) := by
  rw [h]
  rfl

end Work

namespace Server
variable {σ α : Type} {srv : Server σ} {req : HttpRequest}

theorem respond_run (toJson : α → Json) (w : Work σ α) (s : Session σ) :
    ∃ events, (respond toJson w).run s =
      (.ofOutcome ((w.outcome s).1.map toJson), { (w.outcome s).2 with events := events }) := by
  obtain ⟨outcome, next, hw⟩ : ∃ outcome next, w.outcome s = (outcome, next) := ⟨_, _, rfl⟩
  have hrun : (w.run.run s : Except ServiceError α × Session σ) = (outcome, next) := hw
  rw [hw]
  cases outcome with
  | error e =>
    refine ⟨next.events ++ [.requestFailed e.code e.message], ?_⟩
    simp only [respond, StateT.run_bind, hrun]
    rfl
  | ok a =>
    refine ⟨next.events, ?_⟩
    simp only [respond, StateT.run_bind, hrun]
    rfl

theorem withBody_of_holds {read : Reader α} {a : α} (h : req.Holds read a)
    (f : α → Exchange σ HttpResponse) : withBody read req f = f a := by
  rw [withBody, if_pos h.1, h.2]

theorem withName_of_names {segment : List Char} {name : String}
    (h : HttpRequest.Names segment name) (f : String → Exchange σ HttpResponse) :
    withName segment f = f name := by
  obtain ⟨cs, hcs, rfl⟩ := h
  rw [withName, hcs]

theorem withLimit_of_limit {limit : Option Nat} (h : limit? req.query = some limit)
    (f : Option Nat → Exchange σ HttpResponse) : withLimit req f = f limit := by
  rw [withLimit, h]

theorem handle_of_at {r : Route} (hpath : req.At r) (hmethod : req.method ∈ r.methods) :
    srv.handle req = do
      let response ← srv.answer req r
      return if req.method = "HEAD" then response.withoutContent else response := by
  have hroute := HttpRequest.at_iff.mp hpath
  have hoptions : req.method ≠ "OPTIONS" := fun h => r.options_not_mem_methods (h ▸ hmethod)
  rw [handle, if_neg hoptions, hroute]
  simp [hmethod]

theorem run_cons (srv : Server σ) (a : Arrival) (rest : List Arrival) (x : σ) :
    srv.run (a :: rest) x =
      (((srv.step a x).1, (srv.step a x).2.sent) :: (srv.run rest (srv.step a x).2.store).1,
        (srv.run rest (srv.step a x).2.store).2) := rfl

/-- A server over prepared answers. -/
def scriptedServer : Server (List (Except StoreError Table)) where
  datasource := ⟨Store.scripted, {}⟩

end Server
end PanelSource
