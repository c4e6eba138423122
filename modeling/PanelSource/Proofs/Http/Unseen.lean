import PanelSource.Proofs.Http.Exchanges

/-! # Requests that the store does not see

What is refused before it is worked, compiled only or asked of a blank name sends nothing. Such
requests may be taken out of a run: the others are answered as before. -/
namespace PanelSource

/-- The segments of a route that stand for names. -/
def Route.names : Route → List (List Char)
  | .columns table => [table]
  | .values table column => [table, column]
  | _ => []

/-- A request that needs nothing of the store. -/
inductive HttpRequest.Unseen (req : HttpRequest) : Prop
  | preflight (hmethod : req.method = "OPTIONS")
  | unknownPath (hpath : ∀ r, ¬req.At r)
  | wrongMethod {r : Route} (hpath : req.At r) (hmethod : req.method ∉ r.methods)
  | notJson {r : Route} (hpath : req.At r) (hbody : r.takesBody = true)
      (hjson : req.hasJsonBody = false)
  | unreadable {fault : Fault} (hpath : req.At .query)
      (hread : Outline.readText Request.shape.reader req.body = .error fault)
  | compiled (hpath : req.At .compile)
  | brokenName {r : Route} {segment : List Char} (hpath : req.At r) (hsegment : segment ∈ r.names)
      (hbroken : ∀ name, ¬HttpRequest.Names segment name)
  | blankName {r : Route} {segment : List Char} {name : String} (hpath : req.At r)
      (hsegment : segment ∈ r.names) (hname : HttpRequest.Names segment name)
      (hblank : Text.blank name = true)
  | badLimit {table column : List Char} (hpath : req.At (.values table column))
      (hlimit : Server.limit? req.query = none)

namespace Server

variable {σ α : Type}

/-- The exchange leaves the store alone. -/
def Idle (exchange : Exchange σ HttpResponse) : Prop :=
  ∀ s, (exchange.run s).2.store = s.store ∧ (exchange.run s).2.sent = s.sent

theorem idle_pure (response : HttpResponse) : Idle (pure response : Exchange σ HttpResponse) :=
  fun _ => ⟨rfl, rfl⟩

theorem idle_reject (r : Rejection) : Idle (reject r : Exchange σ HttpResponse) := idle_pure _

theorem Idle.map {exchange : Exchange σ HttpResponse} (h : Idle exchange)
    (g : HttpResponse → HttpResponse) : Idle (exchange >>= fun response => pure (g response)) :=
  h

/-- Work that the store has no part in. -/
theorem idle_respond {w : Work σ α}
    (h : ∀ s, (w.outcome s).2.store = s.store ∧ (w.outcome s).2.sent = s.sent)
    (toJson : α → Json) : Idle (respond toJson w) := by
  intro s
  obtain ⟨events, he⟩ := respond_run toJson w s
  rw [he]
  exact h s

theorem idle_respond_ofQuery (toJson : α → Json) (q : Except QueryError α) :
    Idle (respond toJson (Work.ofQuery q : Work σ α)) := by
  apply idle_respond
  intro s
  cases q <;> exact ⟨rfl, rfl⟩

/-- Where no statement can be made, none is sent. -/
theorem idle_respond_of_error {q : Except QueryError String} {e : QueryError} (h : q = .error e)
    (f : String → Work σ α) (toJson : α → Json) : Idle (respond toJson (Work.ofQuery q >>= f)) := by
  apply idle_respond
  intro s
  rw [Work.outcome_bind, Work.outcome_ofQuery_error h]
  exact ⟨rfl, rfl⟩

theorem idle_withBody {read : Reader α} {req : HttpRequest} {f : α → Exchange σ HttpResponse}
    (h : ∀ a, req.Holds read a → Idle (f a)) : Idle (withBody read req f) := by
  unfold withBody
  split
  · rename_i hjson
    split
    · rename_i a ha
      exact h a ⟨hjson, ha⟩
    · exact idle_reject _
  · exact idle_reject _

theorem idle_withName {segment : List Char} {f : String → Exchange σ HttpResponse}
    (h : ∀ name, HttpRequest.Names segment name → Idle (f name)) : Idle (withName segment f) := by
  unfold withName
  split
  · rename_i cs hcs
    exact h _ ⟨cs, hcs, rfl⟩
  · exact idle_reject _

theorem idle_withLimit {req : HttpRequest} {f : Option Nat → Exchange σ HttpResponse}
    (h : ∀ limit, limit? req.query = some limit → Idle (f limit)) : Idle (withLimit req f) := by
  unfold withLimit
  split
  · rename_i limit hlimit
    exact h limit hlimit
  · exact idle_reject _

end Server

namespace Statement

theorem columns_of_blank {table : String} (h : Text.blank table = true) :
    columns table = .error (.invalidDescription .blankTable) := by
  rw [columns, Description.requireTable, if_pos h]
  rfl

theorem values_of_blankTable {table : String} (h : Text.blank table = true) (column : String)
    (limit : Option Nat) :
    values table column limit = .error (.invalidDescription .blankTable) := by
  rw [values, Description.requireTable, if_pos h]
  rfl

theorem values_of_blankColumn {table column : String} (htable : Text.blank table = false)
    (hcolumn : Text.blank column = true) (limit : Option Nat) :
    values table column limit = .error (.invalidDescription .blankColumn) := by
  rw [values, Description.requireTable, if_neg (by simp [htable]), Description.requireColumn,
    if_pos hcolumn]
  rfl

end Statement

theorem HttpRequest.Names.unique {segment : List Char} {name name' : String}
    (h : Names segment name) (h' : Names segment name') : name = name' := by
  obtain ⟨cs, hcs, rfl⟩ := h
  obtain ⟨cs', hcs', rfl⟩ := h'
  rw [Option.some.inj (hcs.symm.trans hcs')]

namespace Server

variable {σ : Type} (srv : Server σ) {req : HttpRequest}

theorem idle_columns {table : List Char}
    (h : ∀ name, HttpRequest.Names table name → Text.blank name = true) :
    Idle (srv.answer req (.columns table)) := by
  refine idle_withName fun name hname => ?_
  exact idle_respond_of_error (Statement.columns_of_blank (h name hname)) _ _

theorem idle_values {table column : List Char}
    (h : ∀ name name' limit, HttpRequest.Names table name → HttpRequest.Names column name' →
      limit? req.query = some limit → Text.blank name = true ∨ Text.blank name' = true) :
    Idle (srv.answer req (.values table column)) := by
  refine idle_withName fun name hname => idle_withName fun name' hname' =>
    idle_withLimit fun limit hlimit => ?_
  cases hblank : Text.blank name with
  | true => exact idle_respond_of_error (Statement.values_of_blankTable hblank ..) _ _
  | false =>
    have hblank' := (h name name' limit hname hname' hlimit).resolve_left (by simp [hblank])
    exact idle_respond_of_error (Statement.values_of_blankColumn hblank hblank' _) _ _

/-- A segment that is no name, or a blank one, stops the work. -/
theorem idle_of_names {r : Route} {segment : List Char} (hsegment : segment ∈ r.names)
    (h : ∀ name, HttpRequest.Names segment name → Text.blank name = true) :
    Idle (srv.answer req r) := by
  cases r with
  | columns table =>
    obtain rfl := List.mem_singleton.mp hsegment
    exact srv.idle_columns h
  | values table column =>
    apply idle_values
    intro name name' _ hname hname' _
    simp only [Route.names, List.mem_cons, List.not_mem_nil, or_false] at hsegment
    rcases hsegment with rfl | rfl
    · exact .inl (h name hname)
    · exact .inr (h name' hname')
  | _ => cases hsegment

theorem idle_of_notJson {r : Route} (hbody : r.takesBody = true) (hjson : req.hasJsonBody = false) :
    Idle (srv.answer req r) := by
  have hidle {α : Type} {read : Reader α} {f : α → Exchange σ HttpResponse} :
      Idle (withBody read req f) :=
    idle_withBody fun _ hbody => absurd (hjson.symm.trans hbody.1) Bool.false_ne_true
  cases r with
  | query => exact hidle
  | compile => exact hidle
  | _ => cases hbody

theorem idle_of_method {r : Route} (hpath : req.At r) (hmethod : req.method ∉ r.methods) :
    Idle (srv.handle req) := by
  rw [handle]
  split
  · exact idle_pure _
  · rw [HttpRequest.at_iff.mp hpath]
    simp only [List.contains_iff_mem, hmethod, if_false]
    exact idle_pure _

theorem idle_of_answer {r : Route} (hpath : req.At r) (h : Idle (srv.answer req r)) :
    Idle (srv.handle req) := by
  by_cases hmethod : req.method ∈ r.methods
  · rw [handle_of_at hpath hmethod]
    exact h.map _
  · exact srv.idle_of_method hpath hmethod

theorem idle_of_unseen (h : req.Unseen) : Idle (srv.handle req) := by
  cases h with
  | preflight hmethod =>
    rw [handle, if_pos hmethod]
    exact idle_pure _
  | unknownPath hpath =>
    have hroute : Route.ofPath? req.path = none :=
      Option.eq_none_iff_forall_ne_some.mpr fun r hr => hpath r (HttpRequest.at_iff.mpr hr)
    rw [handle, hroute]
    split <;> exact idle_pure _
  | wrongMethod hpath hmethod => exact srv.idle_of_method hpath hmethod
  | notJson hpath hbody hjson => exact srv.idle_of_answer hpath (srv.idle_of_notJson hbody hjson)
  | unreadable hpath hread =>
    apply srv.idle_of_answer hpath
    apply idle_withBody
    intro request hbody
    cases hread.symm.trans hbody.2
  | compiled hpath =>
    apply srv.idle_of_answer hpath
    exact idle_withBody fun d _ => idle_respond_ofQuery sqlJson (srv.datasource.compile d)
  | brokenName hpath hsegment hbroken =>
    apply srv.idle_of_answer hpath
    exact srv.idle_of_names hsegment fun name hname => absurd hname (hbroken name)
  | blankName hpath hsegment hname hblank =>
    apply srv.idle_of_answer hpath
    exact srv.idle_of_names hsegment fun name hname' => hname.unique hname' ▸ hblank
  | badLimit hpath hlimit =>
    apply srv.idle_of_answer hpath
    apply srv.idle_values
    intro _ _ limit _ _ hsome
    cases hlimit.symm.trans hsome

theorem step_unseen {a : Arrival} (h : a.request.Unseen) (x : σ) :
    (srv.step a x).2.store = x ∧ (srv.step a x).2.sent = [] :=
  (srv.upFor a.uptimeSeconds).idle_of_unseen h { store := x }

/-- The requests that are not to be kept are unseen. Then they send nothing, and without them the
others are answered as before, send what they have sent before and leave the same store behind. -/
theorem run_without_unseen {marked : List (Arrival × Bool)}
    (h : ∀ m ∈ marked, m.2 = false → m.1.request.Unseen) (x : σ) :
    ∃ steps y, srv.run (marked.map Prod.fst) x = (steps, y) ∧ steps.length = marked.length ∧
      (∀ p ∈ marked.zip steps, p.1.2 = false → p.2.2 = []) ∧
      srv.run ((marked.filter Prod.snd).map Prod.fst) x =
        (((marked.zip steps).filter fun p => p.1.2).map Prod.snd, y) := by
  induction marked generalizing x with
  | nil => exact ⟨[], x, rfl, rfl, by simp, rfl⟩
  | cons m marked ih =>
    obtain ⟨a, keep⟩ := m
    rw [List.forall_mem_cons] at h
    obtain ⟨steps, y, hrun, hlength, hnone, hkept⟩ := ih h.2 (srv.step a x).2.store
    refine ⟨((srv.step a x).1, (srv.step a x).2.sent) :: steps, y, ?_, by simp [hlength], ?_, ?_⟩
    · rw [List.map_cons, run_cons, hrun]
    · rw [List.zip_cons_cons, List.forall_mem_cons]
      exact ⟨fun hkeep => (srv.step_unseen (h.1 hkeep) x).2, hnone⟩
    · cases keep with
      | true =>
        rw [List.filter_cons_of_pos rfl, List.map_cons, run_cons, hkept]
        rfl
      | false =>
        rw [(srv.step_unseen (h.1 rfl) x).1] at hkept
        rw [List.filter_cons_of_neg Bool.false_ne_true, hkept]
        rfl

/-- Two requests that are kept among four that are not. -/
def sixArrivals : List (Arrival × Bool) :=
  [(⟨⟨"GET", "/api/tables/%20/columns".toList, [], [], ""⟩, 0⟩, false),
    (⟨⟨"GET", "/api/tables".toList, [], [], ""⟩, 1⟩, true),
    (⟨⟨"OPTIONS", "/api/query".toList, [], [], ""⟩, 2⟩, false),
    (⟨⟨"GET", "/api/tables/t/columns/c/values".toList, "limit=1&limit=2".toList, [], ""⟩, 3⟩,
      false),
    (⟨⟨"POST", "/api/query".toList, [], [("content-type", "text/plain")], ""⟩, 4⟩, false),
    (⟨⟨"HEAD", "/api/status".toList, [], [], ""⟩, 5⟩, true)]

theorem run_without_unseen_sixArrivals :
    (∀ m ∈ sixArrivals, m.2 = false → m.1.request.Unseen) ∧
      ∃ steps y, scriptedServer.run (sixArrivals.map Prod.fst) [.error (.pool "no")] = (steps, y) ∧
        steps.map Prod.snd = [[], [Statement.tables], [], [], [], [Statement.version]] ∧
        ∃ first last, first.status = 500 ∧ last.status = 200 ∧
          scriptedServer.run ((sixArrivals.filter Prod.snd).map Prod.fst) [.error (.pool "no")] =
            ([(first, [Statement.tables]), (last, [Statement.version])], y) := by
  have hcolumns : HttpRequest.At ⟨"GET", "/api/tables/%20/columns".toList, [], [], ""⟩
      (.columns "%20".toList) := HttpRequest.at_iff.mpr (by decide)
  have hvalues : HttpRequest.At
      ⟨"GET", "/api/tables/t/columns/c/values".toList, "limit=1&limit=2".toList, [], ""⟩
      (.values "t".toList "c".toList) := HttpRequest.at_iff.mpr (by decide)
  have hquery : HttpRequest.At
      ⟨"POST", "/api/query".toList, [], [("content-type", "text/plain")], ""⟩ .query :=
    HttpRequest.at_iff.mpr (by decide)
  have hunseen : ∀ m ∈ sixArrivals, m.2 = false → m.1.request.Unseen := by
    simp only [sixArrivals, List.forall_mem_cons]
    refine ⟨fun _ => ?_, nofun, fun _ => .preflight rfl, fun _ => .badLimit hvalues (by decide),
      fun _ => .notJson hquery rfl (by decide), nofun, nofun⟩
    exact .blankName hcolumns (List.mem_singleton_self _) ⟨" ".toList, by decide, rfl⟩ (by decide)
  obtain ⟨steps, y, hrun, -, -, hkept⟩ :=
    scriptedServer.run_without_unseen hunseen [.error (.pool "no")]
  refine ⟨hunseen, steps, y, hrun, ?_⟩
  cases hrun
  exact ⟨rfl, _, _, rfl, rfl, hkept⟩

end Server
end PanelSource
