import PanelSource.Proofs.Panel.Work

/-! # A refresh over an arbitrary store

The visible targets are answered in turn, with one statement each, until the first that fails; its
first failing stage decides the error and whether its own statement has been sent. -/
namespace PanelSource.Datasource

variable {σ : Type} (ds : Datasource σ) (range : Option TimeRange)

/-- A target compiles to a statement, and the table that the store has for it gives series. -/
structure Answered (d : Description) (x : σ) (statement : String) (series : List Series) (y : σ) :
    Prop where
  compiled : (ds.prepare range d).compile = .ok statement
  executed : ∃ table, (ds.store statement x).1.answer = .ok table ∧
    transform (ds.prepare range d) table = .ok series
  left : (ds.store statement x).2 = y

/-- Targets that are all answered, each by the store as the ones before have left it. -/
inductive AllAnswered : List Description → σ → List String → List Series → σ → Prop
  | nil (x : σ) : AllAnswered [] x [] [] x
  | cons {d : Description} {rest : List Description} {x y z : σ} {statement : String}
      {statements : List String} {series more : List Series}
      (h : ds.Answered range d x statement series y)
      (hrest : AllAnswered rest y statements more z) :
      AllAnswered (d :: rest) x (statement :: statements) (series ++ more) z

/-- The first stage at which a target fails, and what has been sent for it by then. -/
inductive Fails (d : Description) (x : σ) : List String → ServiceError → σ → Prop
  | compile {e : QueryError} (h : (ds.prepare range d).compile = .error e) :
      Fails d x [] (.query e) x
  | execute {statement : String} {e : StoreError}
      (hc : (ds.prepare range d).compile = .ok statement)
      (h : (ds.store statement x).1.answer = .error e) :
      Fails d x [statement] (.store e) (ds.store statement x).2
  | transform {statement : String} {table : Table} {e : QueryError}
      (hc : (ds.prepare range d).compile = .ok statement)
      (hx : (ds.store statement x).1.answer = .ok table)
      (h : transform (ds.prepare range d) table = .error e) :
      Fails d x [statement] (.query e) (ds.store statement x).2

/-- A target fails behind targets that are all answered. -/
def FirstFailure (targets : List Description) (x : σ) (sent : List String) (e : ServiceError)
    (z : σ) : Prop :=
  ∃ before d after statements series y own, targets = before ++ d :: after ∧
    ds.AllAnswered range before x statements series y ∧ ds.Fails range d y own e z ∧
    sent = statements ++ own

def visible (targets : List Description) : List Description := targets.filter fun d => !d.hide

theorem answered_or_fails (d : Description) (x : σ) :
    (∃ statement series y, ds.Answered range d x statement series y) ∨
      ∃ own e y, ds.Fails range d x own e y := by
  cases hc : (ds.prepare range d).compile with
  | error e => exact .inr ⟨_, _, _, .compile hc⟩
  | ok statement =>
    cases hx : (ds.store statement x).1.answer with
    | error e => exact .inr ⟨_, _, _, .execute hc hx⟩
    | ok table =>
      cases ht : transform (ds.prepare range d) table with
      | error e => exact .inr ⟨_, _, _, .transform hc hx ht⟩
      | ok series => exact .inl ⟨statement, series, _, hc, ⟨table, hx, ht⟩, rfl⟩

theorem allAnswered_or_firstFailure (targets : List Description) (x : σ) :
    (∃ sent series y, ds.AllAnswered range targets x sent series y) ∨
      ∃ sent e y, ds.FirstFailure range targets x sent e y := by
  induction targets generalizing x with
  | nil => exact .inl ⟨_, _, _, .nil x⟩
  | cons d rest ih =>
    rcases answered_or_fails ds range d x with ⟨_, _, y, h⟩ | ⟨own, e, y, h⟩
    · rcases ih y with ⟨_, _, _, hrest⟩ | ⟨_, e, z, before, d', after, _, _, _, _, rfl, hb, hf, rfl⟩
      · exact .inl ⟨_, _, _, .cons h hrest⟩
      · exact .inr ⟨_, e, z, d :: before, d', after, _, _, _, _, rfl, .cons h hb, hf, rfl⟩
    · exact .inr ⟨own, e, y, [], d, rest, [], [], x, own, rfl, .nil x, h, rfl⟩

variable {ds range}

theorem Answered.yields {d : Description} {x y : σ} {statement : String} {series : List Series}
    (h : ds.Answered range d x statement series y) :
    (ds.queryTarget range d).Yields x (.ok series) [statement] y := by
  obtain ⟨hc, ⟨table, hx, ht⟩, rfl⟩ := h
  unfold queryTarget
  exact (Work.yields_ofQuery_ok hc x).bind ((Work.yields_report _ x).bind
    ((Work.yields_execute_ok hx).bind ((Work.yields_ofQuery_ok ht _).bind
      ((Work.yields_report _ _).bind (Work.yields_pure series _)))))

theorem Fails.yields {d : Description} {x y : σ} {own : List String} {e : ServiceError}
    (h : ds.Fails range d x own e y) : (ds.queryTarget range d).Yields x (.error e) own y := by
  unfold queryTarget
  cases h with
  | compile hc => exact (Work.yields_ofQuery_error hc x).bind_error _
  | execute hc hx =>
    exact (Work.yields_ofQuery_ok hc x).bind ((Work.yields_report _ x).bind
      ((Work.yields_execute_error hx).bind_error _))
  | transform hc hx ht =>
    exact (Work.yields_ofQuery_ok hc x).bind ((Work.yields_report _ x).bind
      ((Work.yields_execute_ok hx).bind ((Work.yields_ofQuery_error ht _).bind_error _)))

/-- Hidden targets are passed over. -/
theorem queryTargets_visible (targets : List Description) :
    ds.queryTargets range (visible targets) = ds.queryTargets range targets := by
  induction targets with
  | nil => rfl
  | cons d rest ih =>
    cases hd : d.hide with
    | true => simp_all [visible, queryTargets]
    | false => simp_all [visible, queryTargets]

theorem hide_eq_false_of_mem_visible {targets : List Description} {d : Description}
    (h : d ∈ visible targets) : d.hide = false := by
  simpa using (List.mem_filter.mp h).2

theorem Fails.yields_targets {d : Description} {x y : σ} {own : List String} {e : ServiceError}
    (h : ds.Fails range d x own e y) (hd : d.hide = false) (rest : List Description) :
    (ds.queryTargets range (d :: rest)).Yields x (.error e) own y := by
  rw [queryTargets, if_neg (by simp [hd])]
  exact h.yields.bind_error _

theorem Answered.yields_targets {d : Description} {rest : List Description} {x y z : σ}
    {statement : String} {sent : List String} {series : List Series}
    {r : Except ServiceError (List Series)} (h : ds.Answered range d x statement series y)
    (hd : d.hide = false) (hrest : (ds.queryTargets range rest).Yields y r sent z) :
    (ds.queryTargets range (d :: rest)).Yields x (r.map (series ++ ·)) (statement :: sent) z := by
  rw [queryTargets, if_neg (by simp [hd])]
  exact h.yields.bind (hrest.map (series ++ ·))

/-- Answered targets put their statements and their series in front of what comes behind them. -/
theorem AllAnswered.yields_append {before rest : List Description} {x y z : σ}
    {statements sent : List String} {series : List Series}
    {r : Except ServiceError (List Series)}
    (h : ds.AllAnswered range before x statements series y)
    (hv : ∀ d ∈ before, d.hide = false) (hrest : (ds.queryTargets range rest).Yields y r sent z) :
    (ds.queryTargets range (before ++ rest)).Yields x (r.map (series ++ ·)) (statements ++ sent) z
    := by
  induction h with
  | nil x =>
    cases r <;> exact hrest
  | @cons d before x y y' statement statements series more h _ ih =>
    have hmore := ih (fun d' hd' => hv d' (List.mem_cons_of_mem _ hd')) hrest
    have hmap : (r.map (more ++ ·)).map (series ++ ·) = r.map (series ++ more ++ ·) := by
      cases r <;> simp [Except.map]
    rw [← hmap]
    exact h.yields_targets (hv d List.mem_cons_self) hmore

theorem AllAnswered.yields {targets : List Description} {x y : σ} {sent : List String}
    {series : List Series} (h : ds.AllAnswered range (visible targets) x sent series y) :
    (ds.queryTargets range targets).Yields x (.ok series) sent y := by
  have hnone : (ds.queryTargets range []).Yields y (.ok []) [] y := Work.yields_pure [] y
  have hall := h.yields_append (fun _ => hide_eq_false_of_mem_visible) hnone
  rw [List.append_nil, queryTargets_visible] at hall
  simpa [Except.map] using hall

theorem FirstFailure.yields {targets : List Description} {x z : σ} {sent : List String}
    {e : ServiceError} (h : ds.FirstFailure range (visible targets) x sent e z) :
    (ds.queryTargets range targets).Yields x (.error e) sent z := by
  obtain ⟨before, d, after, statements, series, y, own, hsplit, hb, hf, rfl⟩ := h
  have hv (d' : Description) (hd' : d' ∈ before ++ d :: after) : d'.hide = false :=
    hide_eq_false_of_mem_visible (hsplit ▸ hd')
  have hall := hb.yields_append (fun d' hd' => hv d' (List.mem_append_left _ hd'))
    (hf.yields_targets (hv d (by simp)) after)
  rwa [← hsplit, queryTargets_visible] at hall

/-- Reporting the answer changes neither what is given nor what has been sent. -/
theorem query_yields_of_targets {request : Request} {x y : σ} {sent : List String}
    {r : Except ServiceError (List Series)}
    (h : (ds.queryTargets request.range request.targets).Yields x r sent y) :
    (ds.query request).Yields x r sent y := by
  unfold query
  cases r with
  | error e => exact h.bind_error _
  | ok series =>
    have hall := h.bind (f := fun series => do
      Work.report (.answered request.targets.length series.length)
      return series) ((Work.yields_report _ y).bind (Work.yields_pure series y))
    simpa using hall

/-- A refresh succeeds exactly when all visible targets are answered, with their statements sent and
their series given in turn. Else it fails as the first target that fails, having sent for this one
what it had sent by then and nothing for those behind it. -/
theorem query_yields_iff (request : Request) (x : σ) :
    (∀ series sent y, (ds.query request).Yields x (.ok series) sent y ↔
      ds.AllAnswered request.range (visible request.targets) x sent series y) ∧
    (∀ e sent y, (ds.query request).Yields x (.error e) sent y ↔
      ds.FirstFailure request.range (visible request.targets) x sent e y) ∧
    ∃ r sent y, (ds.query request).Yields x r sent y := by
  have htotal := allAnswered_or_firstFailure ds request.range (visible request.targets) x
  refine ⟨?_, ?_, ?_⟩
  · intro series sent y
    constructor
    · intro h
      rcases htotal with ⟨_, _, _, hall⟩ | ⟨_, _, _, hfirst⟩
      · obtain ⟨hr, rfl, rfl⟩ := h.unique (query_yields_of_targets hall.yields)
        cases hr
        exact hall
      · cases (h.unique (query_yields_of_targets hfirst.yields)).1
    · exact fun hall => query_yields_of_targets hall.yields
  · intro e sent y
    constructor
    · intro h
      rcases htotal with ⟨_, _, _, hall⟩ | ⟨_, _, _, hfirst⟩
      · cases (h.unique (query_yields_of_targets hall.yields)).1
      · obtain ⟨hr, rfl, rfl⟩ := h.unique (query_yields_of_targets hfirst.yields)
        cases hr
        exact hfirst
    · exact fun hfirst => query_yields_of_targets hfirst.yields
  · rcases htotal with ⟨sent, series, y, hall⟩ | ⟨sent, e, y, hfirst⟩
    · exact ⟨_, _, _, query_yields_of_targets hall.yields⟩
    · exact ⟨_, _, _, query_yields_of_targets hfirst.yields⟩

end PanelSource.Datasource
