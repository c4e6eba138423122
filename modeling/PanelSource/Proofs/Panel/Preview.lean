import PanelSource.Proofs.Panel.Preparation
import PanelSource.Proofs.Panel.Refresh

/-! # Previews

The statement that is previewed for a target is the one that a refresh sends for it, at whatever
place the target stands, when no range gives it bounds that it has not itself. -/
namespace PanelSource.Datasource

variable {σ : Type} {ds : Datasource σ} {range : Option TimeRange} {d : Description} {x y z : σ}

/-- A range is of no use to a target with bounds of its own. -/
theorem prepare_eq_of_bounded (ds : Datasource σ) (h : range = none ∨ d.bounded = true) :
    ds.prepare range d = ds.prepare none d := by
  rcases h with rfl | hbounded
  · rfl
  · have hprepared : (d.prepare ds.defaults none).bounded = true := hbounded
    rw [prepare, prepare, Description.prepare_eq_within, Description.within_of_bounded hprepared]

theorem exists_yields (ds : Datasource σ) (range : Option TimeRange) (targets : List Description)
    (x : σ) : ∃ r sent y, (ds.queryTargets range targets).Yields x r sent y := by
  rcases allAnswered_or_firstFailure ds range (visible targets) x with
    ⟨sent, series, y, hall⟩ | ⟨sent, e, y, hfirst⟩
  · exact ⟨_, _, _, hall.yields⟩
  · exact ⟨_, _, _, hfirst.yields⟩

theorem yields_query_iff {request : Request} {r : Except ServiceError (List Series)}
    {sent : List String} : (ds.query request).Yields x r sent y ↔
      (ds.queryTargets request.range request.targets).Yields x r sent y := by
  refine ⟨fun h => ?_, query_yields_of_targets⟩
  obtain ⟨r', sent', y', h'⟩ := exists_yields ds request.range request.targets x
  obtain ⟨rfl, rfl, rfl⟩ := h.unique (query_yields_of_targets h')
  exact h'

theorem queryTargets_append (before rest : List Description) :
    ds.queryTargets range (before ++ rest) = do
      let series ← ds.queryTargets range before
      return series ++ (← ds.queryTargets range rest) := by
  induction before with
  | nil => simp [queryTargets]
  | cons d before ih =>
    rw [List.cons_append, queryTargets, queryTargets, ih]
    split
    · rfl
    · simp only [bind_assoc, pure_bind, List.append_assoc]

/-- A target whose statement has been sent fails and ends the work, or it is answered and the
targets behind it are worked. -/
inductive Continues (ds : Datasource σ) (range : Option TimeRange) (d : Description)
    (after : List Description) (x : σ) (statement : String) : List String → σ → Prop
  | stops {e : ServiceError} {y : σ} (h : ds.Fails range d x [statement] e y) :
      Continues ds range d after x statement [] y
  | goesOn {series : List Series} {r : Except ServiceError (List Series)} {y z : σ}
      {later : List String} (h : ds.Answered range d x statement series y)
      (hafter : (ds.query { targets := after, range := range }).Yields y r later z) :
      Continues ds range d after x statement later z

variable {before after : List Description} {series : List Series} {earlier : List String}
  {statement : String} {e : QueryError}

/-- Whatever the store replies, the statement of a target is sent once. -/
theorem queryTargets_sends (hd : d.hide = false)
    (h : (ds.prepare range d).compile = .ok statement) (after : List Description) (x : σ) :
    ∃ r later z, (ds.queryTargets range (d :: after)).Yields x r (statement :: later) z ∧
      ds.Continues range d after x statement later z := by
  rcases answered_or_fails ds range d x with ⟨other, series, y, ha⟩ | ⟨own, e, y, hf⟩
  · obtain rfl : statement = other := Except.ok.inj (h.symm.trans ha.compiled)
    obtain ⟨r, later, z, hafter⟩ := ds.exists_yields range after y
    exact ⟨_, later, z, ha.yields_targets hd hafter, .goesOn ha (yields_query_iff.mpr hafter)⟩
  · obtain rfl : own = [statement] := by
      cases hf with
      | compile hc => cases h.symm.trans hc
      | execute hc => rw [Except.ok.inj (h.symm.trans hc)]
      | transform hc => rw [Except.ok.inj (h.symm.trans hc)]
    exact ⟨_, [], y, hf.yields_targets hd after, .stops hf⟩

theorem query_append {rest : List Description} {r : Except ServiceError (List Series)}
    {sent : List String}
    (hbefore : (ds.query { targets := before, range := range }).Yields x (.ok series) earlier y)
    (hrest : (ds.queryTargets range rest).Yields y r sent z) :
    (ds.query { targets := before ++ rest, range := range }).Yields x (r.map (series ++ ·))
      (earlier ++ sent) z := by
  rw [yields_query_iff, queryTargets_append]
  exact (yields_query_iff.mp hbefore).bind (hrest.map (series ++ ·))

/-- Behind targets that succeed, a target sends its statement next. -/
theorem query_sends (hd : d.hide = false) (h : (ds.prepare range d).compile = .ok statement)
    (hbefore : (ds.query { targets := before, range := range }).Yields x (.ok series) earlier y)
    (after : List Description) :
    ∃ r later z, (ds.query { targets := before ++ d :: after, range := range }).Yields x r
        (earlier ++ statement :: later) z ∧
      ds.Continues range d after y statement later z := by
  obtain ⟨r, later, z, htarget, hcontinues⟩ := queryTargets_sends hd h after y
  exact ⟨_, later, z, query_append hbefore htarget, hcontinues⟩

/-- Behind targets that succeed, a target that does not compile ends the work. -/
theorem query_fails (hd : d.hide = false) (h : (ds.prepare range d).compile = .error e)
    (hbefore : (ds.query { targets := before, range := range }).Yields x (.ok series) earlier y)
    (after : List Description) :
    (ds.query { targets := before ++ d :: after, range := range }).Yields x (.error (.query e))
      earlier y := by
  have hall := query_append hbefore ((Fails.compile h).yields_targets hd after)
  rwa [List.append_nil] at hall

theorem query_none (ds : Datasource σ) (range : Option TimeRange) (x : σ) :
    (ds.query { targets := [], range := range }).Yields x (.ok []) [] x :=
  yields_query_iff.mpr (Work.yields_pure [] x)

theorem Continues.of_none {later : List String} (h : ds.Continues range d [] x statement later z) :
    later = [] ∧ z = (ds.store statement x).2 := by
  cases h with
  | stops h => cases h <;> exact ⟨rfl, rfl⟩
  | goesOn h hafter =>
    obtain ⟨-, rfl, rfl⟩ := hafter.unique (ds.query_none range _)
    exact ⟨rfl, h.left.symm⟩

/-- Alone, a target sends the statement of its preview, or it fails as its preview does. -/
theorem query_alone (hd : d.hide = false) (hrange : range = none ∨ d.bounded = true) (x : σ) :
    (∀ statement, ds.compile d = .ok statement → ∃ r,
      (ds.query { targets := [d], range := range }).Yields x r [statement]
        (ds.store statement x).2) ∧
    ∀ e, ds.compile d = .error e →
      (ds.query { targets := [d], range := range }).Yields x (.error (.query e)) [] x := by
  have hnone := ds.query_none range x
  rw [compile, ← ds.prepare_eq_of_bounded hrange]
  refine ⟨fun statement h => ?_, fun e h => query_fails hd h hnone []⟩
  obtain ⟨r, later, z, hyields, hcontinues⟩ := query_sends hd h hnone []
  obtain ⟨rfl, rfl⟩ := hcontinues.of_none
  exact ⟨r, hyields⟩

end PanelSource.Datasource
