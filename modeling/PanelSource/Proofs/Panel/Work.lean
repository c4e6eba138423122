import PanelSource.Panel.Service

/-! # Runs of work on a session

What a run gives, sends and leaves behind depends on the state of the store alone; what was sent
before stays in front. -/
namespace PanelSource.Work

variable {σ α β : Type}

def outcome (w : Work σ α) (s : Session σ) : Except ServiceError α × Session σ := w.run.run s

theorem outcome_bind (w : Work σ α) (f : α → Work σ β) (s : Session σ) :
    (w >>= f).outcome s = match (w.outcome s).1 with
      | .ok a => (f a).outcome (w.outcome s).2
      | .error e => (.error e, (w.outcome s).2) := by
  change (ExceptT.bindCont f (w.outcome s).1 : StateM (Session σ) _) (w.outcome s).2 = _
  cases (w.outcome s).1 <;> rfl

/-- From the store in one state the work ends with a result, has sent some statements and leaves the
store in another state. -/
def Yields (w : Work σ α) (x : σ) (r : Except ServiceError α) (sent : List String) (y : σ) : Prop :=
  ∀ s : Session σ, s.store = x → ∃ events, w.outcome s = (r, ⟨y, s.sent ++ sent, events⟩)

theorem Yields.unique {w : Work σ α} {x y y' : σ} {r r' : Except ServiceError α}
    {sent sent' : List String} (h : w.Yields x r sent y) (h' : w.Yields x r' sent' y') :
    r = r' ∧ sent = sent' ∧ y = y' := by
  obtain ⟨events, he⟩ := h ⟨x, [], []⟩ rfl
  obtain ⟨events', he'⟩ := h' ⟨x, [], []⟩ rfl
  have hsame := he.symm.trans he'
  simp only [Prod.mk.injEq, Session.mk.injEq, List.nil_append] at hsame
  exact ⟨hsame.1, hsame.2.2.1, hsame.2.1⟩

theorem yields_pure (a : α) (x : σ) : (pure a : Work σ α).Yields x (.ok a) [] x := by
  rintro s rfl
  exact ⟨s.events, by rw [List.append_nil]; rfl⟩

theorem yields_report (e : Event) (x : σ) : (report e).Yields x (.ok ()) [] x := by
  rintro s rfl
  exact ⟨s.events ++ [e], by rw [List.append_nil]; rfl⟩

theorem yields_ofQuery_ok {q : Except QueryError α} {a : α} (h : q = .ok a) (x : σ) :
    (ofQuery q : Work σ α).Yields x (.ok a) [] x := by
  subst h
  exact yields_pure a x

theorem yields_ofQuery_error {q : Except QueryError α} {e : QueryError} (h : q = .error e) (x : σ) :
    (ofQuery q : Work σ α).Yields x (.error (.query e)) [] x := by
  subst h
  rintro s rfl
  exact ⟨s.events, by rw [List.append_nil]; rfl⟩

theorem yields_ofQuery (q : Except QueryError α) (x : σ) :
    (ofQuery q : Work σ α).Yields x (q.mapError .query) [] x := by
  cases q with
  | ok a => exact yields_ofQuery_ok rfl x
  | error e => exact yields_ofQuery_error rfl x

/-- A statement is sent once, whatever the store has for it. -/
theorem yields_execute (store : Store σ) (statement : String) (x : σ) :
    (execute store statement).Yields x ((store statement x).1.answer.mapError .store) [statement]
      (store statement x).2 := by
  rintro s rfl
  refine ⟨s.events ++ (store statement s.store).1.events, ?_⟩
  have hget : (get : Work σ (Session σ)).outcome s = (.ok s, s) := rfl
  rw [execute, outcome_bind, hget]
  dsimp only
  rcases store statement s.store with ⟨⟨_ | table, events⟩, next⟩ <;> rfl

theorem yields_execute_ok {store : Store σ} {statement : String} {x : σ} {table : Table}
    (h : (store statement x).1.answer = .ok table) :
    (execute store statement).Yields x (.ok table) [statement] (store statement x).2 := by
  have hx := yields_execute store statement x
  rwa [h] at hx

theorem yields_execute_error {store : Store σ} {statement : String} {x : σ} {e : StoreError}
    (h : (store statement x).1.answer = .error e) :
    (execute store statement).Yields x (.error (.store e)) [statement] (store statement x).2 := by
  have hx := yields_execute store statement x
  rwa [h] at hx

theorem Yields.bind {w : Work σ α} {f : α → Work σ β} {x y z : σ} {a : α}
    {r : Except ServiceError β} {sent sent' : List String} (h : w.Yields x (.ok a) sent y)
    (h' : (f a).Yields y r sent' z) : (w >>= f).Yields x r (sent ++ sent') z := by
  rintro s rfl
  obtain ⟨events, he⟩ := h s rfl
  obtain ⟨events', he'⟩ := h' ⟨y, s.sent ++ sent, events⟩ rfl
  refine ⟨events', ?_⟩
  rw [outcome_bind, he, ← List.append_assoc]
  exact he'

theorem Yields.bind_error {w : Work σ α} {x y : σ} {e : ServiceError} {sent : List String}
    (h : w.Yields x (.error e) sent y) (f : α → Work σ β) :
    (w >>= f).Yields x (.error e) sent y := by
  rintro s rfl
  obtain ⟨events, he⟩ := h s rfl
  exact ⟨events, by rw [outcome_bind, he]⟩

theorem Yields.map {w : Work σ α} {x y : σ} {r : Except ServiceError α} {sent : List String}
    (h : w.Yields x r sent y) (g : α → β) :
    (w >>= fun a => pure (g a)).Yields x (r.map g) sent y := by
  cases r with
  | error e => exact h.bind_error _
  | ok a =>
    have hpure := h.bind (f := fun a => pure (g a)) (yields_pure (g a) y)
    rwa [List.append_nil] at hpure

end PanelSource.Work
