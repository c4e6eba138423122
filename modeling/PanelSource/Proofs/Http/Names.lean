import PanelSource.Proofs.Http.Operations
import PanelSource.Proofs.Http.Unseen
import PanelSource.Proofs.Text.Percent

/-! # Names in the addresses of suggestions

A name that is spelled in an address in whatever way is the name in the statement: it ends neither
its segment nor the path, and it is decoded once. -/
namespace PanelSource

namespace Text
variable {sep : Char} {cs : List Char}

theorem cutAt_of_not_mem (h : sep ∉ cs) : cutAt sep cs = (cs, none) := by
  induction cs with
  | nil => rfl
  | cons c cs ih =>
    rw [List.mem_cons, not_or] at h
    rw [cutAt, if_neg (Ne.symm h.1), ih h.2]

theorem cutAt_append (h : sep ∉ cs) (rest : List Char) :
    cutAt sep (cs ++ sep :: rest) = (cs, some rest) := by
  induction cs with
  | nil => exact if_pos rfl
  | cons c cs ih =>
    rw [List.mem_cons, not_or] at h
    rw [List.cons_append, cutAt, if_neg (Ne.symm h.1), ih h.2]

end Text

/-- The path of a route and, where there is one, a query. -/
def Route.address (r : Route) (query : List Char) : List Char :=
  r.path ++ if query = [] then [] else '?' :: query

namespace HttpRequest

/-- A segment spells a name. -/
def Spells (segment : List Char) (name : String) : Prop :=
  Text.Percent.Spells segment (Text.Utf8.encode name.toList)

/-- The request reads from an address. -/
structure Gets (req : HttpRequest) (r : Route) (query : List Char) : Prop where
  method : req.Reads
  noFragment : '#' ∉ query
  address : splitAddress (String.ofList (r.address query)) = (req.path, req.query)

end HttpRequest

namespace Route
variable {r : Route}

/-- Only a name could hold a character that divides an address. -/
theorem not_mem_pieces {divider : Char} (hd : divider ∈ ['/', '?', '#'])
    (h : ∀ segment ∈ r.names, divider ∉ segment) : ∀ piece ∈ r.pieces, divider ∉ piece := by
  have hword : ∀ word ∈ ["api", "query", "compile", "tables", "columns", "values", "status"],
      divider ∉ word.toList := by
    simp only [List.mem_cons, List.not_mem_nil, or_false] at hd
    rcases hd with rfl | rfl | rfl <;> decide
  simp only [List.forall_mem_cons] at hword
  obtain ⟨hapi, hquery, hcompile, htables, hcolumns, hvalues, hstatus, -⟩ := hword
  cases r with
  | columns table =>
    simp only [names, List.forall_mem_cons] at h
    simp only [pieces, List.forall_mem_cons]
    exact ⟨hapi, htables, h.1, hcolumns, List.forall_mem_nil _⟩
  | values table column =>
    simp only [names, List.forall_mem_cons] at h
    simp only [pieces, List.forall_mem_cons]
    exact ⟨hapi, htables, h.1, hcolumns, h.2.1, hvalues, List.forall_mem_nil _⟩
  | _ =>
    simp only [pieces, List.forall_mem_cons, *, not_false_eq_true, true_and]
    exact List.forall_mem_nil _

theorem not_mem_path {divider : Char} (hne : divider ≠ '/')
    (h : ∀ piece ∈ r.pieces, divider ∉ piece) : divider ∉ r.path := by
  rw [path, List.mem_flatMap]
  rintro ⟨piece, hpiece, hmem⟩
  exact (List.mem_cons.mp hmem).elim hne (h piece hpiece)

/-- An address is taken apart where its query begins. -/
theorem splitAddress_address {query : List Char}
    (h : ∀ divider ∈ ['/', '?', '#'], ∀ piece ∈ r.pieces, divider ∉ piece) (hquery : '#' ∉ query) :
    HttpRequest.splitAddress (String.ofList (r.address query)) = (r.path, query) := by
  have hpath : '?' ∉ r.path := not_mem_path (by decide) (h '?' (by decide))
  have hhash : '#' ∉ r.address query := by
    rw [address, List.mem_append, not_or]
    refine ⟨not_mem_path (by decide) (h '#' (by decide)), ?_⟩
    split <;> simp [hquery]
  have hslash : HttpRequest.withoutHost (r.address query) = r.address query := by
    cases r <;> rfl
  rw [HttpRequest.splitAddress, String.toList_ofList, hslash, Text.cutAt_of_not_mem hhash]
  dsimp only
  by_cases hnone : query = []
  · simp [address, hnone, Text.cutAt_of_not_mem hpath]
  · simp [address, hnone, Text.cutAt_append hpath]

end Route

namespace HttpRequest
variable {req : HttpRequest} {segment segment' query : List Char} {name table column : String}

theorem Spells.names (h : Spells segment name) : Names segment name :=
  ⟨name.toList, Text.Percent.decodeSegment?_of_spells h, String.ofList_toList⟩

/-- However its names are spelled, an address leads to their route. -/
theorem Gets.reaches {r : Route} (h : req.Gets r query)
    (hr : ∀ segment ∈ r.names, ∃ name, Spells segment name) : req.At r ∧ req.query = query := by
  have hpieces : ∀ divider ∈ ['/', '?', '#'], ∀ piece ∈ r.pieces, divider ∉ piece :=
    fun divider hd => Route.not_mem_pieces hd fun segment hsegment =>
      (hr segment hsegment).elim fun _ hname => Text.Percent.Spells.not_mem hname hd
  have haddress := (Route.splitAddress_address hpieces h.noFragment).symm.trans h.address
  simp only [Prod.mk.injEq] at haddress
  exact ⟨⟨haddress.1.symm, hpieces '/' (by decide)⟩, haddress.2.symm⟩

theorem Gets.asks_columns (h : req.Gets (.columns segment) query) (htable : Spells segment table) :
    req.Asks (.columns table) := by
  have hreach := h.reaches (by simpa [Route.names] using ⟨table, htable⟩)
  exact .columns hreach.1 h.method htable.names

theorem Gets.asks_values {limit : Option Nat} (h : req.Gets (.values segment segment') query)
    (htable : Spells segment table) (hcolumn : Spells segment' column)
    (hlimit : Server.limit? query = some limit) : req.Asks (.values table column limit) := by
  have hreach := h.reaches (by simpa [Route.names] using ⟨⟨table, htable⟩, column, hcolumn⟩)
  exact .values hreach.1 h.method htable.names hcolumn.names (hreach.2 ▸ hlimit)

end HttpRequest

namespace Statement

theorem exists_columns {table : String} (h : Text.blank table = false) :
    ∃ statement, columns table = .ok statement := by
  rw [columns, Description.requireTable, if_neg (by simp [h])]
  exact ⟨_, rfl⟩

theorem exists_values {table column : String} (htable : Text.blank table = false)
    (hcolumn : Text.blank column = false) (limit : Option Nat) :
    ∃ statement, values table column limit = .ok statement := by
  rw [values, Description.requireTable, if_neg (by simp [htable]), Description.requireColumn,
    if_neg (by simp [hcolumn])]
  exact ⟨_, rfl⟩

end Statement

namespace Datasource
variable {σ : Type} (ds : Datasource σ)

/-- What is suggested from the reply to a statement. -/
def suggested (statement : String) (x : σ) : Except ServiceError (List String) :=
  ((ds.store statement x).1.answer.mapError .store).map Table.suggestions

variable {ds} {table column statement : String}

theorem yields_columns (h : Statement.columns table = .ok statement) (x : σ) :
    (ds.columns table).Yields x (ds.suggested statement x) [statement] (ds.store statement x).2 :=
  (Work.yields_ofQuery_ok h x).bind ((Work.yields_execute _ _ x).map _)

theorem yields_values {limit : Option Nat}
    (h : Statement.values table column (some (limit.getD ds.defaults.valuesLimit)) = .ok statement)
    (x : σ) : (ds.values table column limit).Yields x (ds.suggested statement x) [statement]
      (ds.store statement x).2 :=
  (Work.yields_ofQuery_ok h x).bind ((Work.yields_execute _ _ x).map _)

end Datasource

namespace Server
variable {σ : Type} (srv : Server σ)

/-- The request is worked as its operation is: one statement is sent, and the response is made from
what the store replies to it. -/
structure SuggestsBy (a : Arrival) (x : σ) (work : Work σ (List String)) (statement : String) :
    Prop where
  works : work.Yields x (srv.datasource.suggested statement x) [statement]
    (srv.datasource.store statement x).2
  sent : (srv.step a x).2.sent = [statement]
  left : (srv.step a x).2.store = (srv.datasource.store statement x).2
  tells : (srv.upFor a.uptimeSeconds).Tells a.request
    ((srv.datasource.suggested statement x).map .suggestions) (srv.step a x).1

/-- The request is answered by what it lacks, without the store. -/
structure Refuses (a : Arrival) (x : σ) (what : Shortcoming) : Prop where
  sent : (srv.step a x).2.sent = []
  left : (srv.step a x).2.store = x
  tells : (srv.step a x).1 = told a.request 400
    (ServiceError.report "INVALID_QUERY_DESCRIPTION" (QueryError.invalidDescription what).message)

variable {srv} {a : Arrival} {x : σ} {op : Operation} {work : Work σ (List String)}

theorem suggestsBy_of_asks {statement : String} (h : a.request.Asks op)
    (hop : srv.datasource.perform op = do return .suggestions (← work))
    (hwork : work.Yields x (srv.datasource.suggested statement x) [statement]
      (srv.datasource.store statement x).2) : srv.SuggestsBy a x work statement := by
  have hmap := hwork.map Value.suggestions
  rw [← hop] at hmap
  obtain ⟨hleft, hsent, htells⟩ := srv.step_of_yields h hmap
  exact ⟨hwork, hsent, hleft, htells⟩

theorem refuses_of_asks {what : Shortcoming} (h : a.request.Asks op)
    (hop : (srv.datasource.perform op).Yields x (.error (.query (.invalidDescription what))) [] x) :
    srv.Refuses a x what := by
  obtain ⟨hleft, hsent, htells⟩ := srv.step_of_yields h hop
  exact ⟨hsent, hleft, htells.eq_toldFailure⟩

theorem columns_answered {table : String} (h : a.request.Asks (.columns table)) (x : σ) :
    (Text.blank table = false → ∃ statement, Statement.columns table = .ok statement ∧
      srv.SuggestsBy a x (srv.datasource.columns table) statement) ∧
    (Text.blank table = true → srv.Refuses a x .blankTable) := by
  constructor
  · intro hfilled
    obtain ⟨statement, hstatement⟩ := Statement.exists_columns hfilled
    exact ⟨statement, hstatement, suggestsBy_of_asks h rfl (Datasource.yields_columns hstatement x)⟩
  · intro hblank
    have hstatement := Statement.columns_of_blank hblank
    exact refuses_of_asks h (((Work.yields_ofQuery_error hstatement x).bind_error _).bind_error _)

theorem values_answered {table column : String} {limit : Option Nat}
    (h : a.request.Asks (.values table column limit)) (x : σ) :
    (Text.blank table = false → Text.blank column = false → ∃ statement,
      Statement.values table column (some (limit.getD srv.datasource.defaults.valuesLimit)) =
        .ok statement ∧
      srv.SuggestsBy a x (srv.datasource.values table column limit) statement) ∧
    (Text.blank table = true → srv.Refuses a x .blankTable) ∧
    (Text.blank table = false → Text.blank column = true → srv.Refuses a x .blankColumn) := by
  refine ⟨fun htable hcolumn => ?_, fun htable => ?_, fun htable hcolumn => ?_⟩
  · obtain ⟨statement, hstatement⟩ := Statement.exists_values htable hcolumn
      (some (limit.getD srv.datasource.defaults.valuesLimit))
    exact ⟨statement, hstatement, suggestsBy_of_asks h rfl (Datasource.yields_values hstatement x)⟩
  · have hstatement := Statement.values_of_blankTable htable column
      (some (limit.getD srv.datasource.defaults.valuesLimit))
    exact refuses_of_asks h (((Work.yields_ofQuery_error hstatement x).bind_error _).bind_error _)
  · have hstatement := Statement.values_of_blankColumn htable hcolumn
      (some (limit.getD srv.datasource.defaults.valuesLimit))
    exact refuses_of_asks h (((Work.yields_ofQuery_error hstatement x).bind_error _).bind_error _)

/-- However the names in an address are spelled, the one statement that is sent is made of the names
themselves, each in its place; where a name is blank nothing is sent. -/
theorem names_reach_store (srv : Server σ) (a : Arrival) {segment query : List Char}
    {table : String} (htable : HttpRequest.Spells segment table) (x : σ) :
    (a.request.Gets (.columns segment) query →
      (Text.blank table = false → ∃ statement, Statement.columns table = .ok statement ∧
        srv.SuggestsBy a x (srv.datasource.columns table) statement) ∧
      (Text.blank table = true → srv.Refuses a x .blankTable)) ∧
    ∀ {segment' : List Char} {column : String} {limit : Option Nat},
      HttpRequest.Spells segment' column → limit? query = some limit →
      a.request.Gets (.values segment segment') query →
      (Text.blank table = false → Text.blank column = false → ∃ statement,
        Statement.values table column (some (limit.getD srv.datasource.defaults.valuesLimit)) =
          .ok statement ∧
        srv.SuggestsBy a x (srv.datasource.values table column limit) statement) ∧
      (Text.blank table = true → srv.Refuses a x .blankTable) ∧
      (Text.blank table = false → Text.blank column = true → srv.Refuses a x .blankColumn) :=
  ⟨fun h => columns_answered (h.asks_columns htable) x,
    fun hcolumn hlimit h => values_answered (h.asks_values htable hcolumn hlimit) x⟩

/-- A request that reads from an address without headers or a body. -/
def readFrom (r : Route) (query : List Char) : Arrival := ⟨⟨"GET", r.path, query, [], ""⟩, 0⟩

/-- The table `é/%`, in digits of both cases. -/
def escapedTable : List Char := "%c3%A9%2F%25".toList

/-- The column `c+?`. -/
def escapedColumn : List Char := "c%2B%3f".toList

def blankColumn : List Char := "%20".toList

theorem names_reach_store_escaped :
    HttpRequest.Spells escapedTable "é/%" ∧ HttpRequest.Spells escapedColumn "c+?" ∧
      HttpRequest.Spells blankColumn " " ∧
      (scriptedServer.step (readFrom (.columns escapedTable) []) []).2.sent =
        ["SELECT column_name FROM information_schema.columns WHERE table_name='é/%'"] ∧
      (scriptedServer.step
        (readFrom (.values escapedTable escapedColumn) "limit=3".toList) []).2.sent =
        ["SELECT c+? FROM é/% LIMIT 3"] ∧
      scriptedServer.Refuses (readFrom (.values escapedTable blankColumn) []) [] .blankColumn := by
  have htable : HttpRequest.Spells escapedTable "é/%" :=
    .escaped (by decide) (by decide) (by decide) (.escaped (by decide) (by decide) (by decide)
      (.escaped (by decide) (by decide) (by decide)
        (.escaped (by decide) (by decide) (by decide) .nil)))
  have hcolumn : HttpRequest.Spells escapedColumn "c+?" :=
    .raw (by decide) (.escaped (by decide) (by decide) (by decide)
      (.escaped (by decide) (by decide) (by decide) .nil))
  have hblank : HttpRequest.Spells blankColumn " " :=
    .escaped (by decide) (by decide) (by decide) .nil
  have hgets (r : Route) (query : List Char) (hquery : '#' ∉ query)
      (hr : HttpRequest.splitAddress (String.ofList (r.address query)) = (r.path, query)) :
      (readFrom r query).request.Gets r query := ⟨.inl rfl, hquery, hr⟩
  refine ⟨htable, hcolumn, hblank, ?_, ?_, ?_⟩
  · obtain ⟨statement, hstatement, hsuggests⟩ := ((scriptedServer.names_reach_store
      (readFrom (.columns escapedTable) []) htable []).1
      (hgets _ _ (by decide) (by decide))).1 (by decide)
    cases hstatement
    exact hsuggests.sent
  · obtain ⟨statement, hstatement, hsuggests⟩ := ((scriptedServer.names_reach_store
      (readFrom (.values escapedTable escapedColumn) "limit=3".toList) htable []).2
      hcolumn (by decide : limit? "limit=3".toList = some (some 3))
      (hgets _ _ (by decide) (by decide))).1 (by decide) (by decide)
    cases hstatement
    exact hsuggests.sent
  · exact ((scriptedServer.names_reach_store (readFrom (.values escapedTable blankColumn) [])
      htable []).2 hblank (by decide : limit? [] = some none)
      (hgets _ _ (by decide) (by decide))).2.2 (by decide) (by decide)

end Server
end PanelSource
