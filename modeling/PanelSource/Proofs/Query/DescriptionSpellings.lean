import PanelSource.Proofs.Json.Respelling
import PanelSource.Proofs.Query.SavedDescription

/-! # Spellings of a description

A description, its metrics and its clauses may be spelled in many ways, by names, by aliases and by
places. All of them are read as the same description. -/
namespace PanelSource

def Metric.Respelled : Outline → Outline → Prop := shape.Respelled fun _ _ _ => False

def Clause.Respelled : Outline → Outline → Prop := shape.Respelled fun _ _ _ => False

namespace Description

/-- One step inside a field: to another spelling of one metric or of one clause. -/
inductive Field.Respelled : Field → Outline → Outline → Prop
  | metric {x y : Outline} : Outline.InItem Metric.Respelled x y → Respelled .metrics x y
  | clause {x y : Outline} : Outline.InItem Clause.Respelled x y → Respelled .clauses x y

/-- One step to another spelling of a description, or of a metric or a clause in it. -/
def Respelled : Outline → Outline → Prop := shape.Respelled Field.Respelled

end Description

theorem Metric.keeps_respelled : Reader.Keeps shape.reader Respelled :=
  form.keeps_respelled fun _ _ _ _ h => absurd h id

theorem Clause.keeps_respelled : Reader.Keeps shape.reader Respelled :=
  form.keeps_respelled fun _ _ _ _ h => absurd h id

theorem Description.keeps_respelled : Reader.Keeps shape.reader Respelled := by
  apply form.keeps_respelled
  rintro f x y v hstep hread
  cases hstep with
  | metric hstep => exact Metric.keeps_respelled.list x y v hstep hread
  | clause hstep => exact Clause.keeps_respelled.list x y v hstep hread

/-- However a description that can be read is respelled, it is read as the same description, from
values as from texts. And no clause is read that has a field under both of its names. -/
theorem respelled_reads :
    (∀ o o' d, Relation.ReflTransGen Description.Respelled o o' →
      Description.shape.reader o = .ok d → Description.shape.reader o' = .ok d) ∧
    (∀ text text' d, Relation.ReflTransGen Description.Respelled (Json.scan text).1
        (Json.scan text').1 → (Json.scan text').2 = false →
      Outline.readText Description.shape.reader text = .ok d →
        Outline.readText Description.shape.reader text' = .ok d) ∧
    ∀ depth entries c, Clause.shape.reader (.object depth entries) = .ok c → ∀ x y,
      ¬((some "left", x) ∈ entries ∧ (some "key", y) ∈ entries) ∧
        ¬((some "right", x) ∈ entries ∧ (some "value", y) ∈ entries) := by
  have hkeeps := Description.keeps_respelled.reflTransGen
  refine ⟨hkeeps, fun text text' d hsteps hend h => ?_, fun depth entries c h x y => ?_⟩
  · obtain ⟨hread, -⟩ := Outline.readText_eq_ok_iff.mp h
    exact Outline.readText_eq_ok_iff.mpr ⟨hkeeps _ _ d hsteps hread, hend⟩
  · exact ⟨Clause.form.not_both_names rfl rfl (by decide) h x y,
      Clause.form.not_both_names rfl rfl (by decide) h x y⟩

def namedMetric : Outline :=
  .object 3 [(some "column", .text (some "v")), (some "type", .text (some "avg"))]

def listedMetric : Outline := .array 3 [.text (some "avg"), .text (some "v")]

def leftClause : Outline :=
  .object 3 [(some "condition", .text (some "")), (some "left", .text (some "x")),
    (some "operator", .text (some "=")), (some "right", .number (some (.int 1)))]

def keyEntries : List (Option String × Outline) :=
  [(some "note", .null), (some "key", .text (some "x")), (some "operator", .text (some "=")),
    (some "right", .number (some (.int 1)))]

def spelledEntries (metric clause : Outline) : List (Option String × Outline) :=
  [(some "metricAggs", .array 2 [metric]), (some "whereClauses", .array 2 [clause]),
    (some "table", .text (some "t")), (some "hide", .bool false)]

/-- What stands for the fields up to the clauses; the others are omitted. -/
def spelledPlaces (metric clause : Outline) : List Outline :=
  [.text (some "aggregate"), .null, .null, .text (some "t"), .array 2 [], .array 2 [metric],
    .array 2 [], .array 2 [clause]]

theorem namedMetric_respelled : Metric.Respelled namedMetric listedMetric :=
  .arrayed (.given ⟨"type", rfl, .tail _ (.head _)⟩ (.given ⟨"column", rfl, .head _⟩ .nil))

theorem leftClause_respelled :
    Relation.ReflTransGen Clause.Respelled leftClause (.object 3 keyEntries) := by
  have hkey : Clause.shape.named? "key" = some .left := rfl
  refine .head (.dropped (f := .condition) rfl rfl rfl) ?_
  refine .head (.renamed rfl hkey) ?_
  exact .single (.added rfl rfl)

theorem lists_spelledPlaces (metric clause : Outline) :
    Description.shape.Lists (spelledEntries metric clause) Description.shape.fields
      (spelledPlaces metric clause) := by
  have hlacks (f : Description.Field) (h : (spelledEntries metric clause).all
      (fun e => decide (e.1.bind Description.shape.named? ≠ some f)) = true) (x : Outline) :
      ¬ Description.shape.Gives (spelledEntries metric clause) f x := by
    rintro ⟨name, hname, hmem⟩
    exact of_decide_eq_true (List.all_eq_true.mp h _ hmem) hname
  refine .absent (hlacks .mode rfl) rfl rfl ?_
  refine .absent (hlacks .query rfl) rfl rfl ?_
  refine .absent (hlacks .schema rfl) rfl rfl ?_
  refine .given ⟨"table", rfl, .tail _ (.tail _ (.head _))⟩ ?_
  refine .absent (hlacks .selectColumns rfl) rfl rfl ?_
  refine .given ⟨"metricAggs", rfl, .head _⟩ ?_
  refine .absent (hlacks .groupBy rfl) rfl rfl ?_
  refine .given ⟨"whereClauses", rfl, .tail _ (.head _)⟩ ?_
  iterate 8 refine .omitted (.inr ⟨hlacks _ rfl, rfl⟩) rfl ?_
  have hhide : Description.shape.Gives (spelledEntries metric clause) .hide (.bool false) :=
    ⟨"hide", rfl, .tail _ (.tail _ (.tail _ (.head _)))⟩
  exact .omitted (.inl ⟨_, hhide, rfl⟩) rfl .nil

/-- The description of both spellings. -/
def spelledDescription : Description :=
  { table := "t", metrics := [⟨.avg, "v"⟩], clauses := [⟨"", "x", "=", .number (.int 1)⟩] }

theorem spelledEntries_respelled : Relation.ReflTransGen Description.Respelled
    (.object 1 (spelledEntries namedMetric leftClause).reverse)
    (.array 1 (spelledPlaces listedMetric (.object 3 keyEntries))) := by
  have hordered : Description.Respelled
      (.object 1 (spelledEntries namedMetric leftClause).reverse)
      (.object 1 (spelledEntries namedMetric leftClause)) :=
    .permuted (List.reverse_perm _)
  have hmetric : Description.Respelled (.object 1 (spelledEntries namedMetric leftClause))
      (.object 1 (spelledEntries listedMetric leftClause)) :=
    .entry rfl (.metric (.at [] namedMetric_respelled))
  have harray : Description.Respelled (.object 1 (spelledEntries listedMetric leftClause))
      (.array 1 (spelledPlaces listedMetric leftClause)) :=
    .arrayed (lists_spelledPlaces _ _)
  have hclause : ∀ x y, Clause.Respelled x y → Description.Respelled
      (.array 1 (spelledPlaces listedMetric x)) (.array 1 (spelledPlaces listedMetric y)) := by
    intro x y h
    exact .place [.text (some "aggregate"), .null, .null, .text (some "t"), .array 2 [],
      .array 2 [listedMetric], .array 2 []] rfl (.clause (.at [] h))
  refine .head hordered (.head hmetric (.head harray ?_))
  exact leftClause_respelled.lift (fun c => Outline.array 1 (spelledPlaces listedMetric c)) hclause

/-- By names and by places, as outlines; empty, as texts; and a clause whose left side has its other
name. -/
theorem respelled_reads_places :
    Description.shape.reader (.object 1 (spelledEntries namedMetric leftClause).reverse) =
        .ok spelledDescription ∧
      Description.shape.reader (.array 1 (spelledPlaces listedMetric (.object 3 keyEntries))) =
        .ok spelledDescription ∧
      Outline.readText Description.shape.reader "[]" = .ok {} ∧
      Clause.shape.reader (.object 3 keyEntries) = .ok ⟨"", "x", "=", .number (.int 1)⟩ ∧
      (some "left", .text (some "x")) ∉ keyEntries := by
  have hread : Description.shape.reader
      (.object 1 (spelledEntries namedMetric leftClause).reverse) = .ok spelledDescription := rfl
  have hclause : Clause.shape.reader (.object 3 keyEntries) =
      .ok ⟨"", "x", "=", .number (.int 1)⟩ := rfl
  have hempty : Relation.ReflTransGen Description.Respelled (Json.scan "\x7b\x7d").1
      (Json.scan "[]").1 := by
    have hlists : Description.shape.Lists [] Description.shape.fields [] := by
      iterate 17 refine .omitted (.inr ⟨fun _ => RecordShape.not_gives_nil, rfl⟩) rfl ?_
      exact .nil
    exact .single (.arrayed hlists)
  refine ⟨hread, respelled_reads.1 _ _ _ spelledEntries_respelled hread,
    respelled_reads.2.1 _ _ _ hempty rfl rfl, hclause, fun hleft => ?_⟩
  exact (respelled_reads.2.2 _ _ _ hclause _ _).1 ⟨hleft, List.mem_cons_of_mem _ List.mem_cons_self⟩

end PanelSource
