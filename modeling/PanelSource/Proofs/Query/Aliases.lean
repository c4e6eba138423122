import PanelSource.Proofs.Query.Compiled
import PanelSource.Proofs.Text.Cutting

/-! # The aliases of metrics in a statement

Names stand in a statement as they were given, but an alias is quoted, and a quoted identifier is
read back. So an alias is read back as the expression that it names. Whatever that expression is
made of, the alias ends with its item. -/
namespace PanelSource.QuotedIdentifier

/-- Reads behind an opening quote up to the first lone one. A doubled quote stands for one. -/
def read? : List Char → Option (List Char × List Char)
  | [] => none
  | '"' :: '"' :: rest => (read? rest).map fun (name, rest) => ('"' :: name, rest)
  | '"' :: rest => some ([], rest)
  | c :: rest => (read? rest).map fun (name, rest) => (c :: name, rest)

/-- The name in a text that is a quoted identifier and nothing else. -/
def name? (s : String) : Option String :=
  match s.toList with
  | '"' :: cs =>
    match read? cs with
    | some (name, []) => some (String.ofList name)
    | _ => none
  | _ => none

def doubled (c : Char) : List Char := if c = '"' then ['"', '"'] else [c]

theorem toList_quoteIdentifier (s : String) :
    (Metric.quoteIdentifier s).toList = '"' :: (s.toList.flatMap doubled ++ ['"']) := by
  rw [Metric.quoteIdentifier, String.toList_ofList]
  rfl

theorem read?_lone {rest : List Char} (h : rest.head? ≠ some '"') :
    read? ('"' :: rest) = some ([], rest) := by
  cases rest with
  | nil => rfl
  | cons c rest =>
    have hc : c ≠ '"' := by simpa using h
    rw [read?]
    exact fun rest' he => hc (List.cons.inj he).1

theorem read?_cons {c : Char} (h : c ≠ '"') (rest : List Char) :
    read? (c :: rest) = (read? rest).map fun (name, rest) => (c :: name, rest) := by
  rw [read?]
  · exact fun rest' hc _ => h hc
  · exact h

/-- A name is read whole, even where it ends in quotes. -/
theorem read?_doubled (cs : List Char) {rest : List Char} (h : rest.head? ≠ some '"') :
    read? (cs.flatMap doubled ++ '"' :: rest) = some (cs, rest) := by
  induction cs with
  | nil => exact read?_lone h
  | cons c cs ih =>
    by_cases hc : c = '"'
    · subst hc
      have hd : doubled '"' = ['"', '"'] := rfl
      rw [List.flatMap_cons, hd, List.append_assoc]
      simp [read?, ih]
    · have hd : doubled c = [c] := if_neg hc
      rw [List.flatMap_cons, hd, List.append_assoc, List.singleton_append, read?_cons hc, ih]
      rfl

/-- A name can only be read where it stands with its quotes doubled, and a lone one behind it. -/
theorem read?_eq_some_iff {cs name rest : List Char} : read? cs = some (name, rest) ↔
    cs = name.flatMap doubled ++ '"' :: rest ∧ rest.head? ≠ some '"' := by
  refine ⟨fun h => ?_, fun ⟨hcs, hrest⟩ => hcs ▸ read?_doubled name hrest⟩
  induction cs using read?.induct generalizing name rest with
  | case1 => cases h
  | case2 cs ih =>
    rw [read?] at h
    obtain ⟨⟨_, _⟩, hread, heq⟩ := Option.map_eq_some_iff.mp h
    cases heq
    obtain ⟨rfl, hrest⟩ := ih hread
    exact ⟨rfl, hrest⟩
  | case3 cs hlone =>
    rw [read?] at h
    · cases h
      refine ⟨rfl, fun hquote => ?_⟩
      obtain ⟨_, rfl⟩ := List.head?_eq_some_iff.mp hquote
      exact hlone _ rfl
    · exact hlone
  | case4 c cs _ hc ih =>
    have hd : doubled c = [c] := if_neg hc
    rw [read?_cons hc] at h
    obtain ⟨⟨_, _⟩, hread, heq⟩ := Option.map_eq_some_iff.mp h
    cases heq
    obtain ⟨rfl, hrest⟩ := ih hread
    rw [List.flatMap_cons, hd]
    exact ⟨rfl, hrest⟩

/-- Reads a quoted identifier from its opening quote on. -/
def scan? : List Char → Option (List Char × List Char)
  | '"' :: cs => read? cs
  | _ => none

/-- Behind its last quote an identifier ends, unless a quote follows. -/
theorem scan?_quoteIdentifier_iff (s : String) (rest : List Char) :
    scan? ((Metric.quoteIdentifier s).toList ++ rest) = some (s.toList, rest) ↔
      rest.head? ≠ some '"' := by
  rw [toList_quoteIdentifier, List.cons_append, scan?, List.append_assoc, read?_eq_some_iff]
  exact and_iff_right rfl

theorem name?_quoteIdentifier (s : String) : name? (Metric.quoteIdentifier s) = some s := by
  have hread : read? (s.toList.flatMap doubled ++ ['"']) = some (s.toList, []) :=
    read?_doubled s.toList (by simp)
  simp [name?, toList_quoteIdentifier, hread]

end PanelSource.QuotedIdentifier

namespace PanelSource
open QuotedIdentifier

namespace Description
variable (d : Description)

/-- The statement in front of the item of a metric. -/
def beforeItem (before : List Metric) : String :=
  "SELECT " ++ ", ".intercalate ((d.bucket ++ " AS time") :: before.map Metric.selectItem) ++ ", "

/-- The statement behind the item of a metric. -/
def behindItem (behind : List Metric) : String :=
  String.join ((behind.map Metric.selectItem ++ d.groupBy).map (", " ++ ·)) ++ " FROM " ++
    d.qualifiedTable ++ d.filterSql ++ " GROUP BY " ++ ", ".intercalate (d.bucket :: d.groupBy) ++
    " ORDER BY time ASC"

variable {d} {before behind : List Metric} {m : Metric}

theorem aggregateText_eq_item (h : d.metrics = before ++ m :: behind) :
    d.aggregateText = d.beforeItem before ++ m.selectItem ++ d.behindItem behind := by
  have hitems : ", ".intercalate d.selectItems =
      ", ".intercalate ((d.bucket ++ " AS time") :: before.map Metric.selectItem) ++ ", " ++
        m.selectItem ++
          String.join ((behind.map Metric.selectItem ++ d.groupBy).map (", " ++ ·)) := by
    rw [selectItems, h, Cutting.intercalate_cons, Cutting.intercalate_cons]
    simp [String.append_assoc]
  rw [aggregateText, beforeItem, behindItem, hitems]
  simp only [String.append_assoc]

/-- Behind an item stands the next one, or the table. -/
theorem head?_behindItem (d : Description) (behind : List Metric) :
    (d.behindItem behind).toList.head? ≠ some '"' := by
  rw [behindItem]
  cases behind.map Metric.selectItem ++ d.groupBy <;> simp

/-- The text from the alias of a metric on. -/
theorem drop_aggregateText (h : d.metrics = before ++ m :: behind) :
    d.aggregateText.toList.drop (d.beforeItem before ++ m.expression ++ " AS ").length =
      (Metric.quoteIdentifier m.expression).toList ++ (d.behindItem behind).toList := by
  have htext : d.aggregateText.toList = (d.beforeItem before ++ m.expression ++ " AS ").toList ++
      ((Metric.quoteIdentifier m.expression).toList ++ (d.behindItem behind).toList) := by
    rw [aggregateText_eq_item h, Metric.selectItem]
    simp only [String.toList_append, List.append_assoc]
  rw [htext, ← String.length_toList, List.drop_left]

end Description

/-- The alias of a metric is read back as its expression, whatever characters that has, and ends
where the item ends: in front of every text that does not begin with a quote, and so in every
statement. -/
theorem aliases_readAsExpressions :
    (∀ m : Metric, ∃ quoted, m.selectItem = m.expression ++ " AS " ++ quoted ∧
      ∀ rest, scan? (quoted.toList ++ rest) = some (m.expression.toList, rest) ↔
        rest.head? ≠ some '"') ∧
    ∀ (d : Description) (sql : String), d.compileAggregate = .ok sql →
      ∀ before m behind, d.metrics = before ++ m :: behind →
        sql = d.beforeItem before ++ m.selectItem ++ d.behindItem behind ∧
        scan? (sql.toList.drop (d.beforeItem before ++ m.expression ++ " AS ").length) =
          some (m.expression.toList, (d.behindItem behind).toList) := by
  constructor
  · exact fun m => ⟨_, rfl, scan?_quoteIdentifier_iff m.expression⟩
  · intro d sql hc before m behind hmetrics
    obtain ⟨-, -, -, rfl⟩ := Description.compileAggregate_eq_ok_iff.mp hc
    refine ⟨Description.aggregateText_eq_item hmetrics, ?_⟩
    rw [Description.drop_aggregateText hmetrics, scan?_quoteIdentifier_iff]
    exact d.head?_behindItem behind

/-- A kind that ends in quotes and a column that looks like the rest of a statement. -/
def misleading : Description :=
  { table := "t", metrics := [⟨.avg, "v"⟩, ⟨.other "f\"\"", "v\" AS \"w\" FROM u, \""⟩],
    groupBy := ["\"g\""] }

theorem aliases_readAsExpressions_misleading :
    ∃ sql, misleading.compileAggregate = .ok sql ∧
      misleading.metrics = [⟨.avg, "v"⟩] ++ ⟨.other "f\"\"", "v\" AS \"w\" FROM u, \""⟩ :: [] ∧
      scan? (sql.toList.drop ("SELECT time AS time, avg(v) AS \"avg(v)\", " ++
          "f\"\"(v\" AS \"w\" FROM u, \") AS ").length) =
        some ("f\"\"(v\" AS \"w\" FROM u, \")".toList,
          ", \"g\" FROM t GROUP BY time, \"g\" ORDER BY time ASC".toList) :=
  ⟨_, rfl, rfl, (aliases_readAsExpressions.2 misleading _ rfl [_] _ [] rfl).2⟩

end PanelSource
