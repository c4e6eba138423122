import PanelSource.Proofs.Json.Rereading
import PanelSource.Query.JsonForm
import PanelSource.Query.Statement
import PanelSource.Result.Series

/-! # Saved descriptions

A description that was read from JSON is read again, unchanged, from the JSON that is written of it.
So is a table. -/
namespace PanelSource
open Reader

namespace Aggregation

theorem ofName_name_of_known {k : Aggregation} (h : ∀ name, k ≠ other name) :
    ofName k.name = k := by
  cases k with
  | other name => exact absurd rfl (h name)
  | _ => decide

theorem eq_of_ofName_eq_other {s name : String} (h : ofName s = other name) : name = s := by
  unfold ofName at h
  split at h <;> cases h
  rfl

/-- The name of a function that was read by its name is read as the same function. -/
theorem ofName_name_ofName (s : String) : ofName (ofName s).name = ofName s := by
  by_cases hother : ∃ name, ofName s = other name
  · obtain ⟨name, h⟩ := hother
    rw [h, Aggregation.name, ← h]
    exact congrArg ofName (eq_of_ofName_eq_other h)
  · exact ofName_name_of_known fun name h => hother ⟨name, h⟩

end Aggregation

namespace Metric

def form : shape.Form where
  name
    | .kind => "type"
    | .column => "column"
  write
    | .kind => fun k => .text k.name
    | .column => .text
  value m
    | .kind => m.kind
    | .column => m.column
  named f := by cases f <;> rfl
  nodup_fields := by decide
  mem_fields f := by cases f <;> decide
  build?_eq_some_iff values m := by
    constructor
    · intro h f
      iterate 2 obtain ⟨_, _, h⟩ := Option.bind_eq_some_iff.mp h
      cases h
      cases f <;> assumption
    · intro h
      rw [funext h]
      rfl

theorem rereads : Rereads shape.reader toJson := by
  refine form.rereads (fun f => ?_) nofun nofun
  cases f with
  | kind =>
    intro o k h
    obtain ⟨s, -, rfl⟩ := Outcome.map_eq_ok_iff.mp h
    exact congrArg Except.ok (Aggregation.ofName_name_ofName s)
  | column => exact rereads_text

end Metric

namespace Operand

theorem reader_toJson (x : Operand) : reader (Outline.ofJson x.toJson) = .ok x := by
  cases x <;> rfl

end Operand

namespace Clause

def form : shape.Form where
  name
    | .condition => "condition"
    | .left => "left"
    | .operator => "operator"
    | .right => "right"
  write
    | .condition => .text
    | .left => .text
    | .operator => .text
    | .right => Operand.toJson
  value c
    | .condition => c.condition
    | .left => c.left
    | .operator => c.operator
    | .right => c.right
  named f := by cases f <;> rfl
  nodup_fields := by decide
  mem_fields f := by cases f <;> decide
  build?_eq_some_iff values c := by
    constructor
    · intro h f
      iterate 4 obtain ⟨_, _, h⟩ := Option.bind_eq_some_iff.mp h
      cases h
      cases f <;> assumption
    · intro h
      rw [funext h]
      rfl

theorem rereads : Rereads shape.reader toJson := by
  have hread : ∀ f, Rereads (shape.read f) (form.write f) := by
    intro f
    cases f with
    | right => exact fun _ x _ => x.reader_toJson
    | _ => exact rereads_text
  have hmissing : ∀ f v, shape.absent? f = some v →
      shape.read f (Outline.ofJson (form.write f v)) = .ok v := by
    intro f v h
    cases f <;> cases h <;> rfl
  exact form.rereads hread hmissing fun f v h => hmissing f v (by cases f <;> exact h)

end Clause

namespace Description

def form : shape.Form where
  name := Field.name
  write := Field.toJson
  value := Field.value
  named f := by cases f <;> rfl
  nodup_fields := by decide
  mem_fields f := by cases f <;> decide
  build?_eq_some_iff values d := by
    constructor
    · intro h f
      iterate 17 obtain ⟨_, _, h⟩ := Option.bind_eq_some_iff.mp h
      cases h
      cases f <;> assumption
    · intro h
      rw [funext h]
      rfl

/-- Every field of a description comes back. -/
theorem Field.rereads (f : Field) : Rereads f.reader f.toJson := by
  have hname : Rereads (optional text) (Json.ofOption .text) := rereads_text.optional nofun
  have hbound : Rereads (optional int64) (Json.ofOption Json.int) :=
    (rereads_intWhere _).optional nofun
  cases f with
  | mode => exact rereads_choice Mode.ofWord?_word
  | table => exact rereads_text
  | selectColumns => exact rereads_text.list
  | groupBy => exact rereads_text.list
  | metrics => exact Metric.rereads.list
  | clauses => exact Clause.rereads.list
  | order => exact (rereads_choice Order.ofWord?_word).optional nofun
  | timeFormat => exact (rereads_choice TimeFormat.ofWord?_word).optional nofun
  | timeFrom => exact hbound
  | timeTo => exact hbound
  | hide => exact rereads_bool
  | _ => exact hname

theorem rereads : Rereads shape.reader toJson := by
  have hmissing : ∀ f v, shape.absent? f = some v →
      shape.read f (Outline.ofJson (form.write f v)) = .ok v := by
    intro f v h
    cases f <;> cases h <;> rfl
  exact form.rereads Field.rereads hmissing hmissing

end Description

namespace Table

def form : shape.Form where
  name
    | .cols => "cols"
    | .rows => "rows"
  write
    | .cols => Json.texts
    | .rows => fun rows => .array (rows.map .array)
  value t
    | .cols => t.cols
    | .rows => t.rows
  named f := by cases f <;> rfl
  nodup_fields := by decide
  mem_fields f := by cases f <;> decide
  build?_eq_some_iff values t := by
    constructor
    · intro h f
      iterate 2 obtain ⟨_, _, h⟩ := Option.bind_eq_some_iff.mp h
      cases h
      cases f <;> assumption
    · intro h
      rw [funext h]
      rfl

theorem rereads : Rereads shape.reader toJson := by
  have hcells : Rereads (list Outline.toJson) .array := by
    have h := rereads_json.list
    simpa using h
  refine form.rereads (fun f => ?_) nofun nofun
  cases f with
  | cols => exact rereads_text.list
  | rows => exact hcells.list

end Table

theorem Reader.Rereads.bind_eq {α : Type} {read : Reader α} {write : α → Json}
    (h : Rereads read write) (o : Outline) :
    ((read o).bind fun a => read (Outline.ofJson (write a))) = read o := by
  cases ho : read o with
  | error fault => rfl
  | ok a => exact h o a ho

/-- Reading after writing changes nothing that was read: no description with any of its fields, no
table, no function of a metric, no operand. So what is made of a description stays the same. -/
theorem saved_rereads :
    (∀ o, ((Description.shape.reader o).bind fun d =>
      Description.shape.reader (Outline.ofJson d.toJson)) = Description.shape.reader o) ∧
    (∀ o, ((Table.shape.reader o).bind fun t => Table.shape.reader (Outline.ofJson t.toJson)) =
      Table.shape.reader o) ∧
    (∀ (d : Description) (f : Description.Field),
      d.toJson.field? f.name = some (f.toJson (f.value d))) ∧
    (∀ s, Aggregation.ofName (Aggregation.ofName s).name = Aggregation.ofName s) ∧
    (∀ x : Operand, Operand.reader (Outline.ofJson x.toJson) = .ok x) ∧
    ∀ o d d', Description.shape.reader o = .ok d →
      Description.shape.reader (Outline.ofJson d.toJson) = .ok d' →
      d'.compile = d.compile ∧ ∀ t, transform d' t = transform d t := by
  refine ⟨Description.rereads.bind_eq, Table.rereads.bind_eq, Description.form.field?_toJson,
    Aggregation.ofName_name_ofName, Operand.reader_toJson, ?_⟩
  intro o d d' h h'
  rw [Description.rereads o d h] at h'
  cases h'
  exact ⟨rfl, fun _ => rfl⟩

/-- Clauses with an integer, a double and a text of one look, by names, aliases and places. -/
def mixedClauses : Json :=
  .object [("metricAggs", .array [.object [("column", .text "v"), ("type", .text "MAX")]]),
    ("whereClauses", .array
      [.object [("key", .text "a"), ("operator", .text "="), ("value", .int 1)],
        .array [.text "AND", .text "b", .text "=", .double ⟨false, 0x3ff0000000000000, by decide⟩],
        .object [("left", .text "c"), ("operator", .text "="), ("right", .text "1")]])]

def mixedDescription : Description :=
  { metrics := [⟨.max, "v"⟩]
    clauses := [⟨"", "a", "=", .number (.int 1)⟩,
      ⟨"AND", "b", "=", .number (.double ⟨false, 0x3ff0000000000000, by decide⟩)⟩,
      ⟨"", "c", "=", .text "1"⟩] }

theorem saved_rereads_mixedClauses :
    Description.shape.reader (Outline.ofJson mixedClauses) = .ok mixedDescription ∧
      Description.shape.reader (Outline.ofJson mixedDescription.toJson) = .ok mixedDescription ∧
      mixedDescription.toJson.field? "timeFrom" = some .null := by
  have hread : Description.shape.reader (Outline.ofJson mixedClauses) = .ok mixedDescription := rfl
  have hagain := saved_rereads.1 (Outline.ofJson mixedClauses)
  rw [hread] at hagain
  exact ⟨hread, hagain, saved_rereads.2.2.1 mixedDescription .timeFrom⟩

end PanelSource
