import Mathlib.Tactic.ByContra
import Mathlib.Tactic.Choose
import PanelSource.Proofs.Settings.Layers
import PanelSource.Settings.Load

/-! # The settings one by one

Each setting has a place in the tree, and is read from what stands there. The settings are read from
a tree with all sections exactly when each of them is. -/
namespace PanelSource

namespace Setting

theorem at?_of_field? {s t : Setting} {part : String} (h : s.field? part = some t)
    (name : String) : s.at? part name = t.field? name := by
  rw [at?, h, Option.bind_some]

/-- A value that may be null or absent. -/
def orNull {α : Type} (read : Setting → Option α) : Option Setting → Option (Option α)
  | none => some none
  | some null => some none
  | some value => (read value).map some

theorem part?_table (fields : List (String × Setting)) (index : Nat) (name : String) :
    (table fields).part? index name = (table fields).field? name := rfl

theorem optionalPart?_table {α : Type} (read : Setting → Option α)
    (fields : List (String × Setting)) (index : Nat) (name : String) :
    (table fields).optionalPart? read index name = orNull read ((table fields).field? name) := by
  unfold optionalPart?
  rw [part?_table]
  cases (table fields).field? name with
  | none => rfl
  | some value => cases value <;> rfl

theorem countOfExtended_lt (x : Extended) : countOfExtended x < UInt64.size := by
  have hmax : maxCount < UInt64.size := by decide
  cases x with
  | finite x => exact Nat.lt_of_le_of_lt (Nat.min_le_right _ _) hmax
  | infinity negative => cases negative <;> decide
  | nan => decide

theorem countOfText?_lt {s : String} {n : Nat} (h : countOfText? s = some n) :
    n < UInt64.size := by
  unfold countOfText? at h
  split at h
  case h_7 =>
    rw [Text.below?, Option.filter_eq_some_iff] at h
    exact of_decide_eq_true h.2
  all_goals
    cases h
    decide

/-- What is read as a count has 64 bits, whatever it was given as. -/
theorem count?_lt {s : Setting} {n : Nat} (h : s.count? = some n) : n < UInt64.size := by
  cases s with
  | int i =>
    rw [count?, Option.ite_none_right_eq_some] at h
    obtain ⟨⟨hnonneg, hless⟩, h⟩ := h
    cases h
    exact (Int.toNat_lt hnonneg).mpr hless
  | float x =>
    cases h
    exact countOfExtended_lt x
  | bool b =>
    cases h
    cases b <;> decide
  | text s => exact countOfText?_lt h
  | _ => cases h

end Setting

namespace Settings

inductive Key
  | connection
  | poolSize
  | host
  | port
  | schema
  | timeColumn
  | groupInterval
  | timeFormat
  | valuesLimit
  deriving DecidableEq

namespace Key

def part : Key → String
  | connection | poolSize => "database"
  | host | port => "web"
  | schema | timeColumn | groupInterval | timeFormat | valuesLimit => "datasource"

def name : Key → String
  | connection => "connection_string"
  | poolSize => "pool_size"
  | host => "host"
  | port => "port"
  | schema => "schema"
  | timeColumn => "time_column"
  | groupInterval => "group_interval"
  | timeFormat => "time_format"
  | valuesLimit => "values_limit"

def path (k : Key) : List Setting.Step := [.name k.part, .name k.name]

/-- The name with a point. -/
def dotted (k : Key) : String := k.part ++ "." ++ k.name

/-- The variable of the environment, in small letters. -/
def variableName (k : Key) : String := variablePrefix ++ k.part ++ "__" ++ k.name

def Value : Key → Type
  | connection | host | timeColumn => String
  | poolSize | port | valuesLimit => Nat
  | schema | groupInterval => Option String
  | timeFormat => Option TimeFormat

def value (s : Settings) : (k : Key) → k.Value
  | connection => s.database.connection
  | poolSize => s.database.poolSize
  | host => s.web.host
  | port => s.web.port
  | schema => s.datasource.schema
  | timeColumn => s.datasource.timeColumn
  | groupInterval => s.datasource.groupInterval
  | timeFormat => s.datasource.timeFormat
  | valuesLimit => s.datasource.valuesLimit

/-- What is made of the value in the tree, if there is one. -/
def read : (k : Key) → Option Setting → Option k.Value
  | connection | host | timeColumn => fun x => x.bind Setting.text?
  | poolSize | valuesLimit => fun x => x.bind Setting.count?
  | port => fun x => x.bind (Setting.countBelow? 65536)
  | schema | groupInterval => Setting.orNull Setting.text?
  | timeFormat => Setting.orNull (Setting.word? TimeFormat.ofWord?)

def builtIn (k : Key) : Option Setting := Settings.builtIn.lookup k.dotted

def onLine (line : CommandLine) : (k : Key) → Option k.Value
  | connection => line.database
  | host => line.host
  | port => line.port
  | poolSize | valuesLimit => (none : Option Nat)
  | timeColumn => (none : Option String)
  | schema | groupInterval => (none : Option (Option String))
  | timeFormat => (none : Option (Option TimeFormat))

theorem value_override (line : CommandLine) (s : Settings) (k : Key) :
    k.value (s.override line) = (k.onLine line).getD (k.value s) := by cases k <;> rfl

/-- Settings are what their values are. -/
theorem eq_of_value_eq {s s' : Settings} (h : ∀ k : Key, k.value s = k.value s') : s = s' := by
  obtain ⟨⟨_, _⟩, ⟨_, _⟩, ⟨_, _, _, _, _⟩⟩ := s
  obtain ⟨⟨_, _⟩, ⟨_, _⟩, ⟨_, _, _, _, _⟩⟩ := s'
  cases h connection
  cases h poolSize
  cases h host
  cases h port
  cases h schema
  cases h timeColumn
  cases h groupInterval
  cases h timeFormat
  cases h valuesLimit
  rfl

theorem exists_settings (values : (k : Key) → k.Value) :
    ∃ s : Settings, ∀ k : Key, k.value s = values k :=
  ⟨⟨⟨values connection, values poolSize⟩, ⟨values host, values port⟩,
    ⟨values schema, values timeColumn, values groupInterval, values timeFormat,
      values valuesLimit⟩⟩, fun k => by cases k <;> rfl⟩

end Key

/-- A tree in which every section is a table. -/
def Sectioned (tree : Setting) : Prop :=
  tree.IsTable ∧ ∀ k : Key, ∃ s, tree.field? k.part = some s ∧ s.IsTable

section Sections

variable {fields : List (String × Setting)}

theorem database?_table_eq_some_iff {d : DatabaseSettings} : database? (.table fields) = some d ↔
    ((Setting.table fields).field? "connection_string").bind Setting.text? = some d.connection ∧
    ((Setting.table fields).field? "pool_size").bind Setting.count? = some d.poolSize := by
  simp only [database?, Setting.part?_table, Option.bind_eq_bind, ← Option.bind_assoc]
  constructor
  · intro hread
    obtain ⟨_, hconnection, hread⟩ := Option.bind_eq_some_iff.mp hread
    obtain ⟨_, hpoolSize, hread⟩ := Option.bind_eq_some_iff.mp hread
    cases hread
    exact ⟨hconnection, hpoolSize⟩
  · rintro ⟨hconnection, hpoolSize⟩
    rw [hconnection, hpoolSize]
    rfl

theorem web?_table_eq_some_iff {w : WebSettings} : web? (.table fields) = some w ↔
    ((Setting.table fields).field? "host").bind Setting.text? = some w.host ∧
    ((Setting.table fields).field? "port").bind (Setting.countBelow? 65536) = some w.port := by
  simp only [web?, Setting.part?_table, Option.bind_eq_bind, ← Option.bind_assoc]
  constructor
  · intro hread
    obtain ⟨_, hhost, hread⟩ := Option.bind_eq_some_iff.mp hread
    obtain ⟨_, hport, hread⟩ := Option.bind_eq_some_iff.mp hread
    cases hread
    exact ⟨hhost, hport⟩
  · rintro ⟨hhost, hport⟩
    rw [hhost, hport]
    rfl

theorem datasource?_table_eq_some_iff {d : Defaults} : datasource? (.table fields) = some d ↔
    Setting.orNull Setting.text? ((Setting.table fields).field? "schema") = some d.schema ∧
    ((Setting.table fields).field? "time_column").bind Setting.text? = some d.timeColumn ∧
    Setting.orNull Setting.text? ((Setting.table fields).field? "group_interval") =
      some d.groupInterval ∧
    Setting.orNull (Setting.word? TimeFormat.ofWord?)
      ((Setting.table fields).field? "time_format") = some d.timeFormat ∧
    ((Setting.table fields).field? "values_limit").bind Setting.count? = some d.valuesLimit := by
  simp only [datasource?, Setting.part?_table, Setting.optionalPart?_table, Option.bind_eq_bind,
    ← Option.bind_assoc]
  constructor
  · intro hread
    obtain ⟨_, hschema, hread⟩ := Option.bind_eq_some_iff.mp hread
    obtain ⟨_, htimeColumn, hread⟩ := Option.bind_eq_some_iff.mp hread
    obtain ⟨_, hgroupInterval, hread⟩ := Option.bind_eq_some_iff.mp hread
    obtain ⟨_, htimeFormat, hread⟩ := Option.bind_eq_some_iff.mp hread
    obtain ⟨_, hvaluesLimit, hread⟩ := Option.bind_eq_some_iff.mp hread
    cases hread
    exact ⟨hschema, htimeColumn, hgroupInterval, htimeFormat, hvaluesLimit⟩
  · rintro ⟨hschema, htimeColumn, hgroupInterval, htimeFormat, hvaluesLimit⟩
    rw [hschema, htimeColumn, hgroupInterval, htimeFormat, hvaluesLimit]
    rfl

end Sections

theorem ofTree?_table_eq_some_iff {top database web datasource : List (String × Setting)}
    (hdatabase : (Setting.table top).field? "database" = some (.table database))
    (hweb : (Setting.table top).field? "web" = some (.table web))
    (hdatasource : (Setting.table top).field? "datasource" = some (.table datasource))
    {s : Settings} : ofTree? (.table top) = some s ↔
      database? (.table database) = some s.database ∧ web? (.table web) = some s.web ∧
        datasource? (.table datasource) = some s.datasource := by
  simp only [ofTree?, Setting.part?_table, hdatabase, hweb, hdatasource, Option.bind_eq_bind,
    Option.bind_some]
  constructor
  · intro hread
    obtain ⟨_, hd, hread⟩ := Option.bind_eq_some_iff.mp hread
    obtain ⟨_, hw, hread⟩ := Option.bind_eq_some_iff.mp hread
    obtain ⟨_, hs, hread⟩ := Option.bind_eq_some_iff.mp hread
    cases hread
    exact ⟨hd, hw, hs⟩
  · rintro ⟨hd, hw, hs⟩
    rw [hd, hw, hs]
    rfl

theorem ofTree?_eq_some_iff {tree : Setting} (h : Sectioned tree) {s : Settings} :
    ofTree? tree = some s ↔ ∀ k : Key, k.read (tree.at? k.part k.name) = some (k.value s) := by
  obtain ⟨⟨top, rfl⟩, hsections⟩ := h
  obtain ⟨_, hdatabase, database, rfl⟩ := hsections .connection
  obtain ⟨_, hweb, web, rfl⟩ := hsections .host
  obtain ⟨_, hdatasource, datasource, rfl⟩ := hsections .schema
  rw [ofTree?_table_eq_some_iff hdatabase hweb hdatasource, database?_table_eq_some_iff,
    web?_table_eq_some_iff, datasource?_table_eq_some_iff]
  have hd := Setting.at?_of_field? hdatabase
  have hw := Setting.at?_of_field? hweb
  have hs := Setting.at?_of_field? hdatasource
  simp only [← hd, ← hw, ← hs]
  constructor
  · rintro ⟨⟨_, _⟩, ⟨_, _⟩, _, _, _, _, _⟩ k
    cases k <;> assumption
  · intro hread
    exact ⟨⟨hread .connection, hread .poolSize⟩, ⟨hread .host, hread .port⟩, hread .schema,
      hread .timeColumn, hread .groupInterval, hread .timeFormat, hread .valuesLimit⟩

/-- A tree cannot be read exactly when one of its values cannot. -/
theorem ofTree?_eq_none_iff {tree : Setting} (h : Sectioned tree) :
    ofTree? tree = none ↔ ∃ k : Key, k.read (tree.at? k.part k.name) = none := by
  constructor
  · intro hnone
    by_contra hall
    have hsome : ∀ k : Key, ∃ v, k.read (tree.at? k.part k.name) = some v := fun k =>
      Option.ne_none_iff_exists'.mp fun hk => hall ⟨k, hk⟩
    choose values hvalues using hsome
    obtain ⟨s, hs⟩ := Key.exists_settings values
    rw [(ofTree?_eq_some_iff h).mpr fun k => by rw [hvalues, hs]] at hnone
    cases hnone
  · rintro ⟨k, hk⟩
    refine Option.eq_none_iff_forall_ne_some.mpr fun s hs => ?_
    rw [(ofTree?_eq_some_iff h).mp hs k] at hk
    cases hk

end Settings
end PanelSource
