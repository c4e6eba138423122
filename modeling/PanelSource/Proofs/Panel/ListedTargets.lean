import PanelSource.Panel.Request
import PanelSource.Proofs.Json.Depths
import PanelSource.Proofs.Json.RecordReading

/-! # Targets listed in a request

A target is read in the list of a request as it is read where it stands alone. -/
namespace PanelSource
open Reader

theorem Metric.ignoresDepth : IgnoresDepth shape.reader := by
  refine RecordShape.ignoresDepth fun f => ?_
  cases f with
  | kind => exact ignoresDepth_text.map Aggregation.ofName
  | column => exact ignoresDepth_text

/-- What is no number and no text is no operand, at whatever depth. -/
theorem Operand.ignoresDepth : IgnoresDepth reader := by
  intro x a h
  cases x with
  | array depth items =>
    obtain ⟨v, hv, hoperand⟩ := Outcome.bind_eq_ok_iff.mp h
    rw [Outline.toJson] at hv
    split at hv
    · cases hv
    · obtain ⟨vs, -, rfl⟩ := Outcome.map_eq_ok_iff.mp hv
      cases hoperand
  | object depth fields =>
    obtain ⟨v, hv, hoperand⟩ := Outcome.bind_eq_ok_iff.mp h
    rw [Outline.toJson] at hv
    split at hv
    · cases hv
    · obtain ⟨vs, -, rfl⟩ := Outcome.map_eq_ok_iff.mp hv
      cases hoperand
  | _ => exact h

theorem Clause.ignoresDepth : IgnoresDepth shape.reader := by
  refine RecordShape.ignoresDepth fun f => ?_
  cases f with
  | right => exact Operand.ignoresDepth
  | _ => exact ignoresDepth_text

theorem Description.ignoresDepth : IgnoresDepth shape.reader := by
  refine RecordShape.ignoresDepth fun f => ?_
  cases f with
  | mode => exact ignoresDepth_choice _
  | table => exact ignoresDepth_text
  | selectColumns => exact ignoresDepth_text.list
  | groupBy => exact ignoresDepth_text.list
  | metrics => exact Metric.ignoresDepth.list
  | clauses => exact Clause.ignoresDepth.list
  | order => exact (ignoresDepth_choice _).optional
  | timeFormat => exact (ignoresDepth_choice _).optional
  | timeFrom => exact (ignoresDepth_intWhere _).optional
  | timeTo => exact (ignoresDepth_intWhere _).optional
  | hide => exact ignoresDepth_bool
  | _ => exact ignoresDepth_text.optional

/-- The outline of a request, by names or by places, with a list of targets. -/
inductive Outline.ListsTargets (items : List Outline) : Outline → Prop
  | named {depth depth' : Nat} {fields : List (Option String × Outline)}
      (h : (some "targets", .array depth' items) ∈ fields) :
      ListsTargets items (.object depth fields)
  | placed {depth depth' : Nat} {rest : List Outline} :
      ListsTargets items (.array depth (.array depth' items :: rest))

namespace Request

def form : shape.Form where
  name
    | .targets => "targets"
    | .range => "range"
  write
    | .targets => fun ds => .array (ds.map Description.toJson)
    | .range => Json.ofOption TimeRange.toJson
  value request
    | .targets => request.targets
    | .range => request.range
  named f := by cases f <;> rfl
  nodup_fields := by decide
  mem_fields f := by cases f <;> decide
  build?_eq_some_iff values request := by
    constructor
    · intro h f
      iterate 2 obtain ⟨_, _, h⟩ := Option.bind_eq_some_iff.mp h
      cases h
      cases f <;> assumption
    · intro h
      rw [funext h]
      rfl

variable {request : Request} {o : Outline} {items : List Outline}

theorem items_of_listsTargets (hread : shape.reader o = .ok request) (h : o.ListsTargets items) :
    Reader.items Description.shape.reader items = .ok request.targets := by
  have hlist {depth : Nat} (h : shape.read .targets (.array depth items) = .ok request.targets) :
      Reader.items Description.shape.reader items = .ok request.targets := by
    change Reader.list Description.shape.reader (.array depth items) = _ at h
    rw [Reader.list] at h
    split at h
    · cases h
    · exact h
  cases h with
  | named h =>
    obtain ⟨-, hlegible, hholds⟩ := form.reader_object_eq_ok_iff.mp hread
    exact hlist (hlegible.read_of_gives (hholds .targets) ⟨"targets", rfl, h⟩)
  | placed =>
    obtain ⟨-, hfirst, -⟩ := form.reader_array_eq_ok_iff.mp hread
    exact hlist hfirst

end Request

theorem Reader.exists_of_items {α : Type} {read : Reader α} {xs : List Outline} {as : List α}
    (h : items read xs = .ok as) {n : Nat} {x : Outline} (hx : xs[n]? = some x) :
    ∃ a, as[n]? = some a ∧ read x = .ok a := by
  induction xs generalizing as n with
  | nil => cases hx
  | cons y xs ih =>
    obtain ⟨b, hb, hrest⟩ := Outcome.bind_eq_ok_iff.mp h
    obtain ⟨bs, hbs, hall⟩ := Outcome.bind_eq_ok_iff.mp hrest
    cases hall
    cases n with
    | zero =>
      cases hx
      exact ⟨b, rfl, hb⟩
    | succ n => exact ih hbs hx

/-- Where a request lists the target that stands alone in another outline, it is the same target. -/
theorem Request.target_of_listed {request : Request} {d : Description} {o alone x : Outline}
    {items : List Outline} {n : Nat} (hread : shape.reader o = .ok request)
    (hlists : o.ListsTargets items) (hx : items[n]? = some x)
    (halone : Description.shape.reader alone = .ok d) (hsame : x.flat = alone.flat) :
    request.targets[n]? = some d := by
  obtain ⟨d', hd', hread'⟩ := Reader.exists_of_items (items_of_listsTargets hread hlists) hx
  rw [hd', Description.ignoresDepth.eq hread' halone hsame]

end PanelSource
