import PanelSource.Journal.Event
import PanelSource.Json.Basic
import PanelSource.Text.Basic

/-! # Which events are written, and how

A filter is a list of directives. A directive without a target holds for every event, one with a
target for the targets that begin with it; of the directives that hold for an event the one with
the longest target decides, and an event for which none holds is not written. -/
namespace PanelSource

/-- An event as it is written. -/
structure LogRecord where
  level : Level
  target : String
  message : String
  deriving DecidableEq, Repr

def Event.record (elapsed : String) (e : Event) : LogRecord :=
  ⟨e.level, e.target, e.message elapsed⟩

structure Directive where
  target : Option String
  threshold : Nat
  deriving DecidableEq, Repr

namespace Directive

/-- A threshold is a level by its name in any case, its number, or none at all. -/
def threshold? (s : String) : Option Nat :=
  ((Text.unsigned? s.toList).filter (· ≤ 5)).or
    (match Text.lowerAscii s with
      | "off" => some 0
      | "error" => some Level.error.rank
      | "warn" => some Level.warn.rank
      | "info" => some Level.info.rank
      | "debug" => some Level.debug.rank
      | "trace" => some Level.trace.rank
      | _ => none)

def begins (c : Char) : Bool :=
  c.isAlphanum || c == '-' || c == ':' || c == '_' || 128 ≤ c.toNat

/-- A threshold for all targets, a target alone, or a target with its threshold. A target without
threshold lets everything through. Blanks may stand before a word, of which they are a part then. -/
def ofPart? (part : List Char) : Option Directive :=
  match Text.dropBlanks part with
  | [] => none
  | c :: rest =>
    if !begins c || part.contains '[' then none
    else match Text.cutAt '=' part with
      | (word, none) =>
        match threshold? (String.ofList word) with
        | some n => some ⟨none, n⟩
        | none => some ⟨some (String.ofList word), Level.trace.rank⟩
      | (target, some level) =>
        if part ≠ c :: rest then none
        else if level = [] then some ⟨some (String.ofList target), Level.trace.rank⟩
        else (threshold? (String.ofList level)).map fun n => ⟨some (String.ofList target), n⟩

def holdsFor (d : Directive) (target : String) : Bool :=
  match d.target with
  | none => true
  | some t => t.toList.isPrefixOf target.toList

/-- Longer targets weigh more, and any target more than none. -/
def weight (d : Directive) : Nat :=
  match d.target with
  | none => 0
  | some t => t.length + 1

end Directive

abbrev LogFilter := List Directive

namespace LogFilter

def parse? (s : String) : Option LogFilter :=
  ((Text.splitOnChar ',' s.toList).filter (· ≠ [])).mapM Directive.ofPart?

def initial : LogFilter := [⟨none, Level.info.rank⟩]

/-- What a variable of the environment asks for; a text that cannot be read counts as none. -/
def ofVariable (value : Option String) : LogFilter := (value.bind parse?).getD initial

/-- Of equal weights the later directive decides. -/
def heavier (best : Option Directive) (d : Directive) : Option Directive :=
  match best with
  | none => some d
  | some b => if b.weight ≤ d.weight then some d else some b

def deciding? (f : LogFilter) (target : String) : Option Directive :=
  (f.filter fun d => d.holdsFor target).foldl heavier none

def passes (f : LogFilter) (r : LogRecord) : Bool :=
  match deciding? f r.target with
  | none => false
  | some d => r.level.rank ≤ d.threshold

end LogFilter

inductive LogFormat
  | plain
  | json
  deriving DecidableEq, Repr

namespace LogFormat

def ofVariable (value : Option String) : LogFormat := if value = some "json" then json else plain

/-- A line without its time. -/
def render (format : LogFormat) (r : LogRecord) : String :=
  match format with
  | plain => r.level.name ++ " " ++ r.target ++ ": " ++ r.message
  | json => (Json.ofFields [("level", .text r.level.name), ("target", .text r.target),
      ("fields", Json.ofFields [("message", .text r.message)])]).render

end LogFormat
end PanelSource
