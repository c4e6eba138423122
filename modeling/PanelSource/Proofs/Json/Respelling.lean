import Mathlib.Logic.Relation
import PanelSource.Json.Scanner
import PanelSource.Proofs.Json.RecordReading

/-! # Spellings of one record

The entries of an object may change their order and their names among those of one field; entries
that nobody reads may be added, those that say what an absent field says may be left out, and an
array may list the fields instead. Each such step leaves the record as it was read. -/
namespace PanelSource

/-- Whatever is read before a step is read behind it. -/
def Reader.Keeps {α : Type} (read : Reader α) (step : Outline → Outline → Prop) : Prop :=
  ∀ x y a, step x y → read x = .ok a → read y = .ok a

/-- A step inside one item of an array. -/
inductive Outline.InItem (step : Outline → Outline → Prop) : Outline → Outline → Prop
  | at {depth : Nat} (front : List Outline) {back : List Outline} {x y : Outline} (h : step x y) :
      InItem step (.array depth (front ++ x :: back)) (.array depth (front ++ y :: back))

/-- A text is read by its outline, and nothing may follow it. -/
theorem Outline.readText_eq_ok_iff {α : Type} {read : Reader α} {text : String} {a : α} :
    readText read text = .ok a ↔ read (Json.scan text).1 = .ok a ∧ (Json.scan text).2 = false := by
  rw [readText, Outcome.bind_eq_ok_iff]
  cases (Json.scan text).2 <;> simp [pure, Except.pure]

namespace Reader
variable {α : Type} {read : Reader α} {step : Outline → Outline → Prop}

theorem Keeps.reflTransGen (h : Keeps read step) : Keeps read (Relation.ReflTransGen step) := by
  intro x y a hsteps hx
  induction hsteps with
  | refl => exact hx
  | tail _ hstep ih => exact h _ _ a hstep ih

theorem Keeps.items (h : Keeps read step) {front back : List Outline} {x y : Outline} {as : List α}
    (hstep : step x y) (has : items read (front ++ x :: back) = .ok as) :
    items read (front ++ y :: back) = .ok as := by
  induction front generalizing as with
  | nil =>
    obtain ⟨a, hx, hback⟩ := Outcome.bind_eq_ok_iff.mp has
    exact Outcome.bind_eq_ok_iff.mpr ⟨a, h x y a hstep hx, hback⟩
  | cons o front ih =>
    obtain ⟨a, ho, hfront⟩ := Outcome.bind_eq_ok_iff.mp has
    obtain ⟨rest, hrest, hall⟩ := Outcome.bind_eq_ok_iff.mp hfront
    exact Outcome.bind_eq_ok_iff.mpr ⟨a, ho, Outcome.bind_eq_ok_iff.mpr ⟨rest, ih hrest, hall⟩⟩

theorem Keeps.list (h : Keeps read step) : Keeps (list read) (Outline.InItem step) := by
  rintro _ _ as ⟨_, hstep⟩ has
  rw [Reader.list] at has ⊢
  split at has
  · cases has
  · rename_i hdepth
    rw [if_neg hdepth]
    exact h.items hstep has

end Reader

namespace RecordShape

section
variable {F : Type} {V : F → Type} {R : Type} (s : RecordShape F V R)

/-- An array that lists what an object holds: each value as the object gives it, or a value of an
absent field. At the end, fields that hold what an omitted one says may be left out. -/
inductive Lists (entries : List (Option String × Outline)) : List F → List Outline → Prop
  | nil : Lists entries [] []
  | given {f : F} {fs : List F} {x : Outline} {xs : List Outline} :
      s.Gives entries f x → Lists entries fs xs → Lists entries (f :: fs) (x :: xs)
  | absent {f : F} {fs : List F} {v : V f} {x : Outline} {xs : List Outline} :
      (∀ y, ¬ s.Gives entries f y) → s.absent? f = some v → s.read f x = .ok v →
        Lists entries fs xs → Lists entries (f :: fs) (x :: xs)
  | omitted {f : F} {fs : List F} {v : V f} :
      s.Holds entries f v → s.omitted? f = some v → Lists entries fs [] → Lists entries (f :: fs) []

/-- One step to another spelling of a record; `inner` says which steps there are inside the values
of the fields. -/
inductive Respelled (inner : F → Outline → Outline → Prop) : Outline → Outline → Prop
  | permuted {depth : Nat} {entries entries' : List (Option String × Outline)} :
      entries.Perm entries' → Respelled inner (.object depth entries) (.object depth entries')
  | added {depth : Nat} {entries : List (Option String × Outline)} {name : String} {x : Outline} :
      s.named? name = none → x.sound = true →
        Respelled inner (.object depth entries) (.object depth ((some name, x) :: entries))
  | renamed {depth : Nat} {entries : List (Option String × Outline)} {name name' : String} {f : F}
      {x : Outline} : s.named? name = some f → s.named? name' = some f →
        Respelled inner (.object depth ((some name, x) :: entries))
          (.object depth ((some name', x) :: entries))
  | dropped {depth : Nat} {entries : List (Option String × Outline)} {name : String} {f : F}
      {v : V f} {x : Outline} : s.named? name = some f → s.absent? f = some v → s.read f x = .ok v →
        Respelled inner (.object depth ((some name, x) :: entries)) (.object depth entries)
  | arrayed {depth : Nat} {entries : List (Option String × Outline)} {xs : List Outline} :
      s.Lists entries s.fields xs → Respelled inner (.object depth entries) (.array depth xs)
  | entry {depth : Nat} {entries : List (Option String × Outline)} {name : String} {f : F}
      {x y : Outline} : s.named? name = some f → inner f x y →
        Respelled inner (.object depth ((some name, x) :: entries))
          (.object depth ((some name, y) :: entries))
  | place {depth : Nat} (front : List Outline) {back : List Outline} {f : F} {x y : Outline} :
      s.fields[front.length]? = some f → inner f x y →
        Respelled inner (.array depth (front ++ x :: back)) (.array depth (front ++ y :: back))

end

section
variable {F : Type} {V : F → Type} {R : Type} {s : RecordShape F V R}
  {value : (f : F) → V f}

/-- An array that lists what an object holds is read as the object is. -/
theorem Lists.listed {entries : List (Option String × Outline)} (hlegible : s.Legible entries)
    (hholds : ∀ f, s.Holds entries f (value f)) {fs : List F} {xs : List Outline}
    (h : s.Lists entries fs xs) : s.Listed value fs xs := by
  induction h with
  | nil => trivial
  | given hgives _ ih => exact ⟨hlegible.read_of_gives (hholds _) hgives, ih⟩
  | absent hlacks habsent hread _ ih =>
    have hvalue := Option.some.inj (habsent.symm.trans ((hholds _).absent hlacks))
    exact ⟨hvalue ▸ hread, ih⟩
  | omitted hheld homitted _ ih => exact ⟨hlegible.holds_unique hheld (hholds _) ▸ homitted, ih⟩

theorem Listed.place {fs : List F} {front back : List Outline} {f : F} {x y : Outline}
    (hf : fs[front.length]? = some f) (hread : ∀ v, s.read f x = .ok v → s.read f y = .ok v)
    (h : s.Listed value fs (front ++ x :: back)) : s.Listed value fs (front ++ y :: back) := by
  induction front generalizing fs with
  | nil =>
    cases fs with
    | nil => cases hf
    | cons g fs =>
      cases hf
      exact ⟨hread _ h.1, h.2⟩
  | cons o front ih =>
    cases fs with
    | nil => cases hf
    | cons g fs => exact ⟨h.1, ih hf h.2⟩

end

/-- Every step leaves the record as it was read, when the steps inside its fields do. -/
theorem Form.keeps_respelled {F : Type} [DecidableEq F] {V : F → Type} {R : Type}
    {s : RecordShape F V R} (w : s.Form) {inner : F → Outline → Outline → Prop}
    (hinner : ∀ f, Reader.Keeps (s.read f) (inner f)) :
    Reader.Keeps s.reader (s.Respelled inner) := by
  intro _ _ r hstep h
  cases hstep with
  | permuted hperm =>
    obtain ⟨hdepth, hlegible, hholds⟩ := w.reader_object_eq_ok_iff.mp h
    exact w.reader_object_eq_ok_iff.mpr
      ⟨hdepth, hlegible.perm hperm, fun f => (holds_perm hperm).mp (hholds f)⟩
  | added hname hsound =>
    obtain ⟨hdepth, hlegible, hholds⟩ := w.reader_object_eq_ok_iff.mp h
    refine w.reader_object_eq_ok_iff.mpr ⟨hdepth, legible_cons_iff.mpr ?_, fun f => ?_⟩
    · exact ⟨fun _ => hsound, by simp [hname], hlegible⟩
    · exact (holds_cons_of_ne (by simp [hname])).mpr (hholds f)
  | renamed hname hname' =>
    exact (w.reader_entry_eq_ok_iff hname').mpr ((w.reader_entry_eq_ok_iff hname).mp h)
  | @dropped _ _ _ f _ _ hname habsent hread =>
    obtain ⟨hdepth, hlegible, hlacks, hx, hothers⟩ := (w.reader_entry_eq_ok_iff hname).mp h
    refine w.reader_object_eq_ok_iff.mpr ⟨hdepth, hlegible, fun g => ?_⟩
    by_cases hg : g = f
    · subst hg
      have hvalue := Except.ok.inj (hread.symm.trans hx)
      exact .inr ⟨hlacks, hvalue ▸ habsent⟩
    · exact hothers g hg
  | arrayed hlists =>
    obtain ⟨hdepth, hlegible, hholds⟩ := w.reader_object_eq_ok_iff.mp h
    exact w.reader_array_eq_ok_iff.mpr ⟨hdepth, hlists.listed hlegible hholds⟩
  | entry hname hxy =>
    obtain ⟨hdepth, hlegible, hlacks, hx, hothers⟩ := (w.reader_entry_eq_ok_iff hname).mp h
    exact (w.reader_entry_eq_ok_iff hname).mpr
      ⟨hdepth, hlegible, hlacks, hinner _ _ _ _ hxy hx, hothers⟩
  | place _ hf hxy =>
    obtain ⟨hdepth, hlisted⟩ := w.reader_array_eq_ok_iff.mp h
    exact w.reader_array_eq_ok_iff.mpr
      ⟨hdepth, hlisted.place hf fun v hv => hinner _ _ _ v hxy hv⟩

end RecordShape
end PanelSource
