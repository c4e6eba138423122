import Mathlib.Data.List.Basic

/-! # Work that may fail, and work in stages

At each stage there is at most one fault to report, and the first stage with a fault decides how the
work fails. -/
namespace PanelSource.Outcome

variable {ε α β : Type}

theorem bind_eq_ok_iff {x : Except ε α} {f : α → Except ε β} {b : β} :
    (x >>= f) = .ok b ↔ ∃ a, x = .ok a ∧ f a = .ok b := by
  cases x <;> simp [bind, Except.bind]

theorem map_eq_ok_iff {x : Except ε α} {f : α → β} {b : β} :
    x.map f = .ok b ↔ ∃ a, x = .ok a ∧ f a = b := by
  cases x <;> simp [Except.map]

theorem bind_eq_error_iff {x : Except ε α} {f : α → Except ε β} {e : ε} :
    (x >>= f) = .error e ↔ x = .error e ∨ ∃ a, x = .ok a ∧ f a = .error e := by
  cases x <;> simp [bind, Except.bind]

end PanelSource.Outcome

namespace PanelSource

/-- The first of some faults that is there at all. -/
inductive FirstOf {ε : Type} : List (ε → Prop) → ε → Prop
  | here {fault : ε → Prop} {later : List (ε → Prop)} {e : ε} (h : fault e) :
      FirstOf (fault :: later) e
  | later {fault : ε → Prop} {later : List (ε → Prop)} {e : ε} (hnone : ∀ e', ¬fault e')
      (h : FirstOf later e) : FirstOf (fault :: later) e

/-- Work fails exactly as the first of these faults says. -/
def FailsAs {ε α : Type} (x : Except ε α) (faults : List (ε → Prop)) : Prop :=
  ∀ e, x = .error e ↔ FirstOf faults e

section Stages
variable {ε α β : Type} {x : Except ε α} {f : α → Except ε β} {fault : ε → Prop}
  {faults later : List (ε → Prop)}

theorem firstOf_cons_iff {e : ε} :
    FirstOf (fault :: faults) e ↔ fault e ∨ (∀ e', ¬fault e') ∧ FirstOf faults e := by
  constructor
  · rintro (h | ⟨hnone, h⟩)
    · exact .inl h
    · exact .inr ⟨hnone, h⟩
  · rintro (h | ⟨hnone, h⟩)
    · exact .here h
    · exact .later hnone h

theorem firstOf_append_iff {e : ε} : FirstOf (faults ++ later) e ↔
    FirstOf faults e ∨ (∀ e', ¬FirstOf faults e') ∧ FirstOf later e := by
  induction faults with
  | nil =>
    have hnone (e : ε) : ¬FirstOf [] e := nofun
    simp [hnone]
  | cons fault faults ih =>
    simp only [List.cons_append, firstOf_cons_iff, ih]
    by_cases hsome : ∃ e', fault e'
    · have hnot : ¬∀ e', ¬fault e' := not_forall_not.mpr hsome
      simp only [hnot, false_and, or_false]
    · have hnot : ∀ e', ¬fault e' := not_exists.mp hsome
      simp [hnot]

theorem exists_firstOf_iff : (∃ e, FirstOf faults e) ↔ ∃ fault ∈ faults, ∃ e, fault e := by
  induction faults with
  | nil => simp [show ∀ e : ε, ¬FirstOf [] e from nofun]
  | cons fault faults ih =>
    simp only [firstOf_cons_iff, exists_or, exists_and_left, ih, List.exists_mem_cons_iff]
    by_cases hsome : ∃ e', fault e'
    · simp [hsome]
    · simp [not_exists.mp hsome]

theorem failsAs_ok (a : α) : FailsAs (.ok a : Except ε α) [] := by
  intro e
  constructor <;> nofun

theorem failsAs_of_iff (h : ∀ e, x = .error e ↔ fault e) : FailsAs x [fault] := by
  intro e
  rw [h, firstOf_cons_iff]
  simp [show ¬FirstOf [] e from nofun]

theorem failsAs_error {e : ε} (h : ∀ e', fault e' ↔ e' = e) :
    FailsAs (.error e : Except ε α) (fault :: later) := by
  have hnot : ¬∀ e', ¬fault e' := not_forall_not.mpr ⟨e, (h e).mpr rfl⟩
  intro e'
  rw [firstOf_cons_iff, h]
  simp [hnot, eq_comm]

theorem FailsAs.cons (hnone : ∀ e, ¬fault e) (hx : FailsAs x later) :
    FailsAs x (fault :: later) := by
  intro e
  rw [hx e, firstOf_cons_iff]
  simp [hnone]

/-- What follows is looked at only where nothing has failed before. -/
theorem FailsAs.bind (hx : FailsAs x faults) (hf : ∀ a, x = .ok a → FailsAs (f a) later) :
    FailsAs (x >>= f) (faults ++ later) := by
  intro e
  rw [firstOf_append_iff, Outcome.bind_eq_error_iff, hx e]
  cases x with
  | error e' =>
    have hfirst := (hx e').mp rfl
    have hnot : ¬∀ e', ¬FirstOf faults e' := not_forall_not.mpr ⟨e', hfirst⟩
    simp [hnot]
  | ok a =>
    have hnone (e' : ε) : ¬FirstOf faults e' := fun h => nomatch (hx e').mpr h
    simp [hnone, hf a rfl e]

/-- Work succeeds where there is no fault at all. -/
theorem FailsAs.exists_ok_iff (hx : FailsAs x faults) :
    (∃ a, x = .ok a) ↔ ∀ fault ∈ faults, ∀ e, ¬fault e := by
  have hclear : (∃ a, x = .ok a) ↔ ¬∃ e, FirstOf faults e := by
    simp only [← hx _]
    cases x <;> simp
  rw [hclear, exists_firstOf_iff]
  simp only [not_exists, not_and]

end Stages

end PanelSource
