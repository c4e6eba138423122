import PanelSource.Proofs.Json.Rereading

/-! # Values at other depths

The same text may stand in a body of its own or inside a larger one, where its containers lie
deeper. What is read of it is the same at both places. -/
namespace PanelSource

namespace Outline

mutual

/-- The outline without its depths. -/
def flat : Outline → Outline
  | .array _ items => .array 0 (flatItems items)
  | .object _ fields => .object 0 (flatFields fields)
  | leaf => leaf

def flatItems : List Outline → List Outline
  | [] => []
  | x :: rest => x.flat :: flatItems rest

def flatFields : List (Option String × Outline) → List (Option String × Outline)
  | [] => []
  | (name, x) :: rest => (name, x.flat) :: flatFields rest

end

mutual

theorem sound_flat : ∀ x : Outline, x.flat.sound = x.sound
  | .array _ items => by rw [flat, sound, sound, soundItems_flat items]
  | .object _ fields => by rw [flat, sound, sound, soundFields_flat fields]
  | .null | .bool _ | .number _ | .text _ | .broken => rfl

theorem soundItems_flat : ∀ items : List Outline, soundItems (flatItems items) = soundItems items
  | [] => rfl
  | x :: rest => by rw [flatItems, soundItems, soundItems, sound_flat x, soundItems_flat rest]

theorem soundFields_flat : ∀ fields : List (Option String × Outline),
    soundFields (flatFields fields) = soundFields fields
  | [] => rfl
  | (_, x) :: rest => by
    rw [flatFields, soundFields, soundFields, sound_flat x, soundFields_flat rest]

end

theorem flat_eq_null_iff {x : Outline} : x.flat = .null ↔ x = .null := by
  cases x <;> simp [flat]

end Outline

/-- Whatever is read is read without the depths too. -/
def Reader.IgnoresDepth {α : Type} (read : Reader α) : Prop :=
  ∀ x a, read x = .ok a → read x.flat = .ok a

namespace Reader
variable {α : Type} {read : Reader α}

theorem IgnoresDepth.eq (h : IgnoresDepth read) {x y : Outline} {a b : α} (hx : read x = .ok a)
    (hy : read y = .ok b) (hxy : x.flat = y.flat) : a = b := by
  have hflat := h x a hx
  rw [hxy, h y b hy] at hflat
  exact (Except.ok.inj hflat).symm

theorem ignoresDepth_text : IgnoresDepth text := by
  intro x a h
  cases x <;> exact h

theorem ignoresDepth_bool : IgnoresDepth bool := by
  intro x a h
  cases x <;> exact h

theorem ignoresDepth_intWhere (p : Int → Bool) : IgnoresDepth (intWhere p) := by
  intro x a h
  cases x <;> exact h

theorem ignoresDepth_choice (word? : String → Option α) : IgnoresDepth (choice word?) := by
  intro x a h
  unfold choice at h
  split at h
  · exact h
  · rename_i depth name value rest
    split at h
    · cases h
    · split at h
      · cases h
      · rename_i hword
        cases h
        simp [Outline.flat, Outline.flatFields, choice, hword]
      · cases h
      · cases h
  · cases h

theorem IgnoresDepth.map {β : Type} (h : IgnoresDepth read) (g : α → β) :
    IgnoresDepth fun x => (read x).map g := by
  intro x b hb
  obtain ⟨a, ha, rfl⟩ := Outcome.map_eq_ok_iff.mp hb
  exact Outcome.map_eq_ok_iff.mpr ⟨a, h x a ha, rfl⟩

theorem IgnoresDepth.optional (h : IgnoresDepth read) : IgnoresDepth (optional read) := by
  intro x a ha
  by_cases hnull : x = .null
  · rwa [hnull] at ha ⊢
  · rw [optional_of_ne_null hnull] at ha
    rw [optional_of_ne_null (mt Outline.flat_eq_null_iff.mp hnull)]
    exact h.map some x a ha

theorem IgnoresDepth.items (h : IgnoresDepth read) {xs : List Outline} {as : List α}
    (has : items read xs = .ok as) : items read (Outline.flatItems xs) = .ok as := by
  induction xs generalizing as with
  | nil => exact has
  | cons x xs ih =>
    obtain ⟨a, ha, hrest⟩ := Outcome.bind_eq_ok_iff.mp has
    obtain ⟨rest, hrest, hall⟩ := Outcome.bind_eq_ok_iff.mp hrest
    exact Outcome.bind_eq_ok_iff.mpr
      ⟨a, h x a ha, Outcome.bind_eq_ok_iff.mpr ⟨rest, ih hrest, hall⟩⟩

theorem IgnoresDepth.list (h : IgnoresDepth read) : IgnoresDepth (list read) := by
  intro x as has
  cases x with
  | array depth xs =>
    rw [Reader.list] at has
    split at has
    · cases has
    · exact h.items has
  | _ => cases has

end Reader

namespace RecordShape
variable {F : Type} [DecidableEq F] {V : F → Type} {R : Type} {s : RecordShape F V R}
  {bound bound' : List (Binding F V)}

theorem readNamed_flat (h : ∀ f, (s.read f).IgnoresDepth)
    {entries : List (Option String × Outline)} (hread : s.readNamed bound entries = .ok bound') :
    s.readNamed bound (Outline.flatFields entries) = .ok bound' := by
  induction entries generalizing bound with
  | nil => exact hread
  | cons entry entries ih =>
    obtain ⟨_ | name, x⟩ := entry
    · cases hread
    rw [readNamed] at hread
    rw [Outline.flatFields, readNamed, Outline.sound_flat]
    split at hread
    · rename_i hname
      split at hread
      · rename_i hsound
        simpa [hsound] using ih hread
      · cases hread
    · rename_i f hname
      split at hread
      · cases hread
      rename_i hfree
      split at hread
      · cases hread
      rename_i v hv
      simpa [hname, hfree, h f x v hv] using ih hread

omit [DecidableEq F] in
theorem readPlaced_flat (h : ∀ f, (s.read f).IgnoresDepth) {fs : List F} {xs : List Outline}
    (hread : s.readPlaced fs xs = .ok bound) :
    s.readPlaced fs (Outline.flatItems xs) = .ok bound := by
  induction fs generalizing xs bound with
  | nil =>
    cases xs with
    | nil => exact hread
    | cons x xs => cases hread
  | cons f fs ih =>
    cases xs with
    | nil => exact hread
    | cons x xs =>
      rw [readPlaced] at hread
      split at hread
      · cases hread
      rename_i v hv
      obtain ⟨rest, hrest, hbound⟩ := Outcome.map_eq_ok_iff.mp hread
      rw [Outline.flatItems, readPlaced, h f x v hv]
      exact Outcome.map_eq_ok_iff.mpr ⟨rest, ih hrest, hbound⟩

/-- A record is read at any depth when its fields are. -/
theorem ignoresDepth (h : ∀ f, (s.read f).IgnoresDepth) : s.reader.IgnoresDepth := by
  intro x r hr
  cases x with
  | object depth entries =>
    rw [reader] at hr
    split at hr
    · cases hr
    · obtain ⟨bound, hbound, hfinish⟩ := Outcome.bind_eq_ok_iff.mp hr
      exact Outcome.bind_eq_ok_iff.mpr ⟨bound, readNamed_flat h hbound, hfinish⟩
  | array depth items =>
    rw [reader] at hr
    split at hr
    · cases hr
    · obtain ⟨bound, hbound, hfinish⟩ := Outcome.bind_eq_ok_iff.mp hr
      exact Outcome.bind_eq_ok_iff.mpr ⟨bound, readPlaced_flat h hbound, hfinish⟩
  | _ => cases hr

end RecordShape
end PanelSource
