import Mathlib.Data.List.Nodup
import Mathlib.Data.Set.List
import PanelSource.Json.Record
import PanelSource.Proofs.Json.Ordered

/-! # Values that are written and read again

A reader rereads with a writer when each value it has read is read again, as the same value, from
what the writer makes of it. A record rereads when its fields do. -/
namespace PanelSource

/-- Whatever is read comes back after it has been written. -/
def Reader.Rereads {α : Type} (read : Reader α) (write : α → Json) : Prop :=
  ∀ o a, read o = .ok a → read (Outline.ofJson (write a)) = .ok a

namespace Reader
variable {α : Type} {read : Reader α} {write : α → Json}

theorem rereads_text : Rereads text .text := fun _ _ _ => rfl

theorem rereads_bool : Rereads bool .bool := fun _ _ _ => rfl

theorem rereads_json : Rereads Outline.toJson id := fun _ _ h =>
  Outline.toJson_ofJson (Outline.ordered_of_toJson h)

theorem rereads_intWhere (p : Int → Bool) : Rereads (intWhere p) Json.int := by
  intro o n h
  have hp : p n = true := by
    unfold intWhere at h
    split at h
    · split at h
      · cases h
        assumption
      · cases h
    · cases h
  exact if_pos hp

/-- A word is understood when it is the word of something. -/
theorem rereads_choice {word : α → String} {word? : String → Option α}
    (h : ∀ a, word? (word a) = some a) : Rereads (choice word?) fun a => .text (word a) := by
  intro o a _
  rw [Outline.ofJson, choice, h]
  rfl

theorem textWith_eq_ok_iff {f : String → Option α} {o : Outline} {a : α} :
    textWith f o = .ok a ↔ ∃ s, o = .text (some s) ∧ f s = some a := by
  constructor
  · intro h
    obtain ⟨s, hs, h⟩ := Outcome.bind_eq_ok_iff.mp h
    refine ⟨s, ?_, ?_⟩
    · cases o with
      | text s' =>
        cases s' <;> cases hs
        rfl
      | _ => cases hs
    · split at h <;> cases h
      assumption
  · rintro ⟨s, rfl, hs⟩
    refine Outcome.bind_eq_ok_iff.mpr ⟨s, rfl, ?_⟩
    rw [hs]
    rfl

/-- What a text is understood as is understood from the text that is written of it. -/
theorem rereads_textWith {f : String → Option α} {written : α → String}
    (h : ∀ s a, f s = some a → f (written a) = some a) :
    Rereads (textWith f) fun a => .text (written a) := by
  intro o a ho
  obtain ⟨s, -, hs⟩ := textWith_eq_ok_iff.mp ho
  exact textWith_eq_ok_iff.mpr ⟨_, rfl, h s a hs⟩

theorem optional_of_ne_null {o : Outline} (hne : o ≠ .null) :
    Reader.optional read o = (read o).map some := by
  cases o <;> first | exact absurd rfl hne | rfl

/-- Null is read as nothing, so no value may be written as null. -/
theorem Rereads.optional (h : Rereads read write) (hnull : ∀ a, write a ≠ .null) :
    Rereads (optional read) (Json.ofOption write) := by
  intro o a ho
  cases a with
  | none => rfl
  | some a =>
    have hread : ∃ o, read o = .ok a := by
      by_cases hne : o = .null
      · subst hne
        cases ho
      · rw [optional_of_ne_null hne] at ho
        obtain ⟨_, hread, ha⟩ := Outcome.map_eq_ok_iff.mp ho
        cases ha
        exact ⟨o, hread⟩
    obtain ⟨o, hread⟩ := hread
    have hne : Outline.ofJson (write a) ≠ .null := by
      intro heq
      apply hnull a
      cases hw : write a with
      | null => rfl
      | _ => rw [hw] at heq; cases heq
    rw [Json.ofOption, optional_of_ne_null hne, h o a hread]
    rfl

theorem Rereads.items (h : Rereads read write) {os : List Outline} {as : List α}
    (hos : Reader.items read os = .ok as) :
    Reader.items read (Outline.ofItems (as.map write)) = .ok as := by
  induction os generalizing as with
  | nil =>
    cases hos
    rfl
  | cons o os ih =>
    obtain ⟨a, ha, hos⟩ := Outcome.bind_eq_ok_iff.mp hos
    obtain ⟨as, has, hos⟩ := Outcome.bind_eq_ok_iff.mp hos
    cases hos
    rw [List.map_cons, Outline.ofItems, Reader.items, h o a ha, ih has]
    rfl

theorem Rereads.list (h : Rereads read write) :
    Rereads (list read) fun as => .array (as.map write) := by
  intro o as ho
  cases o with
  | array depth os =>
    rw [Reader.list] at ho
    split at ho
    · cases ho
    · rw [Outline.ofJson, Reader.list, if_neg (by decide), h.items ho]
  | _ => cases ho

end Reader

theorem Binding.mem_of_value? {F : Type} [DecidableEq F] {V : F → Type}
    {bound : List (Binding F V)} {f : F} {v : V f}
    (h : Binding.value? bound f = some v) : ⟨f, v⟩ ∈ bound := by
  induction bound with
  | nil => cases h
  | cons b bound ih =>
    obtain ⟨g, u⟩ := b
    rw [Binding.value?] at h
    split at h
    · subst g
      cases h
      exact List.mem_cons_self
    · exact List.mem_cons_of_mem _ (ih h)

namespace RecordShape
variable {F : Type} {V : F → Type} {R : Type}

/-- How the records of a shape are written: each field under a name that it has, with its value. -/
structure Form (s : RecordShape F V R) where
  name : F → String
  write : (f : F) → V f → Json
  value : R → (f : F) → V f
  named : ∀ f, s.named? (name f) = some f
  nodup_fields : s.fields.Nodup
  mem_fields : ∀ f, f ∈ s.fields
  build?_eq_some_iff : ∀ values r, s.build? values = some r ↔ ∀ f, values f = some (value r f)

namespace Form
variable {s : RecordShape F V R} (w : s.Form) (r : R)

def entry (f : F) : String × Json := (w.name f, w.write f (w.value r f))

def binding (f : F) : Binding F V := ⟨f, w.value r f⟩

def toJson : Json := Json.ofFields (s.fields.map (w.entry r))

theorem name_injective : Function.Injective w.name := by
  intro f g h
  have hf := w.named f
  rw [h, w.named g] at hf
  exact (Option.some.inj hf).symm

theorem nodup_names : ((s.fields.map (w.entry r)).map Prod.fst).Nodup := by
  rw [List.map_map]
  exact w.nodup_fields.map w.name_injective

/-- Each field is found under its name. -/
theorem field?_toJson (f : F) : (w.toJson r).field? (w.name f) = some (w.write f (w.value r f)) :=
  Json.lookup_insertFields (f := w.entry r f) (w.nodup_names r)
    (List.mem_map_of_mem (w.mem_fields f))

/-- The fields stand in the order of their names, each once. -/
theorem exists_fields :
    ∃ fs : List F, w.toJson r = .object (fs.map (w.entry r)) ∧ fs.Nodup ∧ ∀ f, f ∈ fs := by
  have hsorted : Json.Sorted (Json.insertFields [] (s.fields.map (w.entry r))) :=
    Json.Sorted.insertFields .nil _
  have hentries : ∀ e ∈ Json.insertFields [] (s.fields.map (w.entry r)), ∃ f, w.entry r f = e := by
    intro e he
    rcases Json.mem_insertFields he with he | he
    · exact absurd he List.not_mem_nil
    · obtain ⟨f, -, rfl⟩ := List.mem_map.mp he
      exact ⟨f, rfl⟩
  have hrange : Json.insertFields [] (s.fields.map (w.entry r)) ∈
      Set.range (List.map (w.entry r)) := by
    rw [Set.range_list_map]
    exact hentries
  obtain ⟨fs, hfs⟩ := hrange
  rw [← hfs] at hsorted
  refine ⟨fs, congrArg Json.object hfs.symm, ?_, fun f => ?_⟩
  · have hdistinct : (fs.map (w.entry r)).Nodup := by
      apply hsorted.imp
      rintro e _ hlt rfl
      exact String.lt_irrefl _ hlt
    exact hdistinct.of_map
  · have hfound := w.field?_toJson r f
    rw [toJson, Json.ofFields_eq, ← hfs, Json.field?, List.lookup_eq_some_iff] at hfound
    obtain ⟨front, back, hsplit, -⟩ := hfound
    have hmem : (w.name f, w.write f (w.value r f)) ∈ fs.map (w.entry r) := by
      rw [hsplit]
      exact List.mem_append_cons_self
    obtain ⟨g, hg, heq⟩ := List.mem_map.mp hmem
    exact w.name_injective (congrArg Prod.fst heq) ▸ hg

end Form

variable [DecidableEq F]

namespace Form
variable {s : RecordShape F V R} (w : s.Form) (r : R)

theorem binds_binding {fs : List F} {f : F} :
    Binding.binds (fs.map (w.binding r)) f = true ↔ f ∈ fs := by
  simp [Binding.binds, binding]

theorem value?_binding {fs : List F} {f : F} (h : f ∈ fs) :
    Binding.value? (fs.map (w.binding r)) f = some (w.value r f) := by
  induction fs with
  | nil => exact absurd h List.not_mem_nil
  | cons g fs ih =>
    by_cases hg : g = f
    · subst hg
      exact dif_pos rfl
    · rw [List.map_cons, binding, Binding.value?, dif_neg hg]
      exact ih ((List.mem_cons.mp h).resolve_left (Ne.symm hg))

variable {w r}

/-- Entries of different fields are bound one after the other. -/
theorem readNamed_entries
    (hread : ∀ f, s.read f (Outline.ofJson (w.write f (w.value r f))) = .ok (w.value r f))
    {fs bound : List F} (hfs : fs.Nodup) (hbound : ∀ f ∈ fs, f ∉ bound) :
    s.readNamed (bound.map (w.binding r)) (Outline.ofFields (fs.map (w.entry r))) =
      .ok ((fs.reverse ++ bound).map (w.binding r)) := by
  induction fs generalizing bound with
  | nil => rfl
  | cons f fs ih =>
    obtain ⟨hf, hfs⟩ := List.nodup_cons.mp hfs
    obtain ⟨hnew, hbound⟩ := List.forall_mem_cons.mp hbound
    have hnext : ∀ g ∈ fs, g ∉ f :: bound := by
      intro g hg
      rw [List.mem_cons, not_or]
      exact ⟨fun heq => hf (heq ▸ hg), hbound g hg⟩
    have hfree : Binding.binds (bound.map (w.binding r)) f = false :=
      Bool.eq_false_iff.mpr (mt (w.binds_binding r).mp hnew)
    rw [List.map_cons, entry, Outline.ofFields, readNamed, w.named]
    dsimp only
    rw [hfree, hread, List.reverse_cons, List.append_assoc]
    exact ih hfs hnext

/-- A record is read back from its entries when all its fields are. -/
theorem reader_toJson
    (hread : ∀ f, s.read f (Outline.ofJson (w.write f (w.value r f))) = .ok (w.value r f)) :
    s.reader (Outline.ofJson (w.toJson r)) = .ok r := by
  obtain ⟨fs, hobject, hfs, hmem⟩ := w.exists_fields r
  have hbound : s.readNamed [] (Outline.ofFields (fs.map (w.entry r))) =
      .ok (fs.reverse.map (w.binding r)) := by
    have h := readNamed_entries hread hfs fun f _ => @List.not_mem_nil _ f
    rwa [List.append_nil] at h
  rw [hobject, Outline.ofJson, RecordShape.reader, if_neg (by decide), hbound]
  have hbuild : s.build? (fun f => (Binding.value? (fs.reverse.map (w.binding r)) f).or
      (s.absent? f)) = some r := by
    rw [w.build?_eq_some_iff]
    intro f
    rw [w.value?_binding r (List.mem_reverse.mpr (hmem f)), Option.some_or]
  rw [Except.bind, finish, hbuild]
  rfl

end Form

section
variable {s : RecordShape F V R} {P : (f : F) → V f → Prop}

/-- What is bound under names has been read. -/
theorem forall_mem_of_readNamed (hread : ∀ f o v, s.read f o = .ok v → P f v)
    {entries : List (Option String × Outline)} {bound bound' : List (Binding F V)}
    (hbound : ∀ b ∈ bound, P b.1 b.2) (h : s.readNamed bound entries = .ok bound') :
    ∀ b ∈ bound', P b.1 b.2 := by
  induction entries generalizing bound with
  | nil =>
    cases h
    exact hbound
  | cons entry entries ih =>
    obtain ⟨_ | name, o⟩ := entry
    · cases h
    · rw [readNamed] at h
      split at h
      · split at h
        · exact ih hbound h
        · cases h
      · rename_i f _
        split at h
        · cases h
        · split at h
          · cases h
          · rename_i v hv
            exact ih (List.forall_mem_cons.mpr ⟨hread f o v hv, hbound⟩) h

omit [DecidableEq F] in
theorem forall_mem_of_readPlaced (hread : ∀ f o v, s.read f o = .ok v → P f v)
    (homitted : ∀ f v, s.omitted? f = some v → P f v) {fs : List F} {os : List Outline}
    {bound : List (Binding F V)} (h : s.readPlaced fs os = .ok bound) : ∀ b ∈ bound, P b.1 b.2 := by
  induction fs generalizing os bound with
  | nil =>
    cases os <;> cases h
    exact nofun
  | cons f fs ih =>
    cases os with
    | nil =>
      rw [readPlaced] at h
      split at h
      · cases h
      · rename_i v hv
        obtain ⟨rest, hrest, rfl⟩ := Outcome.map_eq_ok_iff.mp h
        exact List.forall_mem_cons.mpr ⟨homitted f v hv, ih hrest⟩
    | cons o os =>
      rw [readPlaced] at h
      split at h
      · cases h
      · rename_i v hv
        obtain ⟨rest, hrest, rfl⟩ := Outcome.map_eq_ok_iff.mp h
        exact List.forall_mem_cons.mpr ⟨hread f o v hv, ih hrest⟩

theorem Form.finish_eq_ok_iff (w : s.Form) {r : R} {bound : List (Binding F V)} :
    s.finish bound = .ok r ↔
      ∀ f, (Binding.value? bound f).or (s.absent? f) = some (w.value r f) := by
  rw [← w.build?_eq_some_iff, finish]
  cases s.build? fun f => (Binding.value? bound f).or (s.absent? f) <;> simp

/-- The fields of a record that is read: each was read, or stands for one that is not there. -/
theorem Form.forall_value_of_reader (w : s.Form) (hread : ∀ f o v, s.read f o = .ok v → P f v)
    (habsent : ∀ f v, s.absent? f = some v → P f v)
    (homitted : ∀ f v, s.omitted? f = some v → P f v) {o : Outline} {r : R}
    (h : s.reader o = .ok r) (f : F) : P f (w.value r f) := by
  have hfinish : ∀ bound : List (Binding F V), (∀ b ∈ bound, P b.1 b.2) →
      s.finish bound = .ok r → P f (w.value r f) := by
    intro bound hbound hr
    rcases Option.or_eq_some_iff.mp (w.finish_eq_ok_iff.mp hr f) with hv | ⟨-, hv⟩
    · exact hbound _ (Binding.mem_of_value? hv)
    · exact habsent f _ hv
  cases o with
  | object depth entries =>
    rw [RecordShape.reader] at h
    split at h
    · cases h
    · obtain ⟨bound, hbound, hr⟩ := Outcome.bind_eq_ok_iff.mp h
      exact hfinish bound (forall_mem_of_readNamed hread (List.forall_mem_nil _) hbound) hr
  | array depth os =>
    rw [RecordShape.reader] at h
    split at h
    · cases h
    · obtain ⟨bound, hbound, hr⟩ := Outcome.bind_eq_ok_iff.mp h
      exact hfinish bound (forall_mem_of_readPlaced hread homitted hbound) hr
  | _ => cases h

/-- A record rereads when its fields and what stands for missing ones do. -/
theorem Form.rereads (w : s.Form) (hread : ∀ f, Reader.Rereads (s.read f) (w.write f))
    (habsent : ∀ f v, s.absent? f = some v → s.read f (Outline.ofJson (w.write f v)) = .ok v)
    (homitted : ∀ f v, s.omitted? f = some v → s.read f (Outline.ofJson (w.write f v)) = .ok v) :
    Reader.Rereads s.reader w.toJson := by
  intro o r h
  apply w.reader_toJson
  exact w.forall_value_of_reader (P := fun f v => s.read f (Outline.ofJson (w.write f v)) = .ok v)
    hread habsent homitted h

end

end RecordShape
end PanelSource
