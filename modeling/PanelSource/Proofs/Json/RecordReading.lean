import Mathlib.Data.List.Pairwise
import PanelSource.Proofs.Json.Rereading

/-! # What is read of a record

An object is read by what it gives: a field by its entry, under any of its names, or as an absent
one. An array is read by what it lists for the fields in their order. -/
namespace PanelSource

namespace RecordShape

section
variable {F : Type} {V : F → Type} {R : Type} (s : RecordShape F V R)

/-- There is an entry for the field, with this value. -/
def Gives (entries : List (Option String × Outline)) (f : F) (x : Outline) : Prop :=
  ∃ name, s.named? name = some f ∧ (some name, x) ∈ entries

/-- The value of a field is read from its entry, or it is that of an absent field. -/
def Holds (entries : List (Option String × Outline)) (f : F) (v : V f) : Prop :=
  (∃ x, s.Gives entries f x ∧ s.read f x = .ok v) ∨
    (∀ x, ¬ s.Gives entries f x) ∧ s.absent? f = some v

/-- The entries are not for one field. -/
def Apart (e e' : Option String × Outline) : Prop :=
  ∀ f, e.1.bind s.named? = some f → e'.1.bind s.named? ≠ some f

instance : Std.Symm s.Apart := ⟨fun _ _ h f hf hf' => h f hf' hf⟩

/-- All names are texts, what nobody reads is a value nonetheless, and no field is given twice. -/
structure Legible (entries : List (Option String × Outline)) : Prop where
  names : ∀ x, (none, x) ∉ entries
  sound : ∀ name x, (some name, x) ∈ entries → s.named? name = none → x.sound = true
  once : entries.Pairwise s.Apart

variable {s} {entries entries' : List (Option String × Outline)} {name : String} {x y : Outline}
  {f : F} {v : V f}

theorem not_gives_nil : ¬ s.Gives [] f x := by
  rintro ⟨_, _, h⟩
  exact List.not_mem_nil h

theorem gives_cons_iff : s.Gives ((some name, x) :: entries) f y ↔
    s.named? name = some f ∧ y = x ∨ s.Gives entries f y := by
  simp only [Gives, List.mem_cons, Prod.mk.injEq, Option.some.injEq]
  constructor
  · rintro ⟨other, hother, ⟨rfl, rfl⟩ | hmem⟩
    · exact .inl ⟨hother, rfl⟩
    · exact .inr ⟨other, hother, hmem⟩
  · rintro (⟨hname, rfl⟩ | ⟨other, hother, hmem⟩)
    · exact ⟨name, hname, .inl ⟨rfl, rfl⟩⟩
    · exact ⟨other, hother, .inr hmem⟩

theorem legible_nil : s.Legible [] :=
  ⟨fun _ => List.not_mem_nil, fun _ _ hx => absurd hx List.not_mem_nil, .nil⟩

theorem legible_cons_iff : s.Legible ((some name, x) :: entries) ↔
    (s.named? name = none → x.sound = true) ∧
      (∀ f y, s.named? name = some f → ¬ s.Gives entries f y) ∧ s.Legible entries := by
  constructor
  · rintro ⟨hnames, hsound, honce⟩
    obtain ⟨hfirst, honce⟩ := List.pairwise_cons.mp honce
    refine ⟨hsound name x List.mem_cons_self, ?_, ?_⟩
    · rintro f y hf ⟨other, hother, hmem⟩
      exact hfirst _ hmem f hf hother
    · exact ⟨fun y hy => hnames y (List.mem_cons_of_mem _ hy),
        fun other y hy => hsound other y (List.mem_cons_of_mem _ hy), honce⟩
  · rintro ⟨hsound, hfirst, hentries⟩
    refine ⟨?_, ?_, List.pairwise_cons.mpr ⟨?_, hentries.once⟩⟩
    · intro y hy
      rcases List.mem_cons.mp hy with heq | hy
      · cases heq
      · exact hentries.names y hy
    · intro other y hy
      rcases List.mem_cons.mp hy with heq | hy
      · cases heq
        exact hsound
      · exact hentries.sound other y hy
    · rintro ⟨_ | other, y⟩ hy f hf hother
      · cases hother
      · exact hfirst f y hf ⟨other, hother, hy⟩

theorem Legible.unique (h : s.Legible entries) (hx : s.Gives entries f x)
    (hy : s.Gives entries f y) : x = y := by
  obtain ⟨name, hname, hx⟩ := hx
  obtain ⟨other, hother, hy⟩ := hy
  by_contra hne
  have hentries : (some name, x) ≠ (some other, y) := fun heq => hne (congrArg Prod.snd heq)
  exact h.once.forall hx hy hentries f hname hother

theorem Legible.read_of_gives (h : s.Legible entries) (hheld : s.Holds entries f v)
    (hgives : s.Gives entries f x) : s.read f x = .ok v := by
  rcases hheld with ⟨y, hy, hv⟩ | ⟨hlacks, -⟩
  · rwa [h.unique hgives hy]
  · exact absurd hgives (hlacks x)

theorem Holds.absent (hheld : s.Holds entries f v) (hlacks : ∀ x, ¬ s.Gives entries f x) :
    s.absent? f = some v := by
  rcases hheld with ⟨x, hx, -⟩ | ⟨-, hv⟩
  · exact absurd hx (hlacks x)
  · exact hv

theorem Legible.holds_unique (h : s.Legible entries) {v' : V f} (hv : s.Holds entries f v)
    (hv' : s.Holds entries f v') : v = v' := by
  rcases hv with ⟨x, hx, hread⟩ | ⟨hlacks, habsent⟩
  · exact Except.ok.inj (hread.symm.trans (h.read_of_gives hv' hx))
  · exact Option.some.inj (habsent.symm.trans (hv'.absent hlacks))

theorem holds_cons_same (hname : s.named? name = some f) (hlacks : ∀ y, ¬ s.Gives entries f y) :
    s.Holds ((some name, x) :: entries) f v ↔ s.read f x = .ok v := by
  simp [Holds, gives_cons_iff, hname, hlacks]

theorem holds_cons_of_ne (hname : s.named? name ≠ some f) :
    s.Holds ((some name, x) :: entries) f v ↔ s.Holds entries f v := by
  simp [Holds, gives_cons_iff, hname]

/-- The order of the entries does not matter. -/
theorem gives_perm (h : entries.Perm entries') : s.Gives entries f x ↔ s.Gives entries' f x := by
  simp only [Gives, h.mem_iff]

theorem holds_perm (h : entries.Perm entries') : s.Holds entries f v ↔ s.Holds entries' f v := by
  simp only [Holds, gives_perm h]

theorem Legible.perm (hlegible : s.Legible entries) (h : entries.Perm entries') :
    s.Legible entries' where
  names x hx := hlegible.names x (h.mem_iff.mpr hx)
  sound name x hx := hlegible.sound name x (h.mem_iff.mpr hx)
  once := h.pairwise hlegible.once fun h => Std.Symm.symm _ _ h

end
end RecordShape

namespace Binding
variable {F : Type} [DecidableEq F] {V : F → Type} {bound : List (Binding F V)} {f g : F}

theorem value?_cons_same (v : V f) : value? (⟨f, v⟩ :: bound) f = some v := dif_pos rfl

theorem value?_cons_of_ne (h : g ≠ f) (v : V g) : value? (⟨g, v⟩ :: bound) f = value? bound f :=
  dif_neg h

theorem binds_cons_eq_false_iff {v : V g} :
    binds (⟨g, v⟩ :: bound) f = false ↔ g ≠ f ∧ binds bound f = false := by
  simp [binds]

theorem value?_eq_none (h : binds bound f = false) : value? bound f = none := by
  induction bound with
  | nil => rfl
  | cons b bound ih =>
    obtain ⟨g, v⟩ := b
    obtain ⟨hne, hbound⟩ := binds_cons_eq_false_iff.mp h
    rw [value?_cons_of_ne hne, ih hbound]

end Binding

namespace RecordShape
variable {F : Type} [DecidableEq F] {V : F → Type} {R : Type} {s : RecordShape F V R}

theorem readNamed_cons {bound : List (Binding F V)} {entries : List (Option String × Outline)}
    {name : String} {f : F} {x : Outline} {v : V f} (hname : s.named? name = some f)
    (hfree : Binding.binds bound f = false) (hread : s.read f x = .ok v) :
    s.readNamed bound ((some name, x) :: entries) = s.readNamed (⟨f, v⟩ :: bound) entries := by
  simp [readNamed, hname, hfree, hread]

/-- Entries are read when they are legible; what they give is bound behind what was bound before. -/
theorem readNamed_eq_ok {bound bound' : List (Binding F V)}
    {entries : List (Option String × Outline)} (h : s.readNamed bound entries = .ok bound') :
    s.Legible entries ∧
      (∀ f x, s.Gives entries f x → Binding.binds bound f = false ∧ ∃ v, s.read f x = .ok v) ∧
      ∀ f v, Binding.value? bound' f = some v ↔
        Binding.value? bound f = some v ∨ ∃ x, s.Gives entries f x ∧ s.read f x = .ok v := by
  induction entries generalizing bound with
  | nil =>
    cases h
    exact ⟨legible_nil, fun f x hx => absurd hx not_gives_nil, by simp [not_gives_nil]⟩
  | cons entry entries ih =>
    obtain ⟨_ | name, x⟩ := entry
    · cases h
    rw [readNamed] at h
    split at h
    · rename_i hname
      split at h
      · rename_i hsound
        simpa [legible_cons_iff, gives_cons_iff, hname, hsound] using ih h
      · cases h
    · rename_i g hname
      split at h
      · cases h
      rename_i hunbound
      split at h
      · cases h
      rename_i u hread
      obtain ⟨hlegible, hfree, hvalue⟩ := ih h
      have hunbound : Binding.binds bound g = false := Bool.eq_false_iff.mpr hunbound
      have hnew : ∀ y, ¬ s.Gives entries g y := fun y hy =>
        (Binding.binds_cons_eq_false_iff.mp (hfree g y hy).1).1 rfl
      refine ⟨legible_cons_iff.mpr ⟨by simp [hname], ?_, hlegible⟩, fun f y hy => ?_, fun f v => ?_⟩
      · intro f y hf
        obtain rfl : g = f := Option.some.inj (hname.symm.trans hf)
        exact hnew y
      · rcases gives_cons_iff.mp hy with ⟨hf, rfl⟩ | hy
        · obtain rfl : g = f := Option.some.inj (hname.symm.trans hf)
          exact ⟨hunbound, u, hread⟩
        · exact ⟨(Binding.binds_cons_eq_false_iff.mp (hfree f y hy).1).2, (hfree f y hy).2⟩
      · rw [hvalue]
        by_cases hg : g = f
        · subst hg
          simp [Binding.value?_cons_same, Binding.value?_eq_none hunbound, gives_cons_iff, hname,
            hnew, hread]
        · simp [Binding.value?_cons_of_ne hg, gives_cons_iff, hname, hg]

/-- Legible entries are read when their values are. -/
theorem exists_readNamed {bound : List (Binding F V)} {entries : List (Option String × Outline)}
    (hlegible : s.Legible entries) (hread : ∀ f x, s.Gives entries f x → ∃ v, s.read f x = .ok v)
    (hfree : ∀ f x, s.Gives entries f x → Binding.binds bound f = false) :
    ∃ bound', s.readNamed bound entries = .ok bound' := by
  induction entries generalizing bound with
  | nil => exact ⟨bound, rfl⟩
  | cons entry entries ih =>
    obtain ⟨_ | name, x⟩ := entry
    · exact absurd List.mem_cons_self (hlegible.names x)
    obtain ⟨hsound, hfirst, hlegible⟩ := legible_cons_iff.mp hlegible
    have hread' : ∀ f y, s.Gives entries f y → ∃ v, s.read f y = .ok v := fun f y hy =>
      hread f y (gives_cons_iff.mpr (.inr hy))
    have hfree' : ∀ f y, s.Gives entries f y → Binding.binds bound f = false := fun f y hy =>
      hfree f y (gives_cons_iff.mpr (.inr hy))
    cases hname : s.named? name with
    | none =>
      obtain ⟨bound', hbound'⟩ := ih hlegible hread' hfree'
      exact ⟨bound', by simp [readNamed, hname, hsound hname, hbound']⟩
    | some g =>
      have hgives : s.Gives ((some name, x) :: entries) g x :=
        gives_cons_iff.mpr (.inl ⟨hname, rfl⟩)
      have hunbound := hfree g x hgives
      obtain ⟨u, hu⟩ := hread g x hgives
      have hfree : ∀ f y, s.Gives entries f y → Binding.binds (⟨g, u⟩ :: bound) f = false := by
        intro f y hy
        have hne : g ≠ f := fun heq => hfirst f y (hname.trans (congrArg some heq)) hy
        exact Binding.binds_cons_eq_false_iff.mpr ⟨hne, hfree' f y hy⟩
      obtain ⟨bound', hbound'⟩ := ih hlegible hread' hfree
      exact ⟨bound', (readNamed_cons hname hunbound hu).trans hbound'⟩

namespace Form
variable (w : s.Form) {r : R}

/-- An object is read by what it gives for the fields. -/
theorem reader_object_eq_ok_iff {depth : Nat} {entries : List (Option String × Outline)} :
    s.reader (.object depth entries) = .ok r ↔
      depth ≤ Outline.depthLimit ∧ s.Legible entries ∧ ∀ f, s.Holds entries f (w.value r f) := by
  rw [reader]
  by_cases hdepth : Outline.depthLimit < depth
  · rw [if_pos hdepth]
    refine iff_of_false (fun h => ?_) fun h => Nat.not_lt.mpr h.1 hdepth
    cases h
  rw [if_neg hdepth]
  constructor
  · intro h
    obtain ⟨bound, hbound, hfinish⟩ := Outcome.bind_eq_ok_iff.mp h
    obtain ⟨hlegible, hread, hvalue⟩ := readNamed_eq_ok hbound
    refine ⟨Nat.not_lt.mp hdepth, hlegible, fun f => ?_⟩
    rcases Option.or_eq_some_iff.mp (w.finish_eq_ok_iff.mp hfinish f) with hf | ⟨hf, habsent⟩
    · rcases (hvalue f _).mp hf with hnil | hgives
      · cases hnil
      · exact .inl hgives
    · refine .inr ⟨fun x hx => ?_, habsent⟩
      obtain ⟨-, v, hv⟩ := hread f x hx
      rw [(hvalue f v).mpr (.inr ⟨x, hx, hv⟩)] at hf
      cases hf
  · rintro ⟨-, hlegible, hholds⟩
    have hfree : ∀ f x, s.Gives entries f x → Binding.binds ([] : List (Binding F V)) f = false :=
      fun _ _ _ => rfl
    obtain ⟨bound, hbound⟩ := exists_readNamed hlegible
      (fun f x hx => ⟨_, hlegible.read_of_gives (hholds f) hx⟩) hfree
    obtain ⟨-, -, hvalue⟩ := readNamed_eq_ok hbound
    refine Outcome.bind_eq_ok_iff.mpr ⟨bound, hbound, w.finish_eq_ok_iff.mpr fun f => ?_⟩
    rcases hholds f with hgives | ⟨hlacks, habsent⟩
    · rw [(hvalue f _).mpr (.inr hgives), Option.some_or]
    · have hnone : Binding.value? bound f = none := by
        refine Option.eq_none_iff_forall_ne_some.mpr fun v hv => ?_
        rcases (hvalue f v).mp hv with hnil | ⟨x, hx, -⟩
        · cases hnil
        · exact hlacks x hx
      rw [hnone, Option.none_or, habsent]

/-- An entry of a field gives the value of this field, and the others have theirs from the rest. -/
theorem reader_entry_eq_ok_iff {depth : Nat} {entries : List (Option String × Outline)}
    {name : String} {f : F} {x : Outline} (hname : s.named? name = some f) :
    s.reader (.object depth ((some name, x) :: entries)) = .ok r ↔
      depth ≤ Outline.depthLimit ∧ s.Legible entries ∧ (∀ y, ¬ s.Gives entries f y) ∧
        s.read f x = .ok (w.value r f) ∧ ∀ g, g ≠ f → s.Holds entries g (w.value r g) := by
  have hne : ∀ {g}, g ≠ f → s.named? name ≠ some g := fun hg h =>
    hg (Option.some.inj (h.symm.trans hname))
  rw [w.reader_object_eq_ok_iff, legible_cons_iff]
  constructor
  · rintro ⟨hdepth, ⟨-, hfirst, hlegible⟩, hholds⟩
    have hlacks : ∀ y, ¬ s.Gives entries f y := fun y => hfirst f y hname
    exact ⟨hdepth, hlegible, hlacks, (holds_cons_same hname hlacks).mp (hholds f),
      fun g hg => (holds_cons_of_ne (hne hg)).mp (hholds g)⟩
  · rintro ⟨hdepth, hlegible, hlacks, hread, hothers⟩
    refine ⟨hdepth, ⟨by simp [hname], fun g y hg => ?_, hlegible⟩, fun g => ?_⟩
    · obtain rfl : f = g := Option.some.inj (hname.symm.trans hg)
      exact hlacks y
    · by_cases hg : g = f
      · subst hg
        exact (holds_cons_same hname hlacks).mpr hread
      · exact (holds_cons_of_ne (hne hg)).mpr (hothers g hg)

include w in
/-- An object with two names of one field is no record. -/
theorem not_both_names {depth : Nat} {entries : List (Option String × Outline)}
    {name name' : String} {f : F} (hname : s.named? name = some f)
    (hname' : s.named? name' = some f) (hne : name ≠ name')
    (h : s.reader (.object depth entries) = .ok r) (x y : Outline) :
    ¬((some name, x) ∈ entries ∧ (some name', y) ∈ entries) := by
  rintro ⟨hx, hy⟩
  obtain ⟨-, hlegible, -⟩ := w.reader_object_eq_ok_iff.mp h
  have hentries : (some name, x) ≠ (some name', y) := fun heq =>
    hne (Option.some.inj (congrArg Prod.fst heq))
  exact hlegible.once.forall hx hy hentries f hname hname'

end Form

section
variable (s)

/-- Values in their places, and behind the end those that stand for omitted ones. -/
def Listed (value : (f : F) → V f) : List F → List Outline → Prop
  | [], [] => True
  | [], _ :: _ => False
  | f :: fs, [] => s.omitted? f = some (value f) ∧ Listed value fs []
  | f :: fs, x :: xs => s.read f x = .ok (value f) ∧ Listed value fs xs

end

theorem listed_of_readPlaced {value : (f : F) → V f} {fs : List F} (hfs : fs.Nodup)
    {xs : List Outline} {bound : List (Binding F V)} (h : s.readPlaced fs xs = .ok bound)
    (hvalue : ∀ f ∈ fs, (Binding.value? bound f).or (s.absent? f) = some (value f)) :
    s.Listed value fs xs := by
  induction fs generalizing xs bound with
  | nil =>
    cases xs with
    | nil => trivial
    | cons x xs => cases h
  | cons f fs ih =>
    obtain ⟨hf, hfs⟩ := List.nodup_cons.mp hfs
    obtain ⟨hfirst, hrest⟩ := List.forall_mem_cons.mp hvalue
    have hnext : ∀ {v : V f} {rest : List (Binding F V)}, bound = ⟨f, v⟩ :: rest →
        v = value f ∧ ∀ g ∈ fs, (Binding.value? rest g).or (s.absent? g) = some (value g) := by
      rintro v rest rfl
      rw [Binding.value?_cons_same, Option.some_or] at hfirst
      refine ⟨Option.some.inj hfirst, fun g hg => ?_⟩
      have hne : f ≠ g := fun heq => hf (heq ▸ hg)
      rw [← hrest g hg, Binding.value?_cons_of_ne hne]
    cases xs with
    | nil =>
      rw [readPlaced] at h
      split at h
      · cases h
      · rename_i v hv
        obtain ⟨rest, hread, hbound⟩ := Outcome.map_eq_ok_iff.mp h
        obtain ⟨rfl, hvalue⟩ := hnext hbound.symm
        exact ⟨hv, ih hfs hread hvalue⟩
    | cons x xs =>
      rw [readPlaced] at h
      split at h
      · cases h
      · rename_i v hv
        obtain ⟨rest, hread, hbound⟩ := Outcome.map_eq_ok_iff.mp h
        obtain ⟨rfl, hvalue⟩ := hnext hbound.symm
        exact ⟨hv, ih hfs hread hvalue⟩

namespace Form
variable (w : s.Form) {r : R}

omit [DecidableEq F] in
theorem readPlaced_of_listed {fs : List F} {xs : List Outline} (h : s.Listed (w.value r) fs xs) :
    s.readPlaced fs xs = .ok (fs.map (w.binding r)) := by
  induction fs generalizing xs with
  | nil =>
    cases xs with
    | nil => rfl
    | cons x xs => exact absurd h id
  | cons f fs ih =>
    cases xs with
    | nil => simp [readPlaced, h.1, ih h.2, Except.map, binding]
    | cons x xs => simp [readPlaced, h.1, ih h.2, Except.map, binding]

/-- An array is read by what it lists for the fields. -/
theorem reader_array_eq_ok_iff {depth : Nat} {xs : List Outline} :
    s.reader (.array depth xs) = .ok r ↔
      depth ≤ Outline.depthLimit ∧ s.Listed (w.value r) s.fields xs := by
  rw [reader]
  by_cases hdepth : Outline.depthLimit < depth
  · rw [if_pos hdepth]
    refine iff_of_false (fun h => ?_) fun h => Nat.not_lt.mpr h.1 hdepth
    cases h
  rw [if_neg hdepth]
  constructor
  · intro h
    obtain ⟨bound, hbound, hfinish⟩ := Outcome.bind_eq_ok_iff.mp h
    exact ⟨Nat.not_lt.mp hdepth,
      listed_of_readPlaced w.nodup_fields hbound fun f _ => w.finish_eq_ok_iff.mp hfinish f⟩
  · rintro ⟨-, hlisted⟩
    refine Outcome.bind_eq_ok_iff.mpr
      ⟨_, w.readPlaced_of_listed hlisted, w.finish_eq_ok_iff.mpr fun f => ?_⟩
    rw [w.value?_binding r (w.mem_fields f), Option.some_or]

end Form

end RecordShape
end PanelSource
