import Mathlib.Data.List.Induction
import PanelSource.Settings.Tree

/-! # Layers of settings

What a layer makes of one value depends on the value it had before and on what the layer sets at it
and below it, entry by entry, as long as no entry replaces a whole section. -/
namespace PanelSource.Setting

def IsTable (s : Setting) : Prop := ∃ fields, s = table fields

/-- The value under a name within a section. -/
def at? (s : Setting) (part name : String) : Option Setting :=
  (s.field? part).bind fun t => t.field? name

theorem exists_part {s value : Setting} {part name : String} (h : s.at? part name = some value) :
    ∃ t, s.field? part = some t ∧ t.IsTable := by
  obtain ⟨t, ht, hfield⟩ := Option.bind_eq_some_iff.mp h
  cases t with
  | table fields => exact ⟨_, ht, fields, rfl⟩
  | _ => cases hfield

/-- A value and the path below another value where it is set. -/
abbrev Change := List Step × Setting

/-- Changes to a value, in their order. -/
def changed (old : Option Setting) (changes : List Change) : Option Setting :=
  changes.foldl (fun old c => some (setAt c.1 c.2 (old.getD null))) old

@[simp] theorem changed_nil (old : Option Setting) : changed old [] = old := rfl

@[simp] theorem changed_cons (old : Option Setting) (c : Change) (changes : List Change) :
    changed old (c :: changes) = changed (some (setAt c.1 c.2 (old.getD null))) changes := rfl

theorem changed_append (old : Option Setting) (changes more : List Change) :
    changed old (changes ++ more) = changed (changed old changes) more := List.foldl_append

/-- What a table gives for a name is set in the place of the name itself. -/
def valuesOf (name : String) (fields : List (String × Setting)) : List Change :=
  (fields.filter fun f => f.1 = name).map fun f => ([], f.2)

theorem field?_put (base : Setting) (name : String) (value : Setting) (other : String) :
    (table (put name value base.fields)).field? other =
      if name = other then some value else base.field? other := by
  split
  · rename_i h
    subst h
    exact lookup_put_same name value base.fields
  · rename_i h
    exact lookup_put_of_ne (Ne.symm h) value base.fields

theorem field?_setAt_name (name : String) (path : List Step) (value old : Setting)
    (other : String) : (setAt (.name name :: path) value old).field? other =
      if name = other then some (setAt path value ((old.field? name).getD null))
      else old.field? other := by
  rw [setAt, field?_put]

theorem field?_overlayFields (base : Setting) (fields : List (String × Setting)) (name : String) :
    (overlayFields base fields).field? name =
      changed (base.field? name) (valuesOf name fields) := by
  induction fields generalizing base with
  | nil => rw [overlayFields]; rfl
  | cons f fields ih =>
    obtain ⟨n, value⟩ := f
    rw [overlayFields, ih, field?_put]
    by_cases h : n = name
    · subst h
      simp [valuesOf, setAt]
    · simp [valuesOf, h]

theorem overlay_table (old : Setting) (fields : List (String × Setting)) :
    overlay old (table fields) = overlayFields old.opened fields := by rw [overlay]

theorem fields_opened (s : Setting) : s.opened.fields = s.fields := by cases s <;> rfl

theorem field?_opened (s : Setting) (name : String) : s.opened.field? name = s.field? name := by
  rw [field?, field?, fields_opened]

theorem field?_overlay_table (old : Setting) (fields : List (String × Setting)) (name : String) :
    (overlay old (table fields)).field? name =
      changed (old.field? name) (valuesOf name fields) := by
  rw [overlay_table, field?_overlayFields, field?_opened]

theorem IsTable.overlayFields {base : Setting} (h : IsTable base)
    (fields : List (String × Setting)) : IsTable (overlayFields base fields) := by
  induction fields generalizing base with
  | nil => rwa [Setting.overlayFields]
  | cons f fields ih =>
    rw [Setting.overlayFields]
    exact ih ⟨_, rfl⟩

theorem IsTable.overlay {old value : Setting} (h : IsTable old) (hvalue : IsTable value) :
    IsTable (overlay old value) := by
  obtain ⟨old, rfl⟩ := h
  obtain ⟨fields, rfl⟩ := hvalue
  rw [overlay_table]
  exact IsTable.overlayFields ⟨old, rfl⟩ fields

theorem exists_steps {cs : List Char} {path : List Step} (h : steps? cs = some path) :
    ∃ name rest, path = .name name :: rest := by
  unfold steps? at h
  split at h
  · cases h
  · split at h
    · obtain ⟨rest, -, rfl⟩ := Option.map_eq_some_iff.mp h
      exact ⟨_, rest, rfl⟩
    · cases h

/-- A path begins with a name. -/
theorem exists_keyPath (key : String) : ∃ name rest, keyPath key = .name name :: rest := by
  obtain ⟨first, parts, hparts⟩ :=
    List.exists_cons_of_ne_nil (Text.splitOnChar_ne_nil '.' key.toList)
  rw [keyPath, hparts, path?]
  cases hfirst : steps? first with
  | none => exact ⟨key, [], rfl⟩
  | some steps =>
    obtain ⟨name, rest, rfl⟩ := exists_steps hfirst
    cases hrest : path? parts with
    | none => exact ⟨key, [], by simp⟩
    | some more => exact ⟨name, rest ++ more, by simp⟩

example : keyPath "names[ -1].web" = [.name "names", .index (-1), .name "web"] := rfl

/-- What an entry sets at the value under a name within a section, and below it. -/
def given (part name : String) : List Step → Setting → List Change
  | [.name n], value => if n = part then valuesOf name value.fields else []
  | .name n :: .name n' :: path, value => if n = part ∧ n' = name then [(path, value)] else []
  | _, _ => []

/-- An entry does not replace a section: it has a table for the section or leads to a name in it. -/
def Spares (part : String) (path : List Step) (value : Setting) : Prop :=
  (path = [.name part] → IsTable value) ∧ ∀ i, ¬[.name part, .index i] <+: path

/-- An entry that leads to another section, or to another name in the section, gives nothing. -/
theorem given_eq_nil {part name : String} {path : List Step} (value : Setting)
    (hsection : path ≠ [.name part]) (hpath : ¬[.name part, .name name] <+: path) :
    given part name path value = [] := by
  unfold given
  split
  · refine if_neg ?_
    rintro rfl
    exact hsection rfl
  · refine if_neg ?_
    rintro ⟨rfl, rfl⟩
    exact hpath (List.prefix_append [_, _] _)
  · rfl

section
variable {part n : String} {rest : List Step} {value : Setting}
  (hspares : Spares part (.name n :: rest) value)
include hspares

theorem at?_setAt (base : Setting) (name : String) :
    (setAt (.name n :: rest) value base).at? part name =
      changed (base.at? part name) (given part name (.name n :: rest) value) := by
  rw [at?, field?_setAt_name]
  by_cases hn : n = part
  · subst hn
    have hbase : ((base.field? n).getD null).field? name = base.at? n name := by
      rw [at?]
      cases base.field? n <;> rfl
    rw [if_pos rfl, Option.bind_some]
    match rest with
    | [] =>
      obtain ⟨fields, rfl⟩ := hspares.1 rfl
      rw [setAt, field?_overlay_table, hbase, given, if_pos rfl]
      rfl
    | .name n' :: rest =>
      rw [field?_setAt_name, given]
      by_cases hn' : n' = name
      · subst hn'
        simp [hbase]
      · simp [hn', hbase]
    | .index i :: rest => exact absurd (List.prefix_append [_, _] rest) (hspares.2 i)
  · have hgiven : given part name (.name n :: rest) value = [] := by
      apply given_eq_nil
      · simpa using fun h => absurd h hn
      · intro hprefix
        exact hn (by simpa using (List.cons_prefix_cons.mp hprefix).1.symm)
    rw [if_neg hn, hgiven]
    rfl

theorem isTable_part_setAt {base : Setting} (h : ∃ s, base.field? part = some s ∧ IsTable s) :
    ∃ s, (setAt (.name n :: rest) value base).field? part = some s ∧ IsTable s := by
  rw [field?_setAt_name]
  by_cases hn : n = part
  · subst hn
    obtain ⟨s, hs, htable⟩ := h
    refine ⟨_, if_pos rfl, ?_⟩
    rw [hs, Option.getD_some]
    match rest with
    | [] =>
      rw [setAt]
      exact htable.overlay (hspares.1 rfl)
    | .name n' :: rest => exact ⟨_, rfl⟩
    | .index i :: rest => exact absurd (List.prefix_append [_, _] rest) (hspares.2 i)
  · rwa [if_neg hn]

end

theorem addLayer_cons (base : Setting) (f : String × Setting) (layer : List (String × Setting)) :
    addLayer base (f :: layer) = addLayer (setAt (keyPath f.1) f.2 base) layer := rfl

theorem IsTable.addLayer {base : Setting} (h : IsTable base) (layer : List (String × Setting)) :
    IsTable (addLayer base layer) := by
  induction layer generalizing base with
  | nil => exact h
  | cons f layer ih =>
    obtain ⟨n, rest, hpath⟩ := exists_keyPath f.1
    rw [addLayer_cons, hpath]
    exact ih ⟨_, rfl⟩

section
variable {part : String} {layer : List (String × Setting)}
  (hspares : ∀ f ∈ layer, Spares part (keyPath f.1) f.2)
include hspares

/-- The value is changed as the entries say. -/
theorem at?_addLayer (base : Setting) (name : String) : (addLayer base layer).at? part name =
    changed (base.at? part name) (layer.flatMap fun f => given part name (keyPath f.1) f.2) := by
  induction layer generalizing base with
  | nil => rfl
  | cons f layer ih =>
    obtain ⟨hfirst, hrest⟩ := List.forall_mem_cons.mp hspares
    obtain ⟨n, rest, hpath⟩ := exists_keyPath f.1
    rw [hpath] at hfirst
    rw [addLayer_cons, ih hrest, List.flatMap_cons, changed_append, hpath, at?_setAt hfirst]

/-- A section stays one. -/
theorem isTable_part_addLayer {base : Setting} (h : ∃ s, base.field? part = some s ∧ IsTable s) :
    ∃ s, (addLayer base layer).field? part = some s ∧ IsTable s := by
  induction layer generalizing base with
  | nil => exact h
  | cons f layer ih =>
    obtain ⟨hfirst, hrest⟩ := List.forall_mem_cons.mp hspares
    obtain ⟨n, rest, hpath⟩ := exists_keyPath f.1
    rw [hpath] at hfirst
    rw [addLayer_cons, hpath]
    exact ih hrest (isTable_part_setAt hfirst h)

end

/-- A value with nothing in it that a change could leave as it is. -/
structure Bare (s : Setting) : Prop where
  fields : s.fields = []
  items : s.items = []

theorem bare_null : Bare null := ⟨rfl, rfl⟩

theorem bare_empty : Bare (table []) := ⟨rfl, rfl⟩

theorem overlay_of_bare {s value : Setting} (hs : Bare s) (hvalue : value ≠ table []) :
    overlay s value = overlay null value := by
  cases value with
  | table fields =>
    cases fields with
    | nil => exact absurd rfl hvalue
    | cons f fields =>
      have hfields (s : Setting) (hs : Bare s) : overlay s (table (f :: fields)) =
          overlayFields (table (put f.1 (overlay null f.2) [])) fields := by
        rw [overlay_table, overlayFields, field?, fields_opened, hs.fields]
        rfl
      rw [hfields s hs, hfields null bare_null]
  | _ => rw [overlay, overlay]

/-- A change other than an empty table in the place of the value makes the same of every bare
value. -/
theorem setAt_of_bare {s : Setting} (hs : Bare s) {c : Change} (hc : c ≠ ([], table [])) :
    setAt c.1 c.2 s = setAt c.1 c.2 null := by
  obtain ⟨path, value⟩ := c
  match path with
  | [] =>
    rw [setAt, setAt]
    exact overlay_of_bare hs fun hvalue => hc (congrArg (Prod.mk []) hvalue)
  | .name n :: path =>
    rw [setAt, setAt, field?, hs.fields]
    rfl
  | .index i :: path =>
    rw [setAt, setAt, hs.items]
    rfl

/-- Changes to `old` come to what they are without it, or have left it as it was. -/
def Above (old alone above : Option Setting) : Prop :=
  (alone = above ∧ alone ≠ none) ∨ ((alone = none ∨ alone = some (table [])) ∧ above = old)

theorem Above.change {old alone above : Option Setting} (hold : ∀ s ∈ old, Bare s)
    (h : Above old alone above) (c : Change) :
    Above old (some (setAt c.1 c.2 (alone.getD null)))
      (some (setAt c.1 c.2 (above.getD null))) := by
  rcases h with ⟨rfl, -⟩ | ⟨halone, rfl⟩
  · exact .inl ⟨rfl, Option.some_ne_none _⟩
  · by_cases hc : c = ([], table [])
    · subst hc
      have hempty : setAt [] (table []) (alone.getD null) = table [] := by
        rcases halone with rfl | rfl <;> rw [setAt, overlay_table, overlayFields] <;> rfl
      rw [hempty, setAt, overlay_table, overlayFields]
      cases above with
      | none => exact .inl ⟨rfl, Option.some_ne_none _⟩
      | some s =>
        cases s with
        | null => exact .inl ⟨rfl, Option.some_ne_none _⟩
        | _ => exact .inr ⟨.inr rfl, rfl⟩
    · have halone : setAt c.1 c.2 (alone.getD null) = setAt c.1 c.2 null := by
        rcases halone with rfl | rfl
        · rfl
        · exact setAt_of_bare bare_empty hc
      have habove : setAt c.1 c.2 (above.getD null) = setAt c.1 c.2 null := by
        cases above with
        | none => rfl
        | some s => exact setAt_of_bare (hold s rfl) hc
      exact .inl ⟨by rw [halone, habove], Option.some_ne_none _⟩

theorem Above.changed {old alone above : Option Setting} (hold : ∀ s ∈ old, Bare s)
    (h : Above old alone above) (changes : List Change) :
    Above old (changed alone changes) (changed above changes) := by
  induction changes generalizing alone above with
  | nil => exact h
  | cons c changes ih => exact ih (h.change hold c)

/-- What is given takes the place of a bare value. -/
theorem changed_eq_or {old : Option Setting} (hold : ∀ s ∈ old, Bare s) {changes : List Change}
    (hchanges : changed none changes ≠ some (table [])) :
    changed old changes = (changed none changes).or old := by
  have hstart : Above old none old := .inr ⟨.inl rfl, rfl⟩
  rcases hstart.changed hold changes with ⟨heq, hsome⟩ | ⟨hnone | hempty, hold'⟩
  · obtain ⟨value, hvalue⟩ := Option.ne_none_iff_exists'.mp hsome
    rw [← heq, hvalue, Option.some_or]
  · rw [hnone, hold', Option.none_or]
  · exact absurd hempty hchanges

theorem changed_texts (old : Option Setting) (ss : List String) :
    changed old (ss.map fun s => ([], text s)) = (ss.getLast?.map text).or old := by
  have hset (s : String) (old : Setting) : setAt [] (text s) old = text s := by
    rw [setAt, overlay]
  rcases List.eq_nil_or_concat ss with rfl | ⟨ss, s, rfl⟩
  · rfl
  · rw [List.concat_eq_append, List.map_append, changed_append, List.getLast?_append,
      List.map_singleton, changed_cons, changed_nil, hset]
    rfl

end PanelSource.Setting
