import PanelSource.Proofs.Result.FanOut

/-! # Targets as names of series

A target is the parts of a key with a space between them, a colon, a space and a label. Where no
part has a space in it, the first spaces of a target end the parts, and the rest is the label,
whatever else stands in the parts and in the label. -/
namespace PanelSource

/-- The text in front of the first space, and the text behind it. -/
def cutAtSpace? (text : List Char) : Option (List Char × List Char) :=
  match text.dropWhile (· != ' ') with
  | [] => none
  | _ :: behind => some (text.takeWhile (· != ' '), behind)

/-- A key of so many parts, and the label. The last part has a colon behind it. -/
def readTarget? : Nat → List Char → Option (GroupKey × String)
  | 0, text => some ([], String.ofList text)
  | 1, text => (cutAtSpace? text).map fun (part, label) =>
      ([String.ofList part.dropLast], String.ofList label)
  | n + 2, text => (cutAtSpace? text).bind fun (part, behind) =>
      (readTarget? (n + 1) behind).map fun (key, label) => (String.ofList part :: key, label)

/-- A space stands in one of the parts. -/
def HasSpace (key : GroupKey) : Prop := ∃ part ∈ key, ' ' ∈ part.toList

theorem not_hasSpace_cons {part : String} {key : GroupKey} :
    ¬HasSpace (part :: key) ↔ ' ' ∉ part.toList ∧ ¬HasSpace key := by
  simp [HasSpace]

theorem cutAtSpace?_append {part : List Char} (h : ' ' ∉ part) (behind : List Char) :
    cutAtSpace? (part ++ ' ' :: behind) = some (part, behind) := by
  have hpart : ∀ c ∈ part, (c != ' ') = true := by
    intro c hc
    rw [bne_iff_ne]
    exact fun hspace => h (hspace ▸ hc)
  rw [cutAtSpace?, List.dropWhile_append_of_pos hpart, List.takeWhile_append_of_pos hpart]
  simp

/-- What a target says of its key and its label is read back. -/
theorem readTarget?_joined {key : GroupKey} (hkey : key ≠ []) (h : ¬HasSpace key) (label : String) :
    readTarget? key.length (" ".intercalate key ++ ": " ++ label).toList = some (key, label) := by
  induction key with
  | nil => exact absurd rfl hkey
  | cons part rest ih =>
    rw [not_hasSpace_cons] at h
    cases rest with
    | nil =>
      have hcolon : ' ' ∉ part.toList ++ [':'] := by simp [h.1]
      have htext : (" ".intercalate [part] ++ ": " ++ label).toList =
          (part.toList ++ [':']) ++ ' ' :: label.toList := by simp
      rw [htext, List.length_singleton, readTarget?, cutAtSpace?_append hcolon]
      simp
    | cons next rest =>
      have htext : (" ".intercalate (part :: next :: rest) ++ ": " ++ label).toList =
          part.toList ++ ' ' :: (" ".intercalate (next :: rest) ++ ": " ++ label).toList := by
        simp [String.intercalate_cons_cons]
      rw [htext, List.length_cons, List.length_cons, readTarget?, cutAtSpace?_append h.1]
      have hrest := ih (List.cons_ne_nil _ _) h.2
      rw [List.length_cons] at hrest
      simp only [Option.bind_some, hrest, Option.map_some, String.ofList_toList]

namespace Layout

/-- The series at `n` is of the group at `i`, which has the key, and of a metric with the label. -/
structure Places (l : Layout) (t : Table) (n i : Nat) (key : GroupKey) (label : String) : Prop where
  key_at : (l.rowKeys t).eraseDups[i]? = some key
  metric_at : ∃ j m, l.metrics[j]? = some m ∧ m.label = label ∧ n = i * l.metrics.length + j

end Layout

namespace FansOut
variable {d : Description} {t : Table} {l : Layout} {out : List Series} {n i : Nat}
  {key : GroupKey} {label : String} {s : Series}

/-- Every series has a group and a metric. -/
theorem exists_places (h : FansOut d t l out) (hn : n < out.length) :
    ∃ i key label, l.Places t n i key label := by
  rw [h.length_eq] at hn
  have hpos : 0 < l.metrics.length := Nat.pos_of_mul_pos_left (Nat.zero_lt_of_lt hn)
  have hi : n / l.metrics.length < (l.rowKeys t).eraseDups.length :=
    Nat.div_lt_of_lt_mul (Nat.mul_comm _ _ ▸ hn)
  have hj := Nat.mod_lt n hpos
  exact ⟨n / l.metrics.length, _, _, List.getElem?_eq_getElem hi, n % l.metrics.length, _,
    List.getElem?_eq_getElem hj, rfl, (Nat.div_add_mod' n _).symm⟩

theorem target_eq (h : FansOut d t l out) (hplace : l.Places t n i key label)
    (hs : out[n]? = some s) :
    s.target = if d.groupBy = [] then label else " ".intercalate key ++ ": " ++ label := by
  obtain ⟨key_at, j, m, metric_at, rfl, rfl⟩ := hplace
  obtain ⟨s', hs', htarget, -⟩ := h.series_at i j key m key_at metric_at
  cases hs.symm.trans hs'
  exact htarget

theorem length_key (h : FansOut d t l out) (hplace : l.Places t n i key label) :
    key.length = d.groupBy.length := by
  have hmem := List.mem_eraseDups.mp (List.mem_of_getElem? hplace.key_at)
  obtain ⟨row, -, rfl⟩ := List.mem_map.mp hmem
  rw [Layout.key, List.length_map, h.resolves.groups.length_eq]

/-- The key and the label are read back from the target. -/
theorem readTarget?_target (h : FansOut d t l out) (hplace : l.Places t n i key label)
    (hs : out[n]? = some s) (hkey : ¬HasSpace key) :
    readTarget? d.groupBy.length s.target.toList = some (key, label) := by
  have hlen := h.length_key hplace
  rw [h.target_eq hplace hs]
  split
  · rename_i hgroups
    rw [hgroups] at hlen ⊢
    obtain rfl := List.length_eq_zero_iff.mp hlen
    rw [List.length_nil, readTarget?, String.ofList_toList]
  · rename_i hgroups
    have hne : key ≠ [] := by
      rintro rfl
      exact hgroups (List.length_eq_zero_iff.mp hlen.symm)
    rw [← hlen]
    exact readTarget?_joined hne hkey label

/-- A key belongs to one group. -/
theorem group_unique {n' i' : Nat} {label' : String} (hplace : l.Places t n i key label)
    (hplace' : l.Places t n' i' key label') : i = i' := by
  have hlt := (List.getElem?_eq_some_iff.mp hplace.key_at).1
  exact (List.getElem?_inj hlt (nodup_eraseDups _)).mp (hplace.key_at.trans hplace'.key_at.symm)

end FansOut

/-- Two series with one target are of one group and have one label, unless a part of a key has a
space in it. A key without spaces and the label are read back from the target. -/
theorem targets_tellApart {d : Description} {t : Table} {out : List Series}
    (h : transform d t = .ok out) :
    ∃ l, (t.rows ≠ [] → Layout.resolve d t = .ok l ∧ FansOut d t l out) ∧
      (∀ n < out.length, ∃ i key label, l.Places t n i key label) ∧
      (∀ n i key label s n' i' key' label' s', l.Places t n i key label → out[n]? = some s →
        l.Places t n' i' key' label' → out[n']? = some s' → s.target = s'.target →
          i = i' ∧ label = label' ∨ HasSpace key ∨ HasSpace key') ∧
      ∀ n i key label s, l.Places t n i key label → out[n]? = some s → ¬HasSpace key →
        readTarget? d.groupBy.length s.target.toList = some (key, label) := by
  by_cases hrows : t.rows = []
  · rw [transform, if_pos hrows] at h
    cases h
    exact ⟨⟨0, [], []⟩, absurd hrows, by simp, by simp, by simp⟩
  · obtain ⟨l, -, hresolve, -⟩ := (transform_eq_ok_iff hrows).mp h
    have hl := fansOut_of_transform hrows hresolve h
    refine ⟨l, fun _ => ⟨hresolve, hl⟩, fun n => hl.exists_places, ?_, ?_⟩
    · intro n i key label s n' i' key' label' s' hplace hs hplace' hs' htarget
      by_cases hkey : HasSpace key
      · exact .inr (.inl hkey)
      by_cases hkey' : HasSpace key'
      · exact .inr (.inr hkey')
      have hread := hl.readTarget?_target hplace hs hkey
      rw [htarget, hl.readTarget?_target hplace' hs' hkey'] at hread
      obtain ⟨rfl, rfl⟩ := Prod.mk.inj (Option.some.inj hread)
      exact .inl ⟨FansOut.group_unique hplace hplace', rfl⟩
    · exact fun n i key label s hplace hs => hl.readTarget?_target hplace hs

def valuesByPlace : Description := { mode := .select, groupBy := ["host", "dc"] }

/-- Parts that are empty or end with a colon, and a label with both separators in it. Two rows have
keys with spaces. -/
def colonsAndSpaces : Table :=
  ⟨["time", "host", "dc", "a: b"],
    [[.int 1, .text "x:", .null, .int 10], [.int 2, .null, .text "x:", .int 20],
      [.int 3, .text "u v", .text "w", .int 30], [.int 4, .text "u", .text "v w", .int 40]]⟩

def colonSeries : List Series :=
  [⟨"x: : a: b", [⟨.int 10, 1⟩]⟩, ⟨" x:: a: b", [⟨.int 20, 2⟩]⟩, ⟨"u v w: a: b", [⟨.int 30, 3⟩]⟩,
    ⟨"u v w: a: b", [⟨.int 40, 4⟩]⟩]

theorem targets_tellApart_colons :
    transform valuesByPlace colonsAndSpaces = .ok colonSeries ∧
      readTarget? 2 "x: : a: b".toList = some (["x:", ""], "a: b") ∧
      readTarget? 2 " x:: a: b".toList = some (["", "x:"], "a: b") ∧
      (HasSpace ["u v", "w"] ∨ HasSpace ["u", "v w"]) := by
  have h : transform valuesByPlace colonsAndSpaces = .ok colonSeries := rfl
  obtain ⟨l, hl, -, happart, hread⟩ := targets_tellApart h
  obtain ⟨hresolve, -⟩ := hl (List.cons_ne_nil _ _)
  cases hresolve
  have hspaces : ¬HasSpace ["x:", ""] ∧ ¬HasSpace ["", "x:"] := by simp [HasSpace]
  refine ⟨h, hread 0 0 _ _ _ ⟨rfl, 0, _, rfl, rfl, rfl⟩ rfl hspaces.1,
    hread 1 1 _ _ _ ⟨rfl, 0, _, rfl, rfl, rfl⟩ rfl hspaces.2, ?_⟩
  have hsame := happart 2 2 _ _ _ 3 3 _ _ _ ⟨rfl, 0, _, rfl, rfl, rfl⟩ rfl
    ⟨rfl, 0, _, rfl, rfl, rfl⟩ rfl rfl
  exact hsame.resolve_left (by decide)

end PanelSource
