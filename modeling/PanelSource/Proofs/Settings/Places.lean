import Mathlib.Data.List.Basic
import PanelSource.Settings.Load

/-! # The file that is consulted

Of all files only one is consulted: the one that the command line names, or the one at the first
place that exists. -/
namespace PanelSource

/-- What is found at a path, and at the path with each of the extensions. -/
def FileTree.found (t : FileTree) (formats : List FileFormat) (path : String) :
    List (Option String) :=
  t.read? path :: (FileFormat.extended formats).map fun f => t.readExtended? path f.2

namespace Settings

variable {formats : List FileFormat} {files files' : FileTree} {path : String}

theorem readExtended_congr
    (h : ∀ f ∈ FileFormat.extended formats,
      files'.readExtended? path f.2 = files.readExtended? path f.2) :
    readExtended formats files' path = readExtended formats files path := by
  rw [readExtended, readExtended]
  have hfound : ∀ candidates ⊆ FileFormat.extended formats,
      (candidates.findSome? fun f => (files'.readExtended? path f.2).map (f.1, ·)) =
        candidates.findSome? fun f => (files.readExtended? path f.2).map (f.1, ·) := by
    intro candidates hsubset
    induction candidates with
    | nil => rfl
    | cons f candidates ih =>
      obtain ⟨hf, hrest⟩ := List.cons_subset.mp hsubset
      rw [List.findSome?_cons, List.findSome?_cons, h f hf, ih hrest]
  rw [hfound _ (List.Subset.refl _)]

theorem readExtended_of_absent
    (h : ∀ f ∈ FileFormat.extended formats, files.readExtended? path f.2 = none) :
    readExtended formats files path = .error (.noFile path) := by
  have hfound : (FileFormat.extended formats).findSome?
      (fun f => (files.readExtended? path f.2).map (f.1, ·)) = none := by
    rw [List.findSome?_eq_none_iff]
    intro f hf
    rw [h f hf, Option.map_none]
  rw [readExtended, hfound]

theorem readNamed_congr (h : files'.found formats path = files.found formats path) :
    readNamed formats files' path = readNamed formats files path := by
  rw [FileTree.found, FileTree.found, List.cons_eq_cons, List.map_inj_left] at h
  rw [readNamed, readNamed, h.1, readExtended_congr h.2]

/-- A named file that there is not is a fault. -/
theorem readNamed_of_absent (h : ∀ x ∈ files.found formats path, x = none) :
    readNamed formats files path = .error (.noFile path) := by
  rw [FileTree.found, List.forall_mem_cons, List.forall_mem_map] at h
  rw [readNamed, h.1]
  exact readExtended_of_absent h.2

theorem readPlace_congr (h : files'.found [.toml] path = files.found [.toml] path) :
    readPlace files' path = readPlace files path := by
  rw [FileTree.found, FileTree.found, List.cons_eq_cons, List.map_inj_left] at h
  rw [readPlace, readPlace, h.1, readExtended_congr h.2]

/-- Of the places the first one that exists is read. -/
theorem fileLayer_of_first {before behind : List String} {place : String}
    (hplaces : places = before ++ place :: behind) (hbefore : ∀ p ∈ before, files.leadsTo p = false)
    (hplace : files.leadsTo place = true) :
    fileLayer formats files none = readPlace files place := by
  have hnone : before.find? files.leadsTo = none := by
    rw [List.find?_eq_none]
    intro p hp
    rw [hbefore p hp]
    exact Bool.false_ne_true
  rw [fileLayer, hplaces, List.find?_append, hnone, Option.none_or, List.find?_cons_of_pos hplace]

theorem fileLayer_of_no_place (h : ∀ p ∈ places, files.leadsTo p = false) :
    fileLayer formats files none = .ok [] := by
  have hnone : places.find? files.leadsTo = none := by
    rw [List.find?_eq_none]
    intro p hp
    rw [h p hp]
    exact Bool.false_ne_true
  rw [fileLayer, hnone]

theorem load_congr {env : List (String × String)} {line : CommandLine}
    (h : fileLayer formats files' line.config = fileLayer formats files line.config) :
    load formats files' env line = load formats files env line := by rw [load, load, h]

theorem load_of_fault {env : List (String × String)} {line : CommandLine} {e : SettingsError}
    (h : fileLayer formats files line.config = .error e) :
    load formats files env line = .error e := by
  rw [load, h]
  rfl

end Settings
end PanelSource
