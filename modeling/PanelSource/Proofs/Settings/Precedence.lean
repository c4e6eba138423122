import PanelSource.Proofs.Settings.Keys
import PanelSource.Proofs.Settings.Places

/-! # Which layer a setting comes from

The command line, a variable of the environment, the one file that is consulted and the built-in
values, in this order, each setting by itself. -/
namespace PanelSource.Settings

namespace Key

/-- The last variable with the name. -/
def inEnvironment (env : List (String × String)) (k : Key) : Option Setting :=
  ((env.filter fun v => Text.lowerAscii v.1 = k.variableName).map Prod.snd).getLast?.map .text

def inFile (file : List (String × Setting)) (k : Key) : Option Setting :=
  (Setting.addLayer (.table []) file).at? k.part k.name

end Key

/-- A path leads to a setting, to its whole section, below the setting, or into the section by an
index. -/
def Key.Reached (k : Key) (path : List Setting.Step) : Prop :=
  path <+: k.path ∨ k.path <+: path ∨ ∃ i, [.name k.part, .index i] <+: path

/-- The file and the environment give settings one by one: no section as anything but a table, no
empty table for a setting, and no variable that reaches a setting but its own. -/
structure Leafwise (file : List (String × Setting)) (env : List (String × String)) : Prop where
  sections : ∀ f ∈ file, ∀ k : Key, Setting.Spares k.part (Setting.keyPath f.1) f.2
  leaves : ∀ k : Key, k.inFile file ≠ some (.table [])
  single : ∀ v ∈ env, ∀ f, ofVariable? v.1 v.2 = some f → ∀ k : Key,
    k.Reached (Setting.keyPath f.1) → Text.lowerAscii v.1 = k.variableName

theorem ofEnvironment_cons (v : String × String) (env : List (String × String)) :
    ofEnvironment (v :: env) = (ofVariable? v.1 v.2).toList ++ ofEnvironment env := by
  rw [ofEnvironment, List.filterMap_cons]
  cases ofVariable? v.1 v.2 <;> rfl

namespace Key
variable (k : Key)

theorem ofVariable?_of_name {name : String} (h : Text.lowerAscii name = k.variableName)
    (value : String) : ofVariable? name value = some (k.dotted, .text value) := by
  rw [ofVariable?, h]
  cases k <;> rfl

theorem keyPath_dotted : Setting.keyPath k.dotted = k.path := by cases k <;> rfl

theorem not_index_prefix (part : String) (i : Int) : ¬[.name part, .index i] <+: k.path := by
  intro h
  exact absurd (List.cons_prefix_cons.mp (List.cons_prefix_cons.mp h).2).1 nofun

/-- An entry for a setting leaves its section what it is. -/
theorem spares_dotted (value : Setting) :
    Setting.Spares k.part (Setting.keyPath k.dotted) value := by
  rw [keyPath_dotted]
  exact ⟨fun hpath => absurd (List.cons_eq_cons.mp hpath).2 nofun, k.not_index_prefix k.part⟩

theorem eq_of_path_eq {k k' : Key} (h : k.path = k'.path) : k = k' := by
  cases k <;> cases k' <;> first | rfl | exact absurd h (by decide)

/-- Of all settings a variable with the name of one reaches this one only. -/
theorem eq_of_reached_variable {k k' : Key} {v : String × String} {f : String × Setting}
    (hname : Text.lowerAscii v.1 = k.variableName) (hf : ofVariable? v.1 v.2 = some f)
    (h : k'.Reached (Setting.keyPath f.1)) : Text.lowerAscii v.1 = k'.variableName := by
  rw [k.ofVariable?_of_name hname] at hf
  cases hf
  rw [keyPath_dotted] at h
  have hlength : k.path.length = k'.path.length := rfl
  have hsame : k.path = k'.path := by
    rcases h with h | h | ⟨i, h⟩
    · exact h.eq_of_length hlength
    · exact (h.eq_of_length hlength.symm).symm
    · exact absurd h (k.not_index_prefix k'.part i)
  rw [hname, eq_of_path_eq hsame]

theorem at?_builtIn :
    (Setting.addLayer (.table []) Settings.builtIn).at? k.part k.name = k.builtIn := by
  cases k <;> decide +kernel

theorem bare_builtIn : ∀ s ∈ k.builtIn, s.Bare := by
  intro s hs
  cases k <;> cases hs <;> exact ⟨rfl, rfl⟩

theorem read_builtIn : k.read k.builtIn = some (k.value {}) := by cases k <;> rfl

theorem isTable_builtIn : ∃ s,
    (Setting.addLayer (.table []) Settings.builtIn).field? k.part = some s ∧ s.IsTable := by
  have hpart : ∃ k' : Key, k'.part = k.part ∧ ∃ value, k'.builtIn = some value := by
    cases k with
    | connection | poolSize => exact ⟨connection, rfl, _, rfl⟩
    | host | port => exact ⟨host, rfl, _, rfl⟩
    | schema | timeColumn | groupInterval | timeFormat | valuesLimit =>
      exact ⟨timeColumn, rfl, _, rfl⟩
  obtain ⟨k', hk', value, hvalue⟩ := hpart
  exact hk' ▸ Setting.exists_part (k'.at?_builtIn.trans hvalue)

theorem reached_section : k.Reached [.name k.part] := .inl ⟨[.name k.name], rfl⟩

variable {k} {file : List (String × Setting)} {env : List (String × String)}

/-- A variable gives the setting that it names, and nothing else. -/
theorem given_of_variable (h : Leafwise file env) {v : String × String} (hv : v ∈ env) :
    ((ofVariable? v.1 v.2).toList.flatMap fun f =>
        Setting.given k.part k.name (Setting.keyPath f.1) f.2) =
      if Text.lowerAscii v.1 = k.variableName then [([], .text v.2)] else [] := by
  split
  · rename_i hname
    rw [k.ofVariable?_of_name hname, Option.toList_some, List.flatMap_singleton, keyPath_dotted]
    exact if_pos ⟨rfl, rfl⟩
  · rename_i hname
    cases hf : ofVariable? v.1 v.2 with
    | none => rfl
    | some f =>
      rw [Option.toList_some, List.flatMap_singleton]
      apply Setting.given_eq_nil
      · intro hpath
        exact hname (h.single v hv f hf k (hpath ▸ k.reached_section))
      · intro hpath
        exact hname (h.single v hv f hf k (.inr (.inl hpath)))

theorem spares_of_variable (h : Leafwise file env) {f : String × Setting}
    (hf : f ∈ ofEnvironment env) : Setting.Spares k.part (Setting.keyPath f.1) f.2 := by
  obtain ⟨v, hv, hf⟩ := List.mem_filterMap.mp hf
  by_cases hreached : k.Reached (Setting.keyPath f.1)
  · rw [k.ofVariable?_of_name (h.single v hv f hf k hreached)] at hf
    cases hf
    exact k.spares_dotted (.text v.2)
  · constructor
    · intro hpath
      exact absurd (hpath ▸ k.reached_section) hreached
    · intro i hpath
      exact absurd (.inr (.inr ⟨i, hpath⟩)) hreached

theorem given_ofEnvironment (h : Leafwise file env) :
    ((ofEnvironment env).flatMap fun f => Setting.given k.part k.name (Setting.keyPath f.1) f.2) =
      ((env.filter fun v => Text.lowerAscii v.1 = k.variableName).map Prod.snd).map
        fun s => ([], .text s) := by
  have hall : ∀ vs : List (String × String), vs ⊆ env →
      ((ofEnvironment vs).flatMap fun f =>
        Setting.given k.part k.name (Setting.keyPath f.1) f.2) =
      ((vs.filter fun v => Text.lowerAscii v.1 = k.variableName).map Prod.snd).map
        fun s => ([], .text s) := by
    intro vs hvs
    induction vs with
    | nil => rfl
    | cons v vs ih =>
      obtain ⟨hv, hvs⟩ := List.cons_subset.mp hvs
      rw [ofEnvironment_cons, List.flatMap_append, given_of_variable h hv, ih hvs, List.filter_cons]
      split <;> simp_all
  exact hall env (List.Subset.refl env)

end Key

/-- The tree of all layers but the command line. -/
def layered (file : List (String × Setting)) (env : List (String × String)) : Setting :=
  Setting.addLayer (Setting.addLayer (Setting.addLayer (.table []) builtIn) file)
    (ofEnvironment env)

section
variable {file : List (String × Setting)} {env : List (String × String)} (h : Leafwise file env)
include h

theorem sectioned_layered : Sectioned (layered file env) := by
  have htop : (Setting.table []).IsTable := ⟨[], rfl⟩
  refine ⟨((htop.addLayer _).addLayer _).addLayer _, fun k => ?_⟩
  apply Setting.isTable_part_addLayer fun f hf => Key.spares_of_variable h hf
  apply Setting.isTable_part_addLayer fun f hf => h.sections f hf k
  exact k.isTable_builtIn

/-- A setting in the tree is what its variable gives, or else the file, or else what is built in. -/
theorem at?_layered (k : Key) : (layered file env).at? k.part k.name =
    ((k.inEnvironment env).or (k.inFile file)).or k.builtIn := by
  have hfile : ∀ f ∈ file, Setting.Spares k.part (Setting.keyPath f.1) f.2 := fun f hf =>
    h.sections f hf k
  have henv : ∀ f ∈ ofEnvironment env, Setting.Spares k.part (Setting.keyPath f.1) f.2 :=
    fun f hf => Key.spares_of_variable h hf
  have halone := h.leaves k
  rw [Key.inFile, Setting.at?_addLayer hfile] at halone
  rw [layered, Setting.at?_addLayer henv, Key.given_ofEnvironment h, Setting.changed_texts,
    Setting.at?_addLayer hfile, Key.at?_builtIn, Setting.changed_eq_or k.bare_builtIn halone,
    Option.or_assoc, Key.inEnvironment, Key.inFile, Setting.at?_addLayer hfile]
  rfl

omit h in
theorem load_eq {formats : List FileFormat} {files : FileTree} {line : CommandLine}
    (hfile : fileLayer formats files line.config = .ok file) : load formats files env line =
      (ofTree? (layered file env)).elim (.error .illShaped) fun s => .ok (s.override line) := by
  simp only [load, hfile, bind, Except.bind, layered]
  split <;> rename_i htree <;> rw [htree] <;> rfl

variable {formats : List FileFormat} {files : FileTree} {line : CommandLine}
  (hfile : fileLayer formats files line.config = .ok file)
include hfile

theorem load_eq_ok_iff {s : Settings} : load formats files env line = .ok s ↔ ∀ k : Key, ∃ v,
    k.read (((k.inEnvironment env).or (k.inFile file)).or k.builtIn) = some v ∧
      k.value s = (k.onLine line).getD v := by
  have htree (base : Settings) := ofTree?_eq_some_iff (sectioned_layered h) (s := base)
  simp only [at?_layered h] at htree
  rw [load_eq hfile]
  constructor
  · intro hload k
    cases hread : ofTree? (layered file env) with
    | none =>
      rw [hread] at hload
      cases hload
    | some base =>
      rw [hread] at hload
      cases hload
      exact ⟨k.value base, (htree base).mp hread k, k.value_override line base⟩
  · intro hvalues
    choose values hread hvalue using hvalues
    obtain ⟨base, hbase⟩ := Key.exists_settings values
    have hsome : ofTree? (layered file env) = some base := by
      rw [htree]
      intro k
      rw [hbase, hread]
    have hs : base.override line = s := by
      apply Key.eq_of_value_eq
      intro k
      rw [k.value_override, hbase, hvalue]
    rw [hsome, Option.elim_some, hs]

theorem load_eq_illShaped_iff :
    load formats files env line = .error .illShaped ↔ ∃ (k : Key) (value : Setting),
      (k.inEnvironment env).or (k.inFile file) = some value ∧ k.read (some value) = none := by
  have htree := ofTree?_eq_none_iff (sectioned_layered h)
  simp only [at?_layered h] at htree
  have hload : load formats files env line = .error .illShaped ↔
      ofTree? (layered file env) = none := by
    rw [load_eq hfile]
    cases ofTree? (layered file env) <;> simp
  rw [hload, htree]
  apply exists_congr
  intro k
  cases (k.inEnvironment env).or (k.inFile file) with
  | none => simp [k.read_builtIn]
  | some value => simp

end

/-- Settings come from the layers one by one, whatever formats there are. A file named on the
command line is the only one that counts, and its absence is a fault; otherwise only the first place
that exists counts. Each setting is what the command line says, or else its variable, or else the
file, or else what is built in. What its variable gives, or else the file, must be readable,
whatever the command line says, and nothing below that need be. -/
theorem load_by_layers (formats : List FileFormat) (files : FileTree)
    (env : List (String × String)) (line : CommandLine) :
    (∀ path, line.config = some path →
      (∀ files' : FileTree, files'.found formats path = files.found formats path →
        load formats files' env line = load formats files env line) ∧
      ((∀ x ∈ files.found formats path, x = none) →
        load formats files env line = .error (.noFile path))) ∧
    (line.config = none →
      (∀ before place behind, places = before ++ place :: behind →
        (∀ p ∈ before, files.leadsTo p = false) → files.leadsTo place = true →
        fileLayer formats files none = readPlace files place ∧
          ∀ files' : FileTree, (∀ p ∈ before, files'.leadsTo p = false) →
            files'.leadsTo place = true → files'.found [.toml] place = files.found [.toml] place →
            load formats files' env line = load formats files env line) ∧
      ((∀ p ∈ places, files.leadsTo p = false) → fileLayer formats files none = .ok [])) ∧
    (∀ k : Key, k.read k.builtIn = some (k.value {})) ∧
    (∀ e, fileLayer formats files line.config = .error e →
      load formats files env line = .error e) ∧
    ∀ file, fileLayer formats files line.config = .ok file → Leafwise file env →
      (∀ s, load formats files env line = .ok s ↔ ∀ k : Key, ∃ v,
        k.read (((k.inEnvironment env).or (k.inFile file)).or k.builtIn) = some v ∧
          k.value s = (k.onLine line).getD v) ∧
      (load formats files env line = .error .illShaped ↔ ∃ (k : Key) (value : Setting),
        (k.inEnvironment env).or (k.inFile file) = some value ∧ k.read (some value) = none) := by
  refine ⟨?_, ?_, Key.read_builtIn, ?_, ?_⟩
  · intro path hpath
    constructor
    · intro files' h
      apply load_congr
      rw [hpath]
      exact readNamed_congr h
    · intro h
      apply load_of_fault
      rw [hpath]
      exact readNamed_of_absent h
  · intro hconfig
    refine ⟨?_, fileLayer_of_no_place⟩
    intro before place behind hplaces hbefore hplace
    have hfirst : fileLayer formats files none = readPlace files place :=
      fileLayer_of_first hplaces hbefore hplace
    refine ⟨hfirst, fun files' hbefore' hplace' h => ?_⟩
    apply load_congr
    rw [hconfig, hfirst, fileLayer_of_first hplaces hbefore' hplace', readPlace_congr h]
  · exact fun _ => load_of_fault
  · intro file hfile hleafwise
    exact ⟨fun _ => load_eq_ok_iff hleafwise hfile, load_eq_illShaped_iff hleafwise hfile⟩

def badPortText : String := "web.port = \"x\"\ndatasource.schema = \"doc\""

def badPortLayer : List (String × Setting) :=
  [("web", .table [("port", .text "x")]), ("datasource", .table [("schema", .text "doc")])]

/-- A port that is none, and a file at a later place that is no document. -/
def badPort : FileTree :=
  ⟨["srv"], [(["srv", "config.toml"], badPortText), (["srv", "config", "config.toml"], "[")]⟩

theorem readPlace_badPort : readPlace badPort "config.toml" = .ok badPortLayer := by
  have hread : badPort.read? "config.toml" = some badPortText := rfl
  have hlayer : FileFormat.toml.read? badPortText = some badPortLayer := by decide +kernel
  rw [readPlace, hread]
  dsimp only
  rw [readText, hlayer, Option.elim_some]

theorem sections_badPort :
    ∀ f ∈ badPortLayer, ∀ k : Key, Setting.Spares k.part (Setting.keyPath f.1) f.2 := by
  have hweb : Setting.keyPath "web" = [.name "web"] := rfl
  have hdatasource : Setting.keyPath "datasource" = [.name "datasource"] := rfl
  intro f hf k
  simp only [badPortLayer, List.mem_cons, List.not_mem_nil, or_false] at hf
  rcases hf with rfl | rfl
  · exact ⟨fun _ => ⟨_, rfl⟩, fun i h => by simpa [hweb] using h.length_le⟩
  · exact ⟨fun _ => ⟨_, rfl⟩, fun i h => by simpa [hdatasource] using h.length_le⟩

theorem inFile_badPort (k : Key) : k.inFile badPortLayer =
    match k with
    | .port => some (.text "x")
    | .schema => some (.text "doc")
    | _ => none := by
  rw [Key.inFile, Setting.at?_addLayer fun f hf => sections_badPort f hf k]
  cases k <;> rfl

def portVariable : List (String × String) := [("CRATE_DS__WEB__PORT", "4000")]

theorem lowerAscii_portVariable :
    Text.lowerAscii "CRATE_DS__WEB__PORT" = Key.port.variableName := rfl

theorem inEnvironment_portVariable (k : Key) : k.inEnvironment portVariable =
    if k = .port then some (.text "4000") else none := by
  have hname : Key.port.variableName = k.variableName ↔ k = .port := by cases k <;> decide
  rw [Key.inEnvironment, portVariable, List.filter_cons, lowerAscii_portVariable]
  simp only [hname, decide_eq_true_eq]
  split <;> rfl

theorem leafwise_badPort {env : List (String × String)} (henv : env ⊆ portVariable) :
    Leafwise badPortLayer env where
  sections := sections_badPort
  leaves k := by
    rw [inFile_badPort]
    split <;> simp
  single v hv _ hf _ := by
    obtain rfl := List.mem_singleton.mp (henv hv)
    exact Key.eq_of_reached_variable lowerAscii_portVariable hf

/-- A variable hides the port of the file, the command line does not. -/
theorem load_by_layers_badPort :
    load [.toml, .json] badPort portVariable { host := some "0.0.0.0" } =
        .ok { web := ⟨"0.0.0.0", 4000⟩, datasource := { schema := some "doc" } } ∧
      load [.toml, .json] badPort [] { port := some 80 } = .error .illShaped ∧
      load [.toml, .json] badPort portVariable { config := some "absent" } =
        .error (.noFile "absent") := by
  have hfile : fileLayer [.toml, .json] badPort none = .ok badPortLayer := by
    have hplaces := (load_by_layers [.toml, .json] badPort [] {}).2.1 rfl
    rw [(hplaces.1 [] _ _ rfl nofun rfl).1, readPlace_badPort]
  have hvariable := leafwise_badPort (List.Subset.refl portVariable)
  have halone := leafwise_badPort (List.nil_subset portVariable)
  refine ⟨?_, ?_, ?_⟩
  · obtain ⟨hok, -⟩ := (load_by_layers [.toml, .json] badPort portVariable
      { host := some "0.0.0.0" }).2.2.2.2 _ hfile hvariable
    refine (hok _).mpr fun k => ?_
    rw [inFile_badPort, inEnvironment_portVariable]
    have hport : Setting.countBelow? 65536 (.text "4000") = some 4000 := rfl
    cases k with
    | port =>
      rw [if_pos rfl, Option.some_or, Option.some_or]
      exact ⟨(4000 : Nat), hport, rfl⟩
    | _ => exact ⟨_, rfl, rfl⟩
  · obtain ⟨-, hshape⟩ :=
      (load_by_layers [.toml, .json] badPort [] { port := some 80 }).2.2.2.2 _ hfile halone
    refine hshape.mpr ⟨.port, .text "x", ?_, ?_⟩
    · rw [inFile_badPort]
      rfl
    · rfl
  · apply ((load_by_layers [.toml, .json] badPort portVariable
      { config := some "absent" }).1 "absent" rfl).2
    decide

end PanelSource.Settings
