import PanelSource.Launch
import PanelSource.Proofs.Settings.Precedence

/-! # The pool that is asked for and the pool that is made

Every 64-bit count is let through as the size of the pool, but the pool is made with what a 32-bit
number keeps of it. Sizes from 1 to the greatest 32-bit number are kept; greater ones are cut, and
where nothing is left the program crashes. -/
namespace PanelSource

namespace Settings

theorem poolSize_lt_of_ofTree? {tree : Setting} {s : Settings} (h : ofTree? tree = some s) :
    s.database.poolSize < UInt64.size := by
  obtain ⟨database, -, h⟩ := Option.bind_eq_some_iff.mp h
  obtain ⟨d, hread, h⟩ := Option.bind_eq_some_iff.mp h
  obtain ⟨_, -, h⟩ := Option.bind_eq_some_iff.mp h
  obtain ⟨_, -, h⟩ := Option.bind_eq_some_iff.mp h
  obtain ⟨_, -, h⟩ := Option.bind_eq_some_iff.mp h
  obtain ⟨_, -, h⟩ := Option.bind_eq_some_iff.mp h
  cases h
  obtain ⟨_, -, hread⟩ := Option.bind_eq_some_iff.mp hread
  obtain ⟨_, -, hread⟩ := Option.bind_eq_some_iff.mp hread
  obtain ⟨size, -, hread⟩ := Option.bind_eq_some_iff.mp hread
  obtain ⟨n, hn, hread⟩ := Option.bind_eq_some_iff.mp hread
  cases hread
  exact Setting.count?_lt hn

variable {formats : List FileFormat} {files : FileTree} {env : List (String × String)}
  {line : CommandLine} {s : Settings}

theorem poolSize_lt_of_load (h : load formats files env line = .ok s) :
    s.database.poolSize < UInt64.size := by
  cases hfile : fileLayer formats files line.config with
  | error e =>
    rw [load_of_fault hfile] at h
    cases h
  | ok file =>
    rw [load_eq hfile] at h
    cases hread : ofTree? (layered file env) with
    | none =>
      rw [hread] at h
      cases h
    | some base =>
      rw [hread] at h
      cases h
      have hbase : base.database.poolSize < UInt64.size := poolSize_lt_of_ofTree? hread
      exact hbase

namespace Key

theorem leafwise_of_variable {k : Key} {name : String}
    (hname : Text.lowerAscii name = k.variableName) (value : String) :
    Leafwise [] [(name, value)] where
  sections := nofun
  leaves _ := nofun
  single v hv _ hf _ := by
    obtain rfl := List.mem_singleton.mp hv
    exact eq_of_reached_variable hname hf

theorem inEnvironment_of_variable {k : Key} {name : String}
    (hname : Text.lowerAscii name = k.variableName) (value : String) (k' : Key) :
    k'.inEnvironment [(name, value)] = if k' = k then some (.text value) else none := by
  have hkeys : k.variableName = k'.variableName ↔ k' = k := by
    refine ⟨fun hsame => eq_of_path_eq ?_, fun hsame => hsame ▸ rfl⟩
    have hgiven := k'.ofVariable?_of_name (hname.trans hsame) value
    rw [k.ofVariable?_of_name hname, Option.some_inj, Prod.mk.injEq] at hgiven
    rw [← keyPath_dotted, ← keyPath_dotted, hgiven.1]
  rw [inEnvironment, List.filter_cons, hname]
  simp only [hkeys, decide_eq_true_eq]
  split <;> rfl

end Key

theorem lowerAscii_natText (n : Nat) : Text.lowerAscii (Text.natText n) = Text.natText n := by
  have hlower : ∀ c : Char, c.isDigit = true → c.toLower = c := by
    intro c hc
    have hval : c.toNat ≤ 57 := by
      simp only [Char.isDigit, Bool.and_eq_true, decide_eq_true_eq, UInt32.le_iff_toNat_le] at hc
      exact hc.2
    have hupper : ¬(c.val ≥ 'A'.val ∧ c.val ≤ 'Z'.val) := by
      rintro ⟨hA, -⟩
      rw [ge_iff_le, UInt32.le_iff_toNat_le] at hA
      exact absurd (Nat.le_trans hA hval) (by decide)
    exact dif_neg hupper
  have hdigits := Text.all_isDigit_toDigits n
  rw [List.all_eq_true] at hdigits
  rw [Text.lowerAscii, Text.natText, String.toList_ofList,
    List.map_congr_left fun c hc => hlower c (hdigits c hc), List.map_id']

theorem countOfText?_natText {n : Nat} (h : n < UInt64.size) :
    Setting.countOfText? (Text.natText n) = some n := by
  have hread : Text.unsigned? (Text.natText n).toList = some n := by
    rw [Text.natText, String.toList_ofList]
    exact Text.unsigned?_toDigits n
  have hword {s : String} (hs : Text.unsigned? s.toList = none) : Text.natText n ≠ s := by
    rintro rfl
    rw [hread] at hs
    cases hs
  rw [Setting.countOfText?, lowerAscii_natText]
  split
  case h_7 =>
    rw [Text.below?, hread]
    exact Option.filter_some_pos (decide_eq_true h)
  all_goals
    rename_i heq
    exact absurd heq (hword rfl)

/-- The variable for the size of the pool. -/
def poolVariable (size : String) : List (String × String) :=
  [("CRATE_DS__DATABASE__POOL_SIZE", size)]

/-- Where no file is consulted a variable alone can give the pool every size of 64 bits. -/
theorem load_poolVariable {n : Nat} (hn : n < UInt64.size) (hconfig : line.config = none)
    (hplaces : ∀ p ∈ places, files.leadsTo p = false) :
    load formats files (poolVariable (Text.natText n)) line =
      .ok (override line { database := { poolSize := n } }) := by
  have hname : Text.lowerAscii "CRATE_DS__DATABASE__POOL_SIZE" = Key.poolSize.variableName := rfl
  have hfile : fileLayer formats files line.config = .ok [] := by
    rw [hconfig]
    exact fileLayer_of_no_place hplaces
  refine (load_eq_ok_iff (Key.leafwise_of_variable hname _) hfile).mpr fun k => ?_
  have hinFile : k.inFile [] = none := rfl
  rw [Key.inEnvironment_of_variable hname, hinFile, Option.or_none, k.value_override]
  refine ⟨k.value { database := { poolSize := n } }, ?_, rfl⟩
  cases k with
  | poolSize =>
    have hread (x : Setting) : Key.poolSize.read (some x) = x.count? := rfl
    rw [if_pos rfl, Option.some_or, hread, Setting.count?]
    exact countOfText?_natText hn
  | _ => rfl

end Settings

namespace Launch
open Settings

/-- The pool is made as large as it is asked to be, and it can be made. -/
def ServesPool (s : Settings) : Prop := poolLimit s = s.database.poolSize ∧ 1 ≤ poolLimit s

theorem servesPool_iff {s : Settings} :
    ServesPool s ↔ 1 ≤ s.database.poolSize ∧ s.database.poolSize < UInt32.size := by
  have hsize : UInt32.size = 4294967296 := rfl
  rw [ServesPool, poolLimit, hsize]
  omega

theorem poolLimit_lt_iff {s : Settings} :
    poolLimit s < s.database.poolSize ↔ UInt32.size ≤ s.database.poolSize := by
  have hsize : UInt32.size = 4294967296 := rfl
  rw [poolLimit, hsize]
  omega

theorem ofPool_ne_crash (m : Machine) (s : Settings) (before events : List Event) :
    ofPool m s before ≠ ended .crash events := by
  unfold ofPool
  cases m.listen s.web <;> nofun

theorem ofSettings_crash_iff {m : Machine} {s : Settings} :
    (∃ events, ofSettings m s = ended .crash events) ↔
      m.opens s.database.connection = true ∧ UInt32.size ∣ s.database.poolSize := by
  have hlimit : UInt32.size ∣ s.database.poolSize ↔ poolLimit s = 0 := Nat.dvd_iff_mod_eq_zero
  rw [ofSettings, hlimit]
  by_cases hopens : m.opens s.database.connection = true
  · by_cases hnone : poolLimit s = 0
    · simp [hopens, hnone]
    · simp [hopens, hnone, ofPool_ne_crash]
  · simp [hopens]

theorem ofLine_crash_iff {m : Machine} {line : CommandLine} {s : Settings}
    (h : m.settings line = .ok s) :
    (∃ events, ofLine m line = ended .crash events) ↔
      m.opens s.database.connection = true ∧ UInt32.size ∣ s.database.poolSize := by
  rw [ofLine, h]
  exact ofSettings_crash_iff

theorem ofSettings_poolLimit (m : Machine) (s : Settings) :
    ofSettings m { s with database := { s.database with poolSize := poolLimit s } } =
      ofSettings m s := by
  have hlimit : poolLimit { s with database := { s.database with poolSize := poolLimit s } } =
      poolLimit s := Nat.mod_mod _ _
  unfold ofSettings
  rw [hlimit]
  rfl

/-- Settings that were let through ask for a pool of any size of 64 bits, and where no file is
consulted a variable can ask for each. The pool they ask for is served exactly for the sizes of 32
bits from 1 on. Other sizes are cut without a report; on those of which nothing is left the program
crashes as soon as the database is open, and on no others. -/
theorem pool_served_iff {m : Machine} {line : CommandLine} {s : Settings}
    (hload : m.settings line = .ok s) :
    s.database.poolSize < UInt64.size ∧
      (ServesPool s ↔ 1 ≤ s.database.poolSize ∧ s.database.poolSize < UInt32.size) ∧
      (poolLimit s < s.database.poolSize ↔ UInt32.size ≤ s.database.poolSize) ∧
      (∀ words, CommandLine.read words = .ok line →
        start m words =
            ofSettings m { s with database := { s.database with poolSize := poolLimit s } } ∧
          ((∃ events, start m words = ended .crash events) ↔
            m.opens s.database.connection = true ∧ UInt32.size ∣ s.database.poolSize)) ∧
      (line.config = none → (∀ p ∈ places, m.files.leadsTo p = false) → ∀ n < UInt64.size,
        load m.formats m.files (poolVariable (Text.natText n)) line =
          .ok (override line { database := { poolSize := n } })) := by
  refine ⟨poolSize_lt_of_load hload, servesPool_iff, poolLimit_lt_iff, fun words hwords => ?_,
    fun hconfig hplaces n hn => load_poolVariable hn hconfig hplaces⟩
  have hstart : start m words = ofLine m line := by rw [start, hwords]
  have hline : ofLine m line = ofSettings m s := by rw [ofLine, hload]
  rw [hstart]
  exact ⟨hline.trans (ofSettings_poolLimit m s).symm, ofLine_crash_iff hload⟩

/-- A machine without files, where one variable asks for a pool. -/
def asking (size : String) : Machine where
  formats := [.toml, .json]
  files := ⟨[], []⟩
  directories := []
  environment := poolVariable size
  bind _ := none
  catalog := ⟨[]⟩

def memoryLine : CommandLine := { database := some ":memory:" }

theorem read_memoryLine : CommandLine.read ["--database", ":memory:"] = .ok memoryLine := rfl

theorem load_asking {n : Nat} (hn : n < UInt64.size) :
    (asking (Text.natText n)).settings memoryLine = .ok { database := ⟨":memory:", n⟩ } :=
  have hplaces : ∀ p ∈ places, FileTree.leadsTo ⟨[], []⟩ p = false := by decide
  load_poolVariable hn rfl hplaces

/-- A pool of 4 connections is served. -/
theorem pool_served_iff_four :
    ServesPool { database := ⟨":memory:", 4⟩ } ∧
      ¬∃ events, start (asking "4") ["--database", ":memory:"] = ended .crash events := by
  obtain ⟨-, hserves, -, hruns, -⟩ :=
    pool_served_iff (m := asking (Text.natText 4)) (load_asking (by decide))
  refine ⟨hserves.mpr (by decide), fun hcrash => ?_⟩
  obtain ⟨-, hdvd⟩ := (hruns _ read_memoryLine).2.mp hcrash
  exact absurd hdvd (by decide)

/-- 4294967296 connections are asked for and let through, and the program crashes. One connection
more is asked for, and the pool has one. -/
theorem greatPool_crashes :
    (asking "4294967296").settings memoryLine =
        .ok { database := ⟨":memory:", 4294967296⟩ } ∧
      poolLimit { database := ⟨":memory:", 4294967296⟩ } = 0 ∧
      start (asking "4294967296") ["--database", ":memory:"] =
        ended .crash [.openingPool ":memory:"] ∧
      (asking "4294967297").settings memoryLine =
        .ok { database := ⟨":memory:", 4294967297⟩ } ∧
      poolLimit { database := ⟨":memory:", 4294967297⟩ } = 1 := by
  have hgreat : (asking "4294967296").settings memoryLine =
      .ok { database := ⟨":memory:", 4294967296⟩ } := load_asking (n := 4294967296) (by decide)
  refine ⟨hgreat, rfl, ?_, load_asking (n := 4294967297) (by decide), rfl⟩
  rw [start, read_memoryLine]
  simp only [ofLine, hgreat]
  rfl

end Launch
end PanelSource
