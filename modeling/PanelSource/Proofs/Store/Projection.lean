import PanelSource.Proofs.Query.Unambiguous
import PanelSource.Proofs.Stages
import PanelSource.Store.Catalog

/-! # Whole columns of a stored table

A selection of columns by their names gives them as they are stored. A catalog understands such a
selection where no name needs quotes. -/
namespace PanelSource
open Cutting PlainText

namespace StoredTable

/-- The cell of a row in the first column of a name. -/
def cell (t : StoredTable) (row : List Cell) (name : String) : Cell :=
  (row[t.cols.idxOf name]?).getD .null

/-- Columns as they are stored, in the order in which they are named. -/
def listing (t : StoredTable) (names : List String) : Rowset :=
  ⟨names, t.rows.map fun row => names.map (t.cell row)⟩

def listingSql (t : StoredTable) (names : List String) : String :=
  "SELECT " ++ ",".intercalate names ++ " FROM " ++ t.name

end StoredTable

/-- What is selected is the answer, unless a cell of it overflows. -/
theorem Store.answer_ofEngine {σ : Type} {engine : Engine σ} {statement : String} {x : σ}
    {r : Rowset} (h : (engine statement x).1 = .ok r) :
    (Store.ofEngine engine statement x).1.answer = r.toTable?.elim (.error .overflow) .ok := by
  rw [ofEngine]
  dsimp only
  rw [h]
  rfl

/-- An engine lists the columns of a table, any of them and in any order. -/
def Engine.Lists {σ : Type} (engine : Engine σ) (x : σ) (t : StoredTable) : Prop :=
  ∀ names, names ≠ [] → (∀ name ∈ names, name ∈ t.cols) →
    (engine (t.listingSql names) x).1 = .ok (t.listing names)

/-- A name that can stand in a statement as it is. -/
structure Unquoted (s : String) : Prop where
  ne_nil : s.toList ≠ []
  all_nameChar : s.toList.all nameChar = true
  identifier : Lexeme.identifier? (.word s) = some s

namespace Lexeme

theorem isWordChar_of_nameChar {c : Char} (h : nameChar c = true) : isWordChar c = true := by
  rw [nameChar] at h
  rw [isWordChar, h, Bool.true_or]

theorem toNat_of_nameChar {c : Char} (h : nameChar c = true) : 48 ≤ c.toNat ∧ c.toNat ≤ 122 := by
  simp only [nameChar, Char.isAlphanum, Bool.or_eq_true, beq_iff_eq] at h
  rcases h with (hletter | hdigit) | rfl
  · have hrange := Cutting.toNat_of_isAlpha hletter
    omega
  · have hrange : 48 ≤ c.toNat ∧ c.toNat ≤ 57 := Char.isDigit_iff_toNat.mp hdigit
    omega
  · decide

theorem enter_nameChar {c : Char} (h : nameChar c = true) : enter c = ([], .inWord [c]) := by
  have hrange := toNat_of_nameChar h
  have hblank : Text.isBlank c = false := by
    simp only [Text.isBlank, Bool.or_eq_false_iff, Bool.and_eq_false_iff, decide_eq_false_iff_not,
      beq_eq_false_iff_ne]
    omega
  have hquote : ¬(c = '"' ∨ c = '\'') := by
    rintro (rfl | rfl)
    · exact absurd hrange.1 (by decide)
    · exact absurd hrange.1 (by decide)
  rw [enter, hblank, if_neg Bool.false_ne_true, if_neg hquote, if_pos (isWordChar_of_nameChar h)]

theorem scanFrom?_inWord {w : List Char} (hw : w.all nameChar = true) (read rest : List Char) :
    scanFrom? (.inWord read) (w ++ rest) = scanFrom? (.inWord (w.reverse ++ read)) rest := by
  induction w generalizing read with
  | nil => rfl
  | cons c w ih =>
    rw [List.all_cons, Bool.and_eq_true] at hw
    have hstep : step (.inWord read) c = ([], .inWord (c :: read)) :=
      if_pos (isWordChar_of_nameChar hw.1)
    rw [List.cons_append, scanFrom?, hstep, List.reverse_cons, List.append_assoc,
      List.singleton_append, ← ih hw.2 (c :: read)]
    simp

/-- A name is read up to where it ends. -/
theorem scanFrom?_name {s : String} (hne : s.toList ≠ []) (hs : s.toList.all nameChar = true)
    (rest : List Char) :
    scanFrom? .between (s.toList ++ rest) = scanFrom? (.inWord s.toList.reverse) rest := by
  obtain ⟨c, w, hcw⟩ := List.exists_cons_of_ne_nil hne
  rw [hcw, List.all_cons, Bool.and_eq_true] at hs
  have hstep : step .between c = ([], .inWord [c]) := enter_nameChar hs.1
  rw [hcw, List.cons_append, scanFrom?, hstep, List.reverse_cons, ← scanFrom?_inWord hs.2 [c]]
  simp

theorem ofWord_reverse (s : String) : ofWord s.toList.reverse = word s := by
  rw [ofWord, List.reverse_reverse, String.ofList_toList]

theorem scanFrom?_space (s : String) (rest : List Char) :
    scanFrom? (.inWord s.toList.reverse) (' ' :: rest) =
      (scanFrom? .between rest).map ([word s] ++ ·) := by
  have hstep : step (.inWord s.toList.reverse) ' ' = ([ofWord s.toList.reverse], .between) := rfl
  rw [scanFrom?, hstep, ofWord_reverse]

theorem scanFrom?_comma (s : String) (rest : List Char) :
    scanFrom? (.inWord s.toList.reverse) (',' :: rest) =
      (scanFrom? .between rest).map ([word s, sign ','] ++ ·) := by
  have hstep : step (.inWord s.toList.reverse) ',' =
      ([ofWord s.toList.reverse, sign ','], .between) := rfl
  rw [scanFrom?, hstep, ofWord_reverse]

/-- Names with commas between them. -/
def listed (name : String) : List String → List Lexeme
  | [] => [word name]
  | next :: names => word name :: sign ',' :: listed next names

theorem scanFrom?_listed {name : String} {names : List String}
    (h : ∀ n ∈ name :: names, Unquoted n) (rest : List Char) :
    scanFrom? .between ((",".intercalate (name :: names)).toList ++ ' ' :: rest) =
      (scanFrom? .between rest).map (listed name names ++ ·) := by
  induction names generalizing name with
  | nil =>
    have hname := h name List.mem_cons_self
    rw [String.intercalate_singleton, scanFrom?_name hname.ne_nil hname.all_nameChar,
      scanFrom?_space, listed]
  | cons next names ih =>
    rw [List.forall_mem_cons] at h
    have htext : (",".intercalate (name :: next :: names)).toList ++ ' ' :: rest =
        name.toList ++ ',' :: ((",".intercalate (next :: names)).toList ++ ' ' :: rest) := by
      simp [String.intercalate_cons_cons]
    rw [htext, scanFrom?_name h.1.ne_nil h.1.all_nameChar, scanFrom?_comma, ih h.2]
    simp [listed, Function.comp_def]

/-- The statement word by word. -/
theorem scan?_listingSql {t : StoredTable} {name : String} {names : List String}
    (htable : Unquoted t.name) (hnames : ∀ n ∈ name :: names, Unquoted n) :
    scan? (t.listingSql (name :: names)) =
      some (word "SELECT" :: (listed name names ++ [word "FROM", word t.name])) := by
  have htext : (t.listingSql (name :: names)).toList =
      "SELECT".toList ++ ' ' :: ((",".intercalate (name :: names)).toList ++ ' ' ::
        ("FROM".toList ++ ' ' :: (t.name.toList ++ []))) := by
    simp [StoredTable.listingSql]
  have hselect : "SELECT".toList.all nameChar = true := by decide
  have hfrom : "FROM".toList.all nameChar = true := by decide
  have hend : scanFrom? (.inWord t.name.toList.reverse) [] = some [word t.name] := by
    rw [scanFrom?, finish, ofWord_reverse]
  rw [scan?, htext, scanFrom?_name (by decide) hselect, scanFrom?_space, scanFrom?_listed hnames,
    scanFrom?_name (by decide) hfrom, scanFrom?_space,
    scanFrom?_name htable.ne_nil htable.all_nameChar, hend]
  simp

end Lexeme

namespace Selection
open Lexeme

theorem items?_listed {name : String} {names : List String}
    (h : ∀ n ∈ name :: names, Unquoted n) (rest : List Lexeme) :
    items? (listed name names ++ word "FROM" :: rest) =
      some ((name :: names).map .column, rest) := by
  induction names generalizing name with
  | nil =>
    have hname := (h name List.mem_cons_self).identifier
    have hkeyword : isKeyword "from" (word "FROM") = true := by decide
    simp [listed, items?, hkeyword, projected?, hname]
  | cons next names ih =>
    rw [List.forall_mem_cons] at h
    simp [listed, items?, ih h.2, projected?, h.1.identifier]

theorem ofStatement?_listingSql {t : StoredTable} {name : String} {names : List String}
    (htable : Unquoted t.name) (hnames : ∀ n ∈ name :: names, Unquoted n) :
    ofStatement? (t.listingSql (name :: names)) =
      some (.columns ((name :: names).map .column) none t.name none) := by
  rw [ofStatement?, scan?_listingSql htable hnames, Option.bind_some]
  have hkeyword : isKeyword "select" (word "SELECT") = true := by decide
  have hitems := items?_listed hnames [word t.name]
  have hbody : body? (listed name names ++ [word "FROM", word t.name]) =
      some (.columns ((name :: names).map .column) none t.name none) := by
    have hbranch : body? (listed name names ++ [word "FROM", word t.name]) =
        (items? (listed name names ++ [word "FROM", word t.name])).bind
          fun p => ofItems? p.1 p.2 := by
      cases names <;> rfl
    rw [hbranch, hitems]
    simp [ofItems?, table?, htable.identifier, limit?]
  simp [ofLexemes?, hkeyword, hbody]

end Selection

theorem sameName_self (name : String) : sameName name name = true := beq_self_eq_true _

theorem sameName_comm (a b : String) : sameName a b = sameName b a := Bool.beq_comm

namespace StoredTable
variable {t : StoredTable} (hdistinct : t.cols.Pairwise fun a b => sameName a b = false)
include hdistinct

/-- No other column has a name that counts as the same. -/
theorem position?_eq {name : String} (h : name ∈ t.cols) :
    t.position? name = some (t.cols.idxOf name) := by
  have hlt : t.cols.idxOf name < t.cols.length := List.idxOf_lt_length_iff.mpr h
  have hself : t.cols[t.cols.idxOf name] = name := List.getElem_idxOf hlt
  rw [position?, List.findIdx?_eq_some_iff_getElem]
  refine ⟨hlt, ?_, ?_⟩
  · rw [hself]
    exact sameName_self name
  · intro j hj
    have hother := List.pairwise_iff_getElem.mp hdistinct j _ (Nat.lt_trans hj hlt) hlt hj
    rw [hself, sameName_comm] at hother
    rw [hother]
    exact Bool.false_ne_true

theorem positions_eq {names : List String} (h : ∀ name ∈ names, name ∈ t.cols) :
    t.positions (names.map .column) = .ok (names.map t.cols.idxOf) := by
  induction names with
  | nil => rfl
  | cons name names ih =>
    rw [List.forall_mem_cons] at h
    rw [List.map_cons, positions, position?_eq hdistinct h.1]
    dsimp only
    rw [ih h.2]
    rfl

omit hdistinct in
theorem project_eq {names : List String} (h : ∀ name ∈ names, name ∈ t.cols) :
    t.project (names.map t.cols.idxOf) none = t.listing names := by
  have hcols : (names.map t.cols.idxOf).map (fun i => (t.cols[i]?).getD "") = names := by
    rw [List.map_map]
    refine (List.map_congr_left fun name hname => ?_).trans (List.map_id names)
    have hlt := List.idxOf_lt_length_iff.mpr (h name hname)
    simp [List.getElem?_eq_getElem hlt]
  rw [project, hcols, listing]
  simp only [limited, List.map_map]
  rfl

end StoredTable

namespace Catalog

/-- A catalog has a table under its name, the columns of the table have different names, and no name
needs quotes. -/
structure Has (c : Catalog) (t : StoredTable) : Prop where
  found : c.table? t.name = some t
  distinct : t.cols.Pairwise fun a b => sameName a b = false
  table : Unquoted t.name
  cols : ∀ name ∈ t.cols, Unquoted name

theorem engine_lists {c : Catalog} {t : StoredTable} (h : c.Has t) : engine.Lists c t := by
  intro names hne hnames
  obtain ⟨name, names, rfl⟩ := List.exists_cons_of_ne_nil hne
  have hselection := Selection.ofStatement?_listingSql h.table
    fun n hn => h.cols n (hnames n hn)
  have hselect : c.select (t.listingSql (name :: names)) = .ok (t.listing (name :: names)) := by
    rw [select, hselection]
    dsimp only
    rw [answer, requireSchema, h.found]
    dsimp only
    rw [StoredTable.positions_eq h.distinct hnames]
    exact congrArg Except.ok (StoredTable.project_eq hnames)
  rw [engine, hselect]
  rfl

end Catalog
end PanelSource
