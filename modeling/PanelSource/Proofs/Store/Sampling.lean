import PanelSource.Proofs.Store.Projection

/-! # The first rows of a stored column

A selection of one column may be capped at a number of rows. A catalog gives that many rows in the
order of insertion, and all of them without a cap. -/
namespace PanelSource
open Cutting PlainText

namespace StoredTable

def cappedSql (t : StoredTable) (column : String) (n : Nat) : String :=
  t.listingSql [column] ++ " LIMIT " ++ Text.natText n

end StoredTable

/-- An engine gives the first rows of a column, as many as a positive cap says, or all of them. -/
structure Engine.Samples {σ : Type} (engine : Engine σ) (x : σ) (t : StoredTable)
    (column : String) : Prop where
  whole : (engine (t.listingSql [column]) x).1.map Rowset.rows = .ok (t.listing [column]).rows
  capped : ∀ n, 0 < n → (engine (t.cappedSql column n) x).1.map Rowset.rows =
    .ok ((t.listing [column]).rows.take n)

namespace Lexeme

theorem nameChar_of_isDigit {c : Char} (h : c.isDigit = true) : nameChar c = true := by
  simp [nameChar, Char.isAlphanum, h]

theorem all_nameChar_natText (n : Nat) : (Text.natText n).toList.all nameChar = true := by
  rw [Text.natText, String.toList_ofList]
  exact all_mono (fun _ => nameChar_of_isDigit) (Text.all_isDigit_toDigits n)

theorem natText_ne_nil (n : Nat) : (Text.natText n).toList ≠ [] := by
  rw [Text.natText, String.toList_ofList]
  exact Nat.toDigits_ne_nil

theorem scan?_cappedSql {t : StoredTable} {column : String} (htable : Unquoted t.name)
    (hcolumn : Unquoted column) (n : Nat) :
    scan? (t.cappedSql column n) =
      some [word "SELECT", word column, word "FROM", word t.name, word "LIMIT",
        word (Text.natText n)] := by
  have htext : (t.cappedSql column n).toList =
      "SELECT".toList ++ ' ' :: ((",".intercalate [column]).toList ++ ' ' ::
        ("FROM".toList ++ ' ' :: (t.name.toList ++ ' ' ::
          ("LIMIT".toList ++ ' ' :: ((Text.natText n).toList ++ []))))) := by
    simp [StoredTable.cappedSql, StoredTable.listingSql]
  have hselect : "SELECT".toList.all nameChar = true := by decide
  have hfrom : "FROM".toList.all nameChar = true := by decide
  have hlimit : "LIMIT".toList.all nameChar = true := by decide
  have hend : scanFrom? (.inWord (Text.natText n).toList.reverse) [] =
      some [word (Text.natText n)] := by
    rw [scanFrom?, finish, ofWord_reverse]
  rw [scan?, htext, scanFrom?_name (by decide) hselect, scanFrom?_space,
    scanFrom?_listed (by simpa using hcolumn), scanFrom?_name (by decide) hfrom, scanFrom?_space,
    scanFrom?_name htable.ne_nil htable.all_nameChar, scanFrom?_space,
    scanFrom?_name (by decide) hlimit, scanFrom?_space,
    scanFrom?_name (natText_ne_nil n) (all_nameChar_natText n), hend]
  simp [listed]

end Lexeme

namespace Selection
open Lexeme

theorem ofStatement?_cappedSql {t : StoredTable} {column : String} (htable : Unquoted t.name)
    (hcolumn : Unquoted column) (n : Nat) :
    ofStatement? (t.cappedSql column n) =
      some (.columns [.column column] none t.name (some n)) := by
  have hkeyword : isKeyword "select" (word "SELECT") = true := by decide
  have hfrom : isKeyword "from" (word "FROM") = true := by decide
  have hlimit : isKeyword "limit" (word "LIMIT") = true := by decide
  have hcount : Text.natural? (Text.natText n).toList = some n := by
    rw [Text.natText, String.toList_ofList, Text.natural?_toDigits]
  rw [ofStatement?, scan?_cappedSql htable hcolumn, Option.bind_some]
  simp [ofLexemes?, hkeyword, body?, items?, hfrom, projected?, hcolumn.identifier, ofItems?,
    table?, htable.identifier, limit?, hlimit, hcount]

end Selection

namespace StoredTable

/-- A cap leaves the first rows of a listing. -/
theorem rows_project_take {t : StoredTable} {names : List String} (n : Nat) :
    (t.project (names.map t.cols.idxOf) (some n)).rows = (t.listing names).rows.take n := by
  rw [project, listing, ← List.map_take]
  simp only [limited, List.map_map]
  rfl

end StoredTable

namespace Catalog

theorem engine_samples {c : Catalog} {t : StoredTable} {column : String} (h : c.Has t)
    (hcolumn : column ∈ t.cols) : engine.Samples c t column := by
  have hnames : ∀ name ∈ [column], name ∈ t.cols := by simpa using hcolumn
  refine ⟨?_, fun n _ => ?_⟩
  · rw [engine_lists h [column] (List.cons_ne_nil _ _) hnames]
    rfl
  · have hselection := Selection.ofStatement?_cappedSql h.table (h.cols column hcolumn) n
    have hselect : c.select (t.cappedSql column n) =
        .ok (t.project ([column].map t.cols.idxOf) (some n)) := by
      rw [select, hselection]
      dsimp only
      rw [answer, requireSchema, h.found]
      dsimp only
      have hpositions := StoredTable.positions_eq h.distinct hnames
      rw [List.map_singleton] at hpositions
      rw [hpositions]
      rfl
    rw [engine, hselect, ← StoredTable.rows_project_take]
    rfl

end Catalog
end PanelSource
