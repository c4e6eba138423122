import PanelSource.Proofs.Number.Truncation
import PanelSource.Proofs.Result.Layout
import PanelSource.Store.Cell

/-! # Numbers of the store as times

A number of the store is read as the time that it is, at the ends of the 64 bits if it is beyond
them; a cell without a number is not read as a time. -/
namespace PanelSource

namespace Cell

/-- An integer that the type of its cell has; the huge integers have 128 bits. -/
inductive HoldsInteger : Cell → ℤ → Prop
  | integer (type : IntegerType) {n : ℤ} (h : type.holds n = true) :
    HoldsInteger (.integer type n) n
  | hugeInt {n : ℤ} (hleast : -2 ^ 127 ≤ n) (hgreatest : n < 2 ^ 127) : HoldsInteger (.hugeInt n) n

/-- A finite number in a floating cell. The patterns of 32 and of 64 bits hold the points of their
grids. -/
inductive HoldsFloating : Cell → ℚ → Prop
  | float (x : Double) : HoldsFloating (.float (.finite x)) x.value
  | double (x : Double) : HoldsFloating (.double (.finite x)) x.value
  | single (negative : Bool) {rank : Nat} (h : rank < Grid.single.infinity) :
    HoldsFloating (.float (.ofRank .single negative rank)) (Grid.single.signedValue negative rank)
  | wide (negative : Bool) {rank : Nat} (h : rank < Grid.double.infinity) :
    HoldsFloating (.double (.ofRank .double negative rank)) (Grid.double.signedValue negative rank)

inductive Numberless : Cell → Prop
  | null : Numberless .null
  | boolean (b : Bool) : Numberless (.boolean b)
  | float {x : Extended} (h : x.finite? = none) : Numberless (.float x)
  | double {x : Extended} (h : x.finite? = none) : Numberless (.double x)

end Cell

namespace Json

theorem millis?_int {n : ℤ} (h : n.natAbs ≤ 2 ^ 127) : (int n).millis? = some (clampInt64 n) := by
  rw [int, millis?]
  split
  · rename_i hfits
    rw [clampInt64_of_fits hfits]
  · rename_i hfits
    obtain ⟨x, hx, hnearest⟩ := Double.ofInt?_eq_some h
    rw [hx, Option.map_some, doubleMillis_ofInt? (Bool.eq_false_of_not_eq_true hfits) hnearest]

theorem millis?_double (x : Double) :
    (double x).millis? = some (clampInt64 (towardZero x.value)) := by
  rw [double, millis?, doubleMillis, Double.truncate_eq]

end Json

namespace Cell

/-- A huge integer is a double in JSON where it does not fit. -/
theorem millis?_hugeInt {n : ℤ} (h : n.natAbs ≤ 2 ^ 127) :
    (hugeInt n).toJson.millis? = some (clampInt64 n) := by
  rw [toJson]
  split
  · exact Json.millis?_int h
  · rename_i hfits
    obtain ⟨x, hx, hnearest⟩ := Double.ofInt?_eq_some h
    rw [hx, ofDouble?, Json.double, Json.millis?,
      doubleMillis_ofInt? (Bool.eq_false_of_not_eq_true hfits) hnearest]

theorem HoldsInteger.millis?_toJson {c : Cell} {n : ℤ} (h : c.HoldsInteger n) :
    c.toJson.millis? = some (clampInt64 n) := by
  cases h with
  | integer type h =>
    rw [IntegerType.holds, Bool.and_eq_true, decide_eq_true_eq, decide_eq_true_eq] at h
    have hleast : -2 ^ 63 ≤ type.least := by cases type <;> decide
    have hgreatest : type.greatest < 2 ^ 64 := by cases type <;> decide
    exact Json.millis?_int (by omega)
  | hugeInt hleast hgreatest => exact millis?_hugeInt (by omega)

theorem HoldsFloating.millis?_toJson {c : Cell} {q : ℚ} (h : c.HoldsFloating q) :
    c.toJson.millis? = some (clampInt64 (towardZero q)) := by
  cases h with
  | float x => exact Json.millis?_double x
  | double x => exact Json.millis?_double x
  | single negative h =>
    obtain ⟨x, hx, hvalue⟩ := Extended.ofRank_single_finite negative h
    rw [hx, ← hvalue]
    exact Json.millis?_double x
  | wide negative h =>
    obtain ⟨x, hx, hvalue⟩ := Extended.ofRank_double_finite negative h
    rw [hx, ← hvalue]
    exact Json.millis?_double x

theorem toJson?_of_fit {c : Cell} (h : c.overflows = false) : c.toJson? = some c.toJson := by
  rw [toJson?, h, if_neg Bool.false_ne_true]

theorem HoldsInteger.toJson?_eq {c : Cell} {n : ℤ} (h : c.HoldsInteger n) :
    c.toJson? = some c.toJson := by
  cases h <;> exact toJson?_of_fit rfl

theorem HoldsFloating.toJson?_eq {c : Cell} {q : ℚ} (h : c.HoldsFloating q) :
    c.toJson? = some c.toJson := by
  cases h <;> exact toJson?_of_fit rfl

theorem Numberless.toJson?_eq {c : Cell} (h : c.Numberless) : c.toJson? = some c.toJson := by
  cases h <;> exact toJson?_of_fit rfl

theorem Numberless.millis?_toJson {c : Cell} (h : c.Numberless) : c.toJson.millis? = none := by
  cases h with
  | null => rfl
  | boolean b => rfl
  | float h => rw [toJson, h]; rfl
  | double h => rw [toJson, h]; rfl

end Cell

/-- Numbers are read exactly and saturate, and no time is read where there is no number. -/
theorem timestamp_toJson (c : Cell) (row : Nat) :
    (∀ n, c.HoldsInteger n → c.toJson? = some c.toJson ∧
      timestamp row c.toJson = .ok (clampInt64 n)) ∧
    (∀ q, c.HoldsFloating q → c.toJson? = some c.toJson ∧
      timestamp row c.toJson = .ok (clampInt64 (towardZero q))) ∧
    (c.Numberless → c.toJson? = some c.toJson ∧
      timestamp row c.toJson = .error (.invalidTimestamp row c.toJson)) :=
  ⟨fun _ h => ⟨h.toJson?_eq, Layout.timestamp_eq_ok_iff.mpr h.millis?_toJson⟩,
    fun _ h => ⟨h.toJson?_eq, Layout.timestamp_eq_ok_iff.mpr h.millis?_toJson⟩,
    fun h => ⟨h.toJson?_eq, Layout.timestamp_eq_error_iff.mpr ⟨h.millis?_toJson, rfl⟩⟩⟩

/-- Just beyond the range, an exact half and no number. -/
theorem timestamp_toJson_ends :
    timestamp 0 (Cell.hugeInt (2 ^ 63)).toJson = .ok 9223372036854775807 ∧
      timestamp 1 (Cell.integer .uint64 18446744073709551615).toJson = .ok 9223372036854775807 ∧
      timestamp 2 (Cell.float (.ofRank .single true 0x3fc00000)).toJson = .ok (-1) ∧
      timestamp 3 (Cell.double .nan).toJson = .error (.invalidTimestamp 3 .null) := by
  have hhalf : clampInt64 (towardZero (Grid.single.signedValue true 0x3fc00000)) = -1 := by
    rw [Grid.signedValue, if_pos rfl, towardZero_neg, Grid.value,
      show Grid.single.mantissa 0x3fc00000 = 12582912 by decide,
      show Grid.single.exponent 0x3fc00000 = -23 by decide]
    norm_num [towardZero, clampInt64, Text.minInt64, Text.maxInt64]
  exact ⟨((timestamp_toJson _ 0).1 _ (.hugeInt (by decide) (by decide))).2,
    ((timestamp_toJson _ 1).1 _ (.integer .uint64 (by decide))).2,
    ((timestamp_toJson _ 2).2.1 _ (.single true (by decide))).2.trans (congrArg _ hhalf),
    ((timestamp_toJson _ 3).2.2 (.double rfl)).2⟩

end PanelSource
