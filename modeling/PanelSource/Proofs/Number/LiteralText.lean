import PanelSource.Json.Basic
import PanelSource.Proofs.Number.ShortestRounds
import PanelSource.Proofs.Text.Digits

/-! # Texts of numbers are literals of them

A literal stands for one rational, and the text of a double is a literal of a decimal that rounds to
it. So the text gives the number back. -/
namespace PanelSource
open Cutting PlainText

/-- Digits, with a point among them or not, and what they stand for. -/
inductive PointedDigits : List Char → ℚ → Prop
  | whole {ds : List Char} (hne : ds ≠ []) (hds : ds.all Char.isDigit = true) :
      PointedDigits ds (Text.digitsValue ds)
  | point {ds fs : List Char} (hne : ds ≠ []) (hds : ds.all Char.isDigit = true)
      (hfs : fs.all Char.isDigit = true) :
      PointedDigits (ds ++ '.' :: fs) (Text.digitsValue (ds ++ fs) / 10 ^ fs.length)

/-- A number without a sign, and what it stands for. -/
inductive NumberLiteral : List Char → ℚ → Prop
  | pointed {cs : List Char} {q : ℚ} (h : PointedDigits cs q) : NumberLiteral cs q
  | power {cs ps : List Char} {q : ℚ} {k : ℤ} (h : PointedDigits cs q)
      (hk : Text.integer? ps = some k) : NumberLiteral (cs ++ 'e' :: ps) (q * 10 ^ k)

def pointedChar (c : Char) : Bool := c.isDigit || c == '.'

namespace PointedDigits
variable {cs : List Char} {q q' : ℚ}

theorem all_pointedChar (h : PointedDigits cs q) : cs.all pointedChar = true := by
  have hmono (c : Char) (hc : c.isDigit = true) : pointedChar c = true := by
    rw [pointedChar, hc, Bool.true_or]
  cases h with
  | whole _ hds => exact all_mono hmono hds
  | point _ hds hfs =>
    rw [List.all_append, List.all_cons, all_mono hmono hds, all_mono hmono hfs]
    rfl

theorem head (h : PointedDigits cs q) : ∃ c more, cs = c :: more ∧ c.isDigit = true := by
  have hhead {ds : List Char} (hne : ds ≠ []) (hds : ds.all Char.isDigit = true) :
      ∃ c more, ds = c :: more ∧ c.isDigit = true := by
    obtain ⟨c, more, rfl⟩ := List.exists_cons_of_ne_nil hne
    rw [List.all_cons, Bool.and_eq_true] at hds
    exact ⟨c, more, rfl, hds.1⟩
  cases h with
  | whole hne hds => exact hhead hne hds
  | point hne hds =>
    obtain ⟨c, more, rfl, hc⟩ := hhead hne hds
    exact ⟨c, _, rfl, hc⟩

theorem unique (h : PointedDigits cs q) (h' : PointedDigits cs q') : q = q' := by
  have hpoint (more : List Char) : Stops Char.isDigit ('.' :: more) := stops_cons.mpr rfl
  generalize hcs : cs = ds at h'
  cases h with
  | whole _ hds =>
    cases h' with
    | whole => rw [hcs]
    | point =>
      rw [hcs, List.all_append, List.all_cons] at hds
      simp at hds
  | point _ hds hfs =>
    cases h' with
    | whole _ hds' =>
      rw [← hcs, List.all_append, List.all_cons] at hds'
      simp at hds'
    | point _ hds' hfs' =>
      obtain ⟨rfl, hmore⟩ := runs_cut hds hds' (hpoint _) (hpoint _) hcs
      rw [(List.cons.inj hmore).2]

end PointedDigits

/-- What the texts of numbers are made of. -/
def literalChar (c : Char) : Bool := numeralChar c || ['.', 'e', '+'].contains c

theorem all_literalChar_of_integer? {cs : List Char} {k : ℤ} (h : Text.integer? cs = some k) :
    cs.all literalChar = true := by
  have hnatural {ds : List Char} {n : ℕ} (hds : Text.natural? ds = some n) :
      ds.all literalChar = true := by
    simp only [Text.natural?, Option.ite_none_right_eq_some] at hds
    exact all_mono (fun c hc => by simp [literalChar, numeralChar, hc]) hds.1.2
  unfold Text.integer? at h
  split at h
  · obtain ⟨n, hn, -⟩ := Option.map_eq_some_iff.mp h
    obtain ⟨n, hn, -⟩ := Option.bind_eq_some_iff.mp hn
    simpa using And.intro (by decide) (hnatural hn)
  · obtain ⟨n, hn, -⟩ := Option.map_eq_some_iff.mp h
    unfold Text.unsigned? at hn
    split at hn
    · simpa using And.intro (by decide) (hnatural hn)
    · exact hnatural hn

namespace NumberLiteral
variable {cs : List Char} {q q' : ℚ}

theorem all_literalChar (h : NumberLiteral cs q) : cs.all literalChar = true := by
  have hmono (c : Char) (hc : pointedChar c = true) : literalChar c = true := by
    simp only [pointedChar, Bool.or_eq_true, beq_iff_eq] at hc
    rcases hc with hc | rfl
    · simp [literalChar, numeralChar, hc]
    · rfl
  cases h with
  | pointed h => exact all_mono hmono h.all_pointedChar
  | power h hk =>
    rw [List.all_append, List.all_cons, all_mono hmono h.all_pointedChar,
      all_literalChar_of_integer? hk]
    rfl

theorem head (h : NumberLiteral cs q) : ∃ c more, cs = c :: more ∧ c.isDigit = true := by
  cases h with
  | pointed h => exact h.head
  | power h =>
    obtain ⟨c, more, rfl, hc⟩ := h.head
    exact ⟨c, _, rfl, hc⟩

theorem unique (h : NumberLiteral cs q) (h' : NumberLiteral cs q') : q = q' := by
  have hmark (more : List Char) : Stops pointedChar ('e' :: more) := stops_cons.mpr rfl
  generalize hcs : cs = ds at h'
  cases h with
  | pointed h =>
    cases h' with
    | pointed h' => exact h.unique (hcs ▸ h')
    | power =>
      have hall := h.all_pointedChar
      rw [hcs, List.all_append, List.all_cons] at hall
      simp [pointedChar] at hall
  | power h hk =>
    cases h' with
    | pointed h' =>
      have hall := h'.all_pointedChar
      rw [← hcs, List.all_append, List.all_cons] at hall
      simp [pointedChar] at hall
    | power h' hk' =>
      obtain ⟨rfl, hmore⟩ :=
        runs_cut h.all_pointedChar h'.all_pointedChar (hmark _) (hmark _) hcs
      rw [(List.cons.inj hmore).2, hk'] at hk
      rw [h.unique h', Option.some.inj hk]

end NumberLiteral

namespace NumberLayout
variable (l : NumberLayout) {ds : List Char}

/-- Zeros behind the digits, and a point behind them where the layout keeps it. -/
theorem pointedDigits_zeros (hne : ds ≠ []) (hds : ds.all Char.isDigit = true) (k : ℕ) :
    PointedDigits (ds ++ List.replicate k '0' ++ (if l.keepsPoint then ['.', '0'] else []))
      (Text.digitsValue ds * 10 ^ k) := by
  have hne' : ds ++ List.replicate k '0' ≠ [] := by simp [hne]
  have hdigits : (ds ++ List.replicate k '0').all Char.isDigit = true := by
    rw [List.all_append, hds, Text.all_isDigit_replicate_zero]
    rfl
  have hvalue : Text.digitsValue (ds ++ List.replicate k '0') = Text.digitsValue ds * 10 ^ k := by
    rw [Text.digitsValue_append, List.length_replicate, Text.digitsValue_replicate_zero,
      Nat.add_zero]
  split
  · have h := PointedDigits.point hne' hdigits (show ['0'].all Char.isDigit = true from rfl)
    rw [Text.digitsValue_concat, hvalue] at h
    convert h using 1
    simp [Text.digitValue]
  · have h := PointedDigits.whole hne' hdigits
    rw [hvalue] at h
    simpa using h

theorem pointedDigits_inside (hds : ds.all Char.isDigit = true) {k : ℕ} (hk : k < ds.length) :
    PointedDigits (ds.take (ds.length - k) ++ '.' :: ds.drop (ds.length - k))
      (Text.digitsValue ds / 10 ^ k) := by
  have hwhole : ds.take (ds.length - k) ≠ [] := by
    apply List.ne_nil_of_length_pos
    rw [List.length_take]
    omega
  have hlength : (ds.drop (ds.length - k)).length = k := by
    rw [List.length_drop]
    omega
  have hboth := hds
  rw [← List.take_append_drop (ds.length - k) ds, List.all_append, Bool.and_eq_true] at hboth
  have h := PointedDigits.point hwhole hboth.1 hboth.2
  rwa [List.take_append_drop, hlength] at h

theorem pointedDigits_in_front (hds : ds.all Char.isDigit = true) {k : ℕ} (hk : ds.length ≤ k) :
    PointedDigits ('0' :: '.' :: (List.replicate (k - ds.length) '0' ++ ds))
      (Text.digitsValue ds / 10 ^ k) := by
  have hzeros : (List.replicate (k - ds.length) '0' ++ ds).all Char.isDigit = true := by
    rw [List.all_append, hds, Text.all_isDigit_replicate_zero]
    rfl
  have hlength : (List.replicate (k - ds.length) '0' ++ ds).length = k := by
    rw [List.length_append, List.length_replicate]
    omega
  have hvalue : Text.digitsValue (['0'] ++ (List.replicate (k - ds.length) '0' ++ ds)) =
      Text.digitsValue ds := by
    rw [Text.digitsValue_append, Text.digitsValue_append, Text.digitsValue_replicate_zero]
    simp [Text.digitsValue, Text.digitValue]
  have h := PointedDigits.point (List.cons_ne_nil '0' []) rfl hzeros
  rwa [hvalue, hlength] at h

theorem pointedDigits_placed (hne : ds ≠ []) (hds : ds.all Char.isDigit = true) (exponent : ℤ) :
    PointedDigits (l.placed ds exponent) (Text.digitsValue ds * 10 ^ exponent) := by
  unfold placed
  split
  · rename_i hexponent
    obtain ⟨k, rfl⟩ := Int.eq_ofNat_of_zero_le hexponent
    rw [Int.toNat_natCast, zpow_natCast]
    exact l.pointedDigits_zeros hne hds k
  · rename_i hexponent
    obtain ⟨k, rfl⟩ := Int.exists_eq_neg_ofNat (Int.le_of_not_le hexponent)
    simp only [neg_neg, Int.toNat_natCast, zpow_neg, zpow_natCast, ← div_eq_mul_inv]
    split
    · rename_i hk
      exact pointedDigits_inside hds hk
    · rename_i hk
      exact pointedDigits_in_front hds (Nat.le_of_not_lt hk)

/-- What stands behind the mark of a power. -/
def powerText (power : ℤ) : List Char :=
  (if l.plus = true ∧ 0 ≤ power then ['+'] else []) ++ (Text.intText power).toList

theorem integer?_powerText (power : ℤ) : Text.integer? (l.powerText power) = some power := by
  unfold powerText
  split
  · rename_i h
    obtain ⟨n, rfl⟩ := Int.eq_ofNat_of_zero_le h.2
    simp [Text.integer?, Text.unsigned?, Text.intText, Text.natText, Text.natural?_toDigits]
  · exact Text.integer?_intText power

theorem scientific_singleton (c : Char) (power : ℤ) :
    l.scientific [c] power = [c] ++ 'e' :: l.powerText power := by
  unfold scientific powerText
  split_ifs <;> simp

theorem scientific_cons_cons (c c' : Char) (cs : List Char) (power : ℤ) :
    l.scientific (c :: c' :: cs) power = ([c] ++ '.' :: c' :: cs) ++ 'e' :: l.powerText power := by
  unfold scientific powerText
  split_ifs <;> simp

theorem numberLiteral_scientific (hne : ds ≠ []) (hds : ds.all Char.isDigit = true) (power : ℤ) :
    NumberLiteral (l.scientific ds power)
      (Text.digitsValue ds * 10 ^ (power - ds.length + 1)) := by
  rcases ds with _ | ⟨c, _ | ⟨c', cs⟩⟩
  · exact absurd rfl hne
  · rw [scientific_singleton]
    simpa using NumberLiteral.power (.whole hne hds) (l.integer?_powerText power)
  · rw [List.all_cons, Bool.and_eq_true] at hds
    have h := NumberLiteral.power (.point (List.cons_ne_nil c []) (by simp [hds.1]) hds.2)
      (l.integer?_powerText power)
    have hpower : (10 : ℚ) ^ (power - (c :: c' :: cs).length + 1) =
        10 ^ power / 10 ^ (c' :: cs).length := by
      rw [← zpow_natCast, ← zpow_sub₀ (by norm_num)]
      congr 1
      simp only [List.length_cons]
      push_cast
      ring
    rw [scientific_cons_cons, hpower, ← mul_div_assoc, mul_div_right_comm]
    exact h

theorem numberLiteral_magnitude (x : Decimal) : NumberLiteral (l.magnitude x) x.value := by
  have hne : Nat.toDigits 10 x.digits ≠ [] := Nat.toDigits_ne_nil
  have hds := Text.all_isDigit_toDigits x.digits
  have hvalue := Text.digitsValue_toDigits x.digits
  simp only [magnitude]
  split
  · have h := l.pointedDigits_placed hne hds x.exponent
    rw [hvalue] at h
    exact .pointed h
  · have h := l.numberLiteral_scientific hne hds
      (x.exponent + (Nat.toDigits 10 x.digits).length - 1)
    have hpower : x.exponent + (Nat.toDigits 10 x.digits).length - 1 -
        (Nat.toDigits 10 x.digits).length + 1 = x.exponent := by ring
    rw [hvalue, hpower] at h
    exact h

theorem magnitude_shortest_injective {rank rank' : ℕ}
    (h : l.magnitude (.shortest .double rank) = l.magnitude (.shortest .double rank')) :
    rank = rank' := by
  have hvalue := (l.numberLiteral_magnitude (.shortest .double rank)).unique
    (h ▸ l.numberLiteral_magnitude (.shortest .double rank'))
  exact RoundingInterval.rank_unique (RoundingInterval.holds_shortest rank)
    (hvalue ▸ RoundingInterval.holds_shortest rank')

theorem minus_ne_magnitude (cs : List Char) (x : Decimal) : '-' :: cs ≠ l.magnitude x := by
  obtain ⟨c, more, hmore, hc⟩ := (l.numberLiteral_magnitude x).head
  rw [hmore]
  intro h
  rw [← (List.cons.inj h).1] at hc
  exact absurd hc (by decide)

/-- A double is given back by its text in any layout. -/
theorem render_injective {x y : Double} (h : l.render x = l.render y) : x = y := by
  obtain ⟨negative, rank, hrank⟩ := x
  obtain ⟨negative', rank', hrank'⟩ := y
  have hchars := String.ofList_inj.mp h
  cases negative with
  | false =>
    cases negative' with
    | false =>
      obtain rfl := l.magnitude_shortest_injective hchars
      rfl
    | true => exact absurd hchars.symm (l.minus_ne_magnitude _ _)
  | true =>
    cases negative' with
    | false => exact absurd hchars (l.minus_ne_magnitude _ _)
    | true =>
      obtain rfl := l.magnitude_shortest_injective (List.cons.inj hchars).2
      rfl

/-- JSON text of a double has a point or a power. -/
theorem exists_mark_json (x : Decimal) : ∃ c ∈ json.magnitude x, numeralChar c = false := by
  simp only [magnitude]
  split
  · refine ⟨'.', ?_, rfl⟩
    unfold placed
    split
    · simp [json]
    · simp only
      split <;> simp
  · refine ⟨'e', ?_, rfl⟩
    have hmark (power : ℤ) :
        'e' ∈ if json.plus = true ∧ 0 ≤ power then ['e', '+'] else ['e'] := by
      split <;> simp
    simp only [scientific]
    exact List.mem_append_left _ (List.mem_append_right _ (hmark _))

end NumberLayout

namespace Number

theorem all_literalChar_render (x : Number) : x.render.toList.all literalChar = true := by
  cases x with
  | int n =>
    exact all_mono (fun c hc => by rw [literalChar, hc, Bool.true_or]) (all_numeralChar_intText n)
  | double x =>
    have h := (NumberLayout.json.numberLiteral_magnitude (.shortest .double x.rank)).all_literalChar
    rw [render, NumberLayout.render, String.toList_ofList, List.all_append, h]
    cases x.negative <;> rfl

theorem exists_render_cons (x : Number) :
    ∃ c cs, x.render.toList = c :: cs ∧ numeralChar c = true := by
  cases x with
  | int n => exact exists_numeral_cons n
  | double x =>
    rw [render, NumberLayout.render, String.toList_ofList]
    obtain ⟨c, cs, hcs, hc⟩ :=
      (NumberLayout.json.numberLiteral_magnitude (.shortest .double x.rank)).head
    cases x.negative with
    | false => exact ⟨c, cs, hcs, by rw [numeralChar, hc, Bool.true_or]⟩
    | true => exact ⟨'-', _, rfl, rfl⟩

theorem intText_ne_render (n : ℤ) (x : Double) : Text.intText n ≠ NumberLayout.json.render x := by
  intro h
  obtain ⟨c, hmem, hc⟩ := NumberLayout.exists_mark_json (.shortest .double x.rank)
  have hall := all_numeralChar_intText n
  rw [h, NumberLayout.render, String.toList_ofList, List.all_append, Bool.and_eq_true,
    List.all_eq_true, List.all_eq_true] at hall
  have hnumeral := hall.2 c hmem
  rw [hc] at hnumeral
  exact Bool.noConfusion hnumeral

/-- Integers and doubles, zeros of either sign among them, have texts of their own. -/
theorem render_injective {x y : Number} (h : x.render = y.render) : x = y := by
  cases x with
  | int m =>
    cases y with
    | int n => exact congrArg int (intText_injective h)
    | double y => exact absurd h (intText_ne_render m y)
  | double x =>
    cases y with
    | int n => exact absurd h.symm (intText_ne_render n x)
    | double y => exact congrArg double (NumberLayout.json.render_injective h)

theorem render_cut {x y : Number} {rest rest' : List Char} (hrest : Stops literalChar rest)
    (hrest' : Stops literalChar rest') (h : x.render.toList ++ rest = y.render.toList ++ rest') :
    x = y ∧ rest = rest' := by
  obtain ⟨htext, hr⟩ :=
    run_cut (all_literalChar_render x) (all_literalChar_render y) hrest hrest' h
  exact ⟨render_injective htext, hr⟩

end Number
end PanelSource
