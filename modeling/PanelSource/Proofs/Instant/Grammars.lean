import PanelSource.Proofs.Instant.Written

/-! # The strict grammar within the relaxed one

What the relaxed grammar admits beside the strict one, blanks and shorter numbers, begins with no
character that a text of the strict grammar has in its place. So each part of such a text is read by
both alike. -/
namespace PanelSource

namespace Text

theorem isBlank_of_isDigit {c : Char} (h : c.isDigit = true) : isBlank c = false := by
  have hnine : 48 ≤ c.toNat ∧ c.toNat ≤ 57 := by
    simpa [Char.isDigit, UInt32.le_iff_toNat_le] using h
  simp only [isBlank, Bool.or_eq_false_iff, Bool.and_eq_false_iff, decide_eq_false_iff_not,
    beq_eq_false_iff_ne]
  omega

theorem dropBlanks_cons {c : Char} (h : isBlank c = false) (cs : List Char) :
    dropBlanks (c :: cs) = c :: cs :=
  List.dropWhile_cons_of_neg (Bool.eq_false_iff.mp h)

end Text

namespace Instant
open Cutting

variable {least most : ℕ} {cs ds rest : List Char} {n : ℕ}

/-- The digits stand in front of the rest. -/
theorem takeDigits_eq_some (h : takeDigits least most cs = some (ds, rest)) :
    cs = ds ++ rest ∧ ds.all Char.isDigit = true ∧ least ≤ ds.length ∧ ds.length ≤ most := by
  have hfront : (cs.take most).takeWhile Char.isDigit <+: cs :=
    (List.takeWhile_prefix _).trans (List.take_prefix _ _)
  have hshort : ((cs.take most).takeWhile Char.isDigit).length ≤ (cs.take most).length :=
    (List.takeWhile_prefix _).length_le
  rw [takeDigits] at h
  split at h
  · cases h
  · rename_i hleast
    cases h
    refine ⟨?_, List.all_takeWhile, Nat.not_lt.mp hleast, ?_⟩
    · nth_rewrite 1 [← List.take_append_drop ((cs.take most).takeWhile Char.isDigit).length cs]
      rw [← List.prefix_iff_eq_take.mp hfront]
    · rw [List.length_take] at hshort
      omega

theorem number?_eq_some (h : number? least most cs = some (n, rest)) :
    ∃ ds, cs = ds ++ rest ∧ ds.all Char.isDigit = true ∧ least ≤ ds.length ∧ ds.length ≤ most ∧
      Text.digitsValue ds = n := by
  obtain ⟨⟨ds, tail⟩, htake, heq⟩ := Option.map_eq_some_iff.mp h
  cases heq
  obtain ⟨hcs, hds, hleast, hmost⟩ := takeDigits_eq_some htake
  exact ⟨ds, hcs, hds, hleast, hmost, rfl⟩

/-- A number begins with a digit. -/
theorem exists_digit_of_number? (hpos : 0 < least) (h : number? least most cs = some (n, rest)) :
    ∃ d tail, cs = d :: tail ∧ d.isDigit = true := by
  obtain ⟨ds, rfl, hds, hleast, -⟩ := number?_eq_some h
  obtain ⟨d, tail, rfl⟩ := List.exists_cons_of_length_pos (Nat.lt_of_lt_of_le hpos hleast)
  rw [List.all_cons, Bool.and_eq_true] at hds
  exact ⟨d, tail ++ rest, rfl, hds.1⟩

theorem dropBlanks_of_number? (hpos : 0 < least) (h : number? least most cs = some (n, rest)) :
    Text.dropBlanks cs = cs := by
  obtain ⟨d, tail, rfl, hd⟩ := exists_digit_of_number? hpos h
  exact Text.dropBlanks_cons (Text.isBlank_of_isDigit hd) tail

/-- Fewer digits may be asked for. -/
theorem number?_mono {fewer : ℕ} (hfewer : fewer ≤ least)
    (h : number? least most cs = some (n, rest)) : number? fewer most cs = some (n, rest) := by
  obtain ⟨⟨ds, tail⟩, htake, heq⟩ := Option.map_eq_some_iff.mp h
  have htake' : takeDigits fewer most cs = some (ds, tail) := by
    rw [takeDigits] at htake ⊢
    split at htake
    · cases htake
    · rw [if_neg (by omega)]
      exact htake
  rw [number?, htake', Option.map_some, heq]

theorem relaxedNumber?_of_number? (h : number? 2 2 cs = some (n, rest)) :
    relaxedNumber? cs = some (n, rest) := by
  rw [relaxedNumber?, dropBlanks_of_number? two_pos h]
  exact number?_mono one_le_two h

theorem sign?_eq_some {c : Char} (h : sign? c cs = some rest) : cs = c :: rest := by
  cases cs with
  | nil => cases h
  | cons d cs =>
    obtain ⟨rfl, hrest⟩ := Option.ite_none_right_eq_some.mp h
    rw [Option.some.inj hrest]

theorem relaxedSign?_of_sign? {c : Char} (hc : Text.isBlank c = false)
    (h : sign? c cs = some rest) : relaxedSign? c cs = some rest := by
  rw [relaxedSign?, sign?_eq_some h, Text.dropBlanks_cons hc, sign?_cons]

theorem relaxedYear?_of_number? (h : number? 4 4 cs = some (n, rest)) :
    relaxedYear? cs = some ((n : ℤ), rest) := by
  obtain ⟨d, tail, hcs, hd⟩ := exists_digit_of_number? four_pos h
  rw [relaxedYear?, dropBlanks_of_number? four_pos h]
  split
  · cases hcs
    cases hd
  · cases hcs
    cases hd
  · rw [number?_mono (by decide) h]
    rfl

/-- What the relaxed grammar admits between the hours and the minutes of a zone. -/
def dropSeparator (cs : List Char) : Option (List Char) :=
  some (cs.dropWhile fun c => c == ':' || Text.isBlank c)

theorem zoneSign?_eq_some {c : Char} {negative : Bool}
    (h : zoneSign? (c :: cs) = some (negative, rest)) :
    rest = cs ∧ (c = '+' ∨ c = '-' ∨ c = '−') := by
  rw [zoneSign?] at h
  split at h
  · rename_i hplus
    cases h
    exact ⟨rfl, .inl hplus⟩
  · split at h
    · rename_i hminus
      cases h
      refine ⟨rfl, .inr (hminus.imp_right fun hn => ?_)⟩
      exact Char.toNat_inj.mp (hn.trans rfl)
    · cases h

theorem dropSeparator_colon {d : Char} (hd : d.isDigit = true) (cs : List Char) :
    dropSeparator (':' :: d :: cs) = some (d :: cs) := by
  have hcolon : d ≠ ':' := by
    rintro rfl
    cases hd
  simp [dropSeparator, hcolon, Text.isBlank_of_isDigit hd]

theorem offset?_relaxed {offset : ℤ} (h : offset? (sign? ':') cs = some (offset, rest)) :
    offset? dropSeparator cs = some (offset, rest) := by
  obtain ⟨⟨negative, cs₁⟩, hsign, h⟩ := Option.bind_eq_some_iff.mp h
  obtain ⟨⟨hours, cs₂⟩, hhours, h⟩ := Option.bind_eq_some_iff.mp h
  obtain ⟨cs₃, hcolon, h⟩ := Option.bind_eq_some_iff.mp h
  obtain ⟨⟨minutes, cs₄⟩, hminutes, h⟩ := Option.bind_eq_some_iff.mp h
  have hseparator : dropSeparator cs₂ = some cs₃ := by
    obtain ⟨d, tail, rfl, hd⟩ := exists_digit_of_number? two_pos hminutes
    rw [sign?_eq_some hcolon, dropSeparator_colon hd]
  exact read_step hsign (read_step hhours (read_step hseparator (read_step hminutes h)))

/-- A zone that does not begin like `UTC` is a letter or an offset. -/
theorem relaxedZone?_cons {c : Char} (hc : c.toLower ≠ 'u') (cs : List Char) :
    relaxedZone? (c :: cs) = zone? dropSeparator (c :: cs) := by
  rw [relaxedZone?.eq_def]
  split
  · rename_i heq
    cases heq
    exact if_neg fun h => hc h.1
  · rfl

theorem relaxedZone?_of_zone? {offset : ℤ} (h : zone? (sign? ':') cs = some (offset, rest)) :
    relaxedZone? (Text.dropBlanks cs) = some (offset, rest) := by
  cases cs with
  | nil => cases h
  | cons c cs =>
    have hlead : c = 'Z' ∨ c = 'z' ∨ c = '+' ∨ c = '-' ∨ c = '−' := by
      rw [zone?] at h
      split at h
      · rename_i hz
        exact hz.imp_right .inl
      · obtain ⟨⟨negative, cs₁⟩, hsign, -⟩ := Option.bind_eq_some_iff.mp h
        exact .inr (.inr (zoneSign?_eq_some hsign).2)
    have hblank : Text.isBlank c = false ∧ c.toLower ≠ 'u' := by
      rcases hlead with rfl | rfl | rfl | rfl | rfl <;> decide
    rw [Text.dropBlanks_cons hblank.1, relaxedZone?_cons hblank.2]
    rw [zone?] at h ⊢
    split at h
    · rename_i hz
      rw [if_pos hz, h]
    · rename_i hz
      rw [if_neg hz, offset?_relaxed h]

/-- What the strict grammar reads the relaxed one reads as the same instant. -/
theorem relaxed?_of_strict? {t : Instant} (h : strict? cs = some t) : relaxed? cs = some t := by
  obtain ⟨⟨year, cs₁⟩, hyear, h⟩ := Option.bind_eq_some_iff.mp h
  obtain ⟨cs₂, hsign, h⟩ := Option.bind_eq_some_iff.mp h
  obtain ⟨⟨month, cs₃⟩, hmonth, h⟩ := Option.bind_eq_some_iff.mp h
  obtain ⟨cs₄, hsign', h⟩ := Option.bind_eq_some_iff.mp h
  obtain ⟨⟨day, cs₅⟩, hday, h⟩ := Option.bind_eq_some_iff.mp h
  obtain ⟨cs₆, hmark, h⟩ := Option.bind_eq_some_iff.mp h
  obtain ⟨⟨hour, cs₇⟩, hhour, h⟩ := Option.bind_eq_some_iff.mp h
  obtain ⟨cs₈, hcolon, h⟩ := Option.bind_eq_some_iff.mp h
  obtain ⟨⟨minute, cs₉⟩, hminute, h⟩ := Option.bind_eq_some_iff.mp h
  obtain ⟨cs₁₀, hcolon', h⟩ := Option.bind_eq_some_iff.mp h
  obtain ⟨⟨second, cs₁₁⟩, hsecond, h⟩ := Option.bind_eq_some_iff.mp h
  obtain ⟨⟨nanos, cs₁₂⟩, hfraction, h⟩ := Option.bind_eq_some_iff.mp h
  obtain ⟨⟨offset, cs₁₃⟩, hzone, h⟩ := Option.bind_eq_some_iff.mp h
  obtain ⟨hend, h⟩ := Option.ite_none_right_eq_some.mp h
  rw [relaxed?]
  refine read_step (relaxedYear?_of_number? hyear) ?_
  refine read_step (relaxedSign?_of_sign? rfl hsign) ?_
  refine read_step (relaxedNumber?_of_number? hmonth) ?_
  refine read_step (relaxedSign?_of_sign? rfl hsign') ?_
  refine read_step (relaxedNumber?_of_number? hday) ?_
  refine read_step hmark ?_
  refine read_step (relaxedNumber?_of_number? hhour) ?_
  refine read_step (relaxedSign?_of_sign? rfl hcolon) ?_
  refine read_step (relaxedNumber?_of_number? hminute) ?_
  refine read_step (relaxedSign?_of_sign? rfl hcolon') ?_
  refine read_step (relaxedNumber?_of_number? hsecond) ?_
  refine read_step hfraction ?_
  refine read_step (relaxedZone?_of_zone? hzone) ?_
  rw [hend]
  exact h

theorem ofText?_of_ofStrictText? {s : String} {t : Instant} (h : ofStrictText? s = some t) :
    ofText? s = some t := relaxed?_of_strict? h

/-- A hyphen stands behind four digits. -/
theorem exists_hyphen_of_strict? {t : Instant} (h : strict? cs = some t) :
    ∃ d tail, cs = d :: tail ∧ '-' ∈ tail := by
  obtain ⟨⟨year, cs₁⟩, hyear, h⟩ := Option.bind_eq_some_iff.mp h
  obtain ⟨cs₂, hsign, -⟩ := Option.bind_eq_some_iff.mp h
  obtain ⟨ds, rfl, -, hleast, -⟩ := number?_eq_some hyear
  obtain ⟨d, ds, rfl⟩ := List.exists_cons_of_length_pos (Nat.lt_of_lt_of_le four_pos hleast)
  refine ⟨d, ds ++ cs₁, rfl, ?_⟩
  rw [sign?_eq_some hsign]
  exact List.mem_append_right ds List.mem_cons_self

end Instant

namespace Text

/-- No integer is written like an instant. -/
theorem int64?_eq_none {s : String} {t : Instant} (h : Instant.ofStrictText? s = some t) :
    int64? s = none := by
  obtain ⟨d, tail, hs, hhyphen⟩ := Instant.exists_hyphen_of_strict? h
  rw [int64?, hs, integer?_eq_none hhyphen]
  rfl

theorem int64?_or_ofStrictText? (s : String) :
    int64? s = none ∨ Instant.ofStrictText? s = none := by
  cases h : Instant.ofStrictText? s with
  | none => exact .inr rfl
  | some t => exact .inl (int64?_eq_none h)

end Text

end PanelSource
