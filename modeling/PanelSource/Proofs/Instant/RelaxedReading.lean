import Mathlib.Data.Fin.VecNotation
import PanelSource.Proofs.Instant.RelaxedText

/-! # What the relaxed grammar reads

Whatever is read is a text of the relaxed grammar and is read as the instant that it says. -/
namespace PanelSource

namespace Text

theorem digitValue_lt {c : Char} (h : c.isDigit = true) : digitValue c < 10 := by
  have hnine : 48 ≤ c.toNat ∧ c.toNat ≤ 57 := by
    simpa [Char.isDigit, UInt32.le_iff_toNat_le] using h
  rw [digitValue]
  omega

theorem digitChar_digitValue {c : Char} (h : c.isDigit = true) :
    Nat.digitChar (digitValue c) = c := by
  have hnine : 48 ≤ c.toNat ∧ c.toNat ≤ 57 := by
    simpa [Char.isDigit, UInt32.le_iff_toNat_le] using h
  have hcode : c = Char.ofNat (digitValue c + 48) := by
    rw [digitValue, Nat.sub_add_cancel hnine.1, Char.ofNat_toNat]
  have hall : ∀ d < 10, Nat.digitChar d = Char.ofNat (d + 48) := by decide
  exact (hall _ (digitValue_lt h)).trans hcode.symm

theorem digitsValue_cons (c : Char) (ds : List Char) :
    digitsValue (c :: ds) = digitValue c * 10 ^ ds.length + digitsValue ds := by
  have hfirst : digitsValue [c] = digitValue c := by
    rw [digitsValue, List.foldl_cons, List.foldl_nil, Nat.mul_zero, Nat.zero_add]
  rw [← List.singleton_append, digitsValue_append, hfirst]

theorem digitsValue_lt {ds : List Char} (h : ds.all Char.isDigit = true) :
    digitsValue ds < 10 ^ ds.length := by
  induction ds with
  | nil => exact one_pos
  | cons c ds ih =>
    rw [List.all_cons, Bool.and_eq_true] at h
    have hc := digitValue_lt h.1
    calc digitsValue (c :: ds)
        = digitValue c * 10 ^ ds.length + digitsValue ds := digitsValue_cons c ds
      _ < digitValue c * 10 ^ ds.length + 10 ^ ds.length := Nat.add_lt_add_left (ih h.2) _
      _ = (digitValue c + 1) * 10 ^ ds.length := by ring
      _ ≤ 10 * 10 ^ ds.length := Nat.mul_le_mul_right _ hc
      _ = 10 ^ (c :: ds).length := by rw [List.length_cons, pow_succ, mul_comm]

/-- Digits are told by how many they are and what they are worth. -/
theorem eq_of_digitsValue_eq {ds fs : List Char} (hds : ds.all Char.isDigit = true)
    (hfs : fs.all Char.isDigit = true) (hlength : ds.length = fs.length)
    (h : digitsValue ds = digitsValue fs) : ds = fs := by
  induction ds generalizing fs with
  | nil => exact (List.length_eq_zero_iff.mp hlength.symm).symm
  | cons c ds ih =>
    cases fs with
    | nil => cases hlength
    | cons c' fs =>
      rw [List.all_cons, Bool.and_eq_true] at hds hfs
      have hlength : ds.length = fs.length := Nat.succ.inj hlength
      have hlow := digitsValue_lt hds.2
      have hlow' := digitsValue_lt hfs.2
      rw [digitsValue_cons, digitsValue_cons, ← hlength] at h
      rw [← hlength] at hlow'
      have hfirst : digitValue c = digitValue c' := by
        have hdiv := congrArg (· / 10 ^ ds.length) h
        simpa [Nat.mul_comm _ (10 ^ ds.length), Nat.mul_add_div, Nat.div_eq_of_lt, hlow, hlow']
          using hdiv
      have hrest : digitsValue ds = digitsValue fs := by
        rw [hfirst] at h
        exact Nat.add_left_cancel h
      have hc : c = c' := by
        rw [← digitChar_digitValue hds.1, hfirst, digitChar_digitValue hfs.1]
      rw [hc, ih hds.2 hfs.2 hlength hrest]

theorem padded_digitsValue {width : ℕ} (hwidth : 0 < width) {ds : List Char}
    (hds : ds.all Char.isDigit = true) (hlength : ds.length = width) :
    (padded width (digitsValue ds)).toList = ds := by
  have hlt := digitsValue_lt hds
  rw [hlength] at hlt
  apply eq_of_digitsValue_eq (all_isDigit_padded _ _) hds
  · rw [length_padded hlt hwidth, hlength]
  · rw [digitsValue_padded]

theorem letter_of_toLower (small large : Char)
    (h : ∀ n < 128, (Char.ofNat n).toLower = small →
      Char.ofNat n = small ∨ Char.ofNat n = large) {c : Char} (hc : c.toLower = small) :
    ∃ isSmall : Bool, c = if isSmall then small else large := by
  have hcase : c = small ∨ c = large := by
    by_cases hlt : c.toNat < 128
    · have hcode := h c.toNat hlt
      rw [Char.ofNat_toNat] at hcode
      exact hcode hc
    · have hsame : c.toLower = c := dif_neg fun ⟨_, hle⟩ => by
        have : c.toNat ≤ 90 := hle
        omega
      exact .inl (hsame.symm.trans hc)
  rcases hcase with rfl | rfl
  · exact ⟨true, rfl⟩
  · exact ⟨false, rfl⟩

end Text

namespace InstantText

def digitsOf (cs : List Char) : List (Fin 10) :=
  cs.map fun c => ⟨Text.digitValue c % 10, Nat.mod_lt _ (Nat.succ_pos 9)⟩

theorem digitChars_digitsOf {cs : List Char} (h : cs.all Char.isDigit = true) :
    digitChars (digitsOf cs) = cs := by
  rw [digitChars, digitsOf, List.map_map]
  refine (List.map_congr_left fun c hc => ?_).trans (List.map_id cs)
  have hdigit := List.all_eq_true.mp h c hc
  change Nat.digitChar (Text.digitValue c % 10) = c
  rw [Nat.mod_eq_of_lt (Text.digitValue_lt hdigit), Text.digitChar_digitValue hdigit]

end InstantText

namespace Instant
open Cutting

variable {cs rest : List Char} {n : ℕ}

theorem stops_dropWhile (p : Char → Bool) (cs : List Char) : Stops p (cs.dropWhile p) := by
  intro c hc
  have hhead := List.head?_dropWhile_not p cs
  rw [Option.mem_def.mp hc] at hhead
  exact hhead

theorem exists_gap (cs : List Char) : ∃ g : Blanks, cs = g.chars ++ Text.dropBlanks cs :=
  ⟨⟨cs.takeWhile Text.isBlank, List.all_takeWhile⟩, List.takeWhile_append_dropWhile.symm⟩

theorem exists_numeral {most : ℕ} (h : number? 1 most cs = some (n, rest)) :
    ∃ d : Numeral most, cs = d.chars ++ rest ∧ d.value = n := by
  obtain ⟨ds, rfl, hds, hleast, hmost, hvalue⟩ := number?_eq_some h
  exact ⟨⟨ds, hds, hleast, hmost⟩, rfl, hvalue⟩

theorem exists_numeral_map (f : ℕ → ℤ) {most : ℕ} {year : ℤ}
    (h : ((number? 1 most cs).map fun (n, rest) => (f n, rest)) = some (year, rest)) :
    ∃ d : Numeral most, cs = d.chars ++ rest ∧ f d.value = year := by
  obtain ⟨⟨n, rest⟩, hnumber, heq⟩ := Option.map_eq_some_iff.mp h
  cases heq
  obtain ⟨d, hd, hvalue⟩ := exists_numeral hnumber
  exact ⟨d, hd, congrArg f hvalue⟩

theorem exists_relaxedNumber (h : relaxedNumber? cs = some (n, rest)) :
    ∃ (g : Blanks) (d : Numeral 2), cs = g.chars ++ (d.chars ++ rest) ∧ d.value = n := by
  obtain ⟨g, hg⟩ := exists_gap cs
  obtain ⟨d, hd, hvalue⟩ := exists_numeral h
  exact ⟨g, d, hd ▸ hg, hvalue⟩

theorem exists_relaxedSign {c : Char} (h : relaxedSign? c cs = some rest) :
    ∃ g : Blanks, cs = g.chars ++ c :: rest := by
  obtain ⟨g, hg⟩ := exists_gap cs
  exact ⟨g, sign?_eq_some h ▸ hg⟩

theorem exists_relaxedYear {year : ℤ} (h : relaxedYear? cs = some (year, rest)) :
    ∃ (g : Blanks) (y : YearText), cs = g.chars ++ (y.chars ++ rest) ∧ y.value = year := by
  obtain ⟨g, hg⟩ := exists_gap cs
  rw [relaxedYear?.eq_def] at h
  split at h
  · rename_i tail htail
    obtain ⟨d, hd, hvalue⟩ := exists_numeral_map (fun n => -(n : ℤ)) h
    refine ⟨g, .signed true d, ?_, hvalue⟩
    rw [hg, htail]
    exact congrArg (fun tail => g.chars ++ '-' :: tail) hd
  · rename_i tail htail
    obtain ⟨d, hd, hvalue⟩ := exists_numeral_map (fun n => (n : ℤ)) h
    refine ⟨g, .signed false d, ?_, hvalue⟩
    rw [hg, htail]
    exact congrArg (fun tail => g.chars ++ '+' :: tail) hd
  · obtain ⟨d, hd, hvalue⟩ := exists_numeral_map (fun n => (n : ℤ)) h
    refine ⟨g, .plain d, ?_, hvalue⟩
    rw [hg, hd]
    rfl

theorem dateMark?_eq_some (h : dateMark? cs = some rest) :
    ∃ mark, cs = mark :: rest ∧ (mark = 'T' ∨ mark = 't' ∨ mark = ' ') := by
  cases cs with
  | nil => cases h
  | cons c cs =>
    obtain ⟨hmark, hrest⟩ := Option.ite_none_right_eq_some.mp h
    exact ⟨c, Option.some.inj hrest ▸ rfl, hmark⟩

theorem exists_fraction {nanos : ℕ} (h : fraction? cs = some (nanos, rest)) :
    ∃ ds, cs = InstantText.fractionChars ds ++ rest ∧
      ⌊InstantText.fractionValue ds * 10 ^ 9⌋₊ = nanos := by
  rw [fraction?.eq_def] at h
  split at h
  · rename_i tail
    obtain ⟨⟨front, behind⟩, htake, -⟩ := Option.map_eq_some_iff.mp h
    obtain ⟨htail, hfront, hpos, -⟩ := takeDigits_eq_some htake
    obtain ⟨d, front, rfl⟩ := List.exists_cons_of_length_pos hpos
    rw [List.all_cons, Bool.and_eq_true] at hfront
    have hrun : InstantText.digitChars (InstantText.digitsOf (tail.takeWhile Char.isDigit)) =
        tail.takeWhile Char.isDigit := InstantText.digitChars_digitsOf List.all_takeWhile
    have hne : InstantText.digitsOf (tail.takeWhile Char.isDigit) ≠ [] := by
      simp [InstantText.digitsOf, htail, hfront.1]
    have hread := fraction?_digitChars hne (stops_dropWhile Char.isDigit tail)
    rw [hrun, List.takeWhile_append_dropWhile] at hread
    obtain ⟨hnanos, hrest⟩ := Prod.mk.inj (Option.some.inj (hread.symm.trans h))
    refine ⟨_, ?_, hnanos⟩
    rw [InstantText.fractionChars, if_neg hne, hrun, ← hrest, List.cons_append,
      List.takeWhile_append_dropWhile]
  · cases h
    refine ⟨[], rfl, ?_⟩
    rw [InstantText.fractionValue, zero_mul, Nat.floor_zero]

theorem exists_zoneSign {c : Char} {negative : Bool}
    (h : zoneSign? (c :: cs) = some (negative, rest)) :
    rest = cs ∧ ∃ sign : ZoneSign, c = sign.char ∧ negative = (sign matches .hyphen | .minus) := by
  obtain ⟨rfl, rfl | rfl | rfl⟩ := zoneSign?_eq_some h
  · cases h
    exact ⟨rfl, .plus, rfl, rfl⟩
  · cases h
    exact ⟨rfl, .hyphen, rfl, rfl⟩
  · cases h
    exact ⟨rfl, .minus, rfl, rfl⟩

theorem exists_padded {width : ℕ} (hwidth : 0 < width)
    (h : number? width width cs = some (n, rest)) :
    cs = (Text.padded width n).toList ++ rest ∧ n < 10 ^ width := by
  obtain ⟨ds, rfl, hds, hleast, hmost, rfl⟩ := number?_eq_some h
  obtain rfl : ds.length = width := Nat.le_antisymm hmost hleast
  rw [Text.padded_digitsValue hwidth hds rfl]
  exact ⟨rfl, Text.digitsValue_lt hds⟩

theorem exists_two (h : number? 2 2 cs = some (n, rest)) :
    cs = (Text.padded 2 n).toList ++ rest := (exists_padded two_pos h).1

/-- An offset is a sign, hours, and minutes behind what the separator takes away. -/
theorem exists_offset {separator : List Char → Option (List Char)} {c : Char} {offset : ℤ}
    (h : offset? separator (c :: cs) = some (offset, rest)) :
    ∃ (sign : ZoneSign) (hours : Fin 24) (minutes : Fin 60) (behind : List Char),
      c = sign.char ∧ cs = (Text.padded 2 hours).toList ++ behind ∧
      separator behind = some ((Text.padded 2 minutes).toList ++ rest) ∧
      offset = if sign matches .hyphen | .minus then -((hours * 3600 + minutes * 60 : ℕ) : ℤ)
        else (hours * 3600 + minutes * 60 : ℕ) := by
  obtain ⟨⟨negative, cs₁⟩, hsign, h⟩ := Option.bind_eq_some_iff.mp h
  obtain ⟨⟨hours, cs₂⟩, hhours, h⟩ := Option.bind_eq_some_iff.mp h
  obtain ⟨cs₃, hseparator, h⟩ := Option.bind_eq_some_iff.mp h
  obtain ⟨⟨minutes, cs₄⟩, hminutes, h⟩ := Option.bind_eq_some_iff.mp h
  obtain ⟨⟨hminute, hhour⟩, h⟩ := Option.ite_none_right_eq_some.mp h
  cases h
  obtain ⟨rfl, sign, rfl, rfl⟩ := exists_zoneSign hsign
  refine ⟨sign, ⟨hours, hhour⟩, ⟨minutes, hminute⟩, cs₂, rfl, exists_two hhours, ?_, rfl⟩
  rw [hseparator, exists_two hminutes]

theorem exists_clock {offset : ℤ} (h : offset? dropSeparator cs = some (offset, rest)) :
    ∃ z : RelaxedZone, cs = z.chars ++ rest ∧ z.seconds = offset := by
  cases cs with
  | nil => cases h
  | cons c cs =>
    obtain ⟨sign, hours, minutes, behind, rfl, rfl, hseparator, rfl⟩ := exists_offset h
    have hdropped : (behind.dropWhile fun c => c == ':' || Text.isBlank c) =
        (Text.padded 2 minutes).toList ++ rest := Option.some.inj hseparator
    refine ⟨.clock sign hours (behind.takeWhile fun c => c == ':' || Text.isBlank c)
      List.all_takeWhile minutes, ?_, ?_⟩
    · rw [RelaxedZone.chars, List.cons_append, List.append_assoc, List.append_assoc, ← hdropped,
        List.takeWhile_append_dropWhile]
    · cases sign <;> rfl

theorem exists_relaxedZone {offset : ℤ} (h : relaxedZone? cs = some (offset, rest)) :
    ∃ z : RelaxedZone, cs = z.chars ++ rest ∧ z.seconds = offset := by
  have hzone : zone? dropSeparator cs = some (offset, rest) →
      ∃ z : RelaxedZone, cs = z.chars ++ rest ∧ z.seconds = offset := by
    intro h
    cases cs with
    | nil => cases h
    | cons c cs =>
      rw [zone?] at h
      split at h
      · rename_i hletter
        cases h
        rcases hletter with rfl | rfl
        · exact ⟨.letter false, rfl, rfl⟩
        · exact ⟨.letter true, rfl, rfl⟩
      · exact exists_clock h
  rw [relaxedZone?.eq_def] at h
  split at h
  · rename_i u t c tail
    split at h
    · rename_i hword
      cases h
      obtain ⟨smallU, rfl⟩ := Text.letter_of_toLower 'u' 'U' (by decide) hword.1
      obtain ⟨smallT, rfl⟩ := Text.letter_of_toLower 't' 'T' (by decide) hword.2.1
      obtain ⟨smallC, rfl⟩ := Text.letter_of_toLower 'c' 'C' (by decide) hword.2.2
      exact ⟨.word smallU smallT smallC, rfl, rfl⟩
    · exact hzone h
  · exact hzone h

/-- What is read is a text of the grammar. -/
theorem exists_relaxedText {s : String} {t : Instant} (h : ofText? s = some t) :
    ∃ w : RelaxedText, w.text = s ∧ w.Admitted ∧ w.instant = t := by
  obtain ⟨⟨year, cs₁⟩, hyear, h⟩ := Option.bind_eq_some_iff.mp h
  obtain ⟨cs₂, hsign, h⟩ := Option.bind_eq_some_iff.mp h
  obtain ⟨⟨month, cs₃⟩, hmonth, h⟩ := Option.bind_eq_some_iff.mp h
  obtain ⟨cs₄, hsign', h⟩ := Option.bind_eq_some_iff.mp h
  obtain ⟨⟨day, cs₅⟩, hday, h⟩ := Option.bind_eq_some_iff.mp h
  obtain ⟨cs₆, hmark, h⟩ := Option.bind_eq_some_iff.mp h
  obtain ⟨⟨hour, cs₇⟩, hhour, h⟩ := Option.bind_eq_some_iff.mp h
  obtain ⟨cs₈, hcolon, h⟩ := Option.bind_eq_some_iff.mp h
  obtain ⟨⟨minute, cs₉⟩, hminute, h⟩ := Option.bind_eq_some_iff.mp h
  obtain ⟨cs₁₀, hcolon', h⟩ := Option.bind_eq_some_iff.mp h
  obtain ⟨⟨second, cs₁₁⟩, hsecond, h⟩ := Option.bind_eq_some_iff.mp h
  obtain ⟨⟨nanos, cs₁₂⟩, hfraction, h⟩ := Option.bind_eq_some_iff.mp h
  obtain ⟨⟨offset, cs₁₃⟩, hzone, h⟩ := Option.bind_eq_some_iff.mp h
  obtain ⟨hend, h⟩ := Option.ite_none_right_eq_some.mp h
  obtain ⟨date, hdate, h⟩ := Option.bind_eq_some_iff.mp h
  obtain ⟨⟨hhour24, hminute60, hsecond60, hadmitted, hday'⟩, hlocal⟩ :=
    Option.ite_none_right_eq_some.mp h
  obtain ⟨g₀, year, hs, rfl⟩ := exists_relaxedYear hyear
  obtain ⟨g₁, rfl⟩ := exists_relaxedSign hsign
  obtain ⟨g₂, month, rfl, rfl⟩ := exists_relaxedNumber hmonth
  obtain ⟨g₃, rfl⟩ := exists_relaxedSign hsign'
  obtain ⟨g₄, day, rfl, rfl⟩ := exists_relaxedNumber hday
  obtain ⟨mark, rfl, isMark⟩ := dateMark?_eq_some hmark
  obtain ⟨g₅, hour, rfl, rfl⟩ := exists_relaxedNumber hhour
  obtain ⟨g₆, rfl⟩ := exists_relaxedSign hcolon
  obtain ⟨g₇, minute, rfl, rfl⟩ := exists_relaxedNumber hminute
  obtain ⟨g₈, rfl⟩ := exists_relaxedSign hcolon'
  obtain ⟨g₉, second, rfl, rfl⟩ := exists_relaxedNumber hsecond
  obtain ⟨fraction, rfl, rfl⟩ := exists_fraction hfraction
  obtain ⟨g₁₀, hg₁₀⟩ := exists_gap cs₁₂
  obtain ⟨zone, hzoneChars, rfl⟩ := exists_relaxedZone hzone
  let g₁₁ : Blanks := ⟨cs₁₃, (Text.dropBlanks_eq_nil_iff _).mp hend⟩
  let w : RelaxedText := {
    gap := ![g₀, g₁, g₂, g₃, g₄, g₅, g₆, g₇, g₈, g₉, g₁₀, g₁₁]
    year := year
    month := month
    day := day
    date := date
    isDate := hdate
    mark := mark
    isMark := isMark
    hour := hour
    hour_lt := hhour24
    minute := minute
    minute_lt := hminute60
    second := second
    second_le := hsecond60
    fraction := fraction
    zone := zone }
  have hchars : w.chars = s.toList := by
    rw [hs, hg₁₀, hzoneChars]
    rfl
  refine ⟨w, ?_, ⟨hadmitted, hday'⟩, ?_⟩
  · rw [RelaxedText.text, hchars, String.ofList_toList]
  · rw [← Option.some.inj hlocal, RelaxedText.instant]
    split <;> rfl

end Instant
end PanelSource
