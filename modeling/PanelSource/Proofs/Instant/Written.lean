import Mathlib.Algebra.Order.Floor.Semifield
import Mathlib.Data.List.TakeWhile
import Mathlib.Data.Rat.Floor
import Mathlib.Tactic.Linarith
import Mathlib.Tactic.NormNum
import Mathlib.Tactic.Positivity
import PanelSource.Instant.Text
import PanelSource.Proofs.Instant.Calendar
import PanelSource.Proofs.Text.Cutting
import PanelSource.Proofs.Text.Digits

/-! # Texts of instants

A text of the strict grammar says a date and a time of a clock, with any number of digits behind the
second, and where the clock stands. It is read as its instant, rounded down to nanoseconds. -/
namespace PanelSource

/-- How a text says where its clock stands. -/
inductive ZoneText
  | utc (small : Bool)
  | ahead (hours : Fin 24) (minutes : Fin 60)
  | behind (hours : Fin 24) (minutes : Fin 60)

namespace ZoneText

/-- Seconds east of the meridian. -/
def seconds : ZoneText → ℤ
  | utc _ => 0
  | ahead hours minutes => (hours * 3600 + minutes * 60 : Nat)
  | behind hours minutes => -(hours * 3600 + minutes * 60 : Nat)

def clockChars (hours : Fin 24) (minutes : Fin 60) : List Char :=
  (Text.padded 2 hours).toList ++ ':' :: (Text.padded 2 minutes).toList

def chars : ZoneText → List Char
  | utc small => [if small then 'z' else 'Z']
  | ahead hours minutes => '+' :: clockChars hours minutes
  | behind hours minutes => '-' :: clockChars hours minutes

end ZoneText

/-- What a text of an instant says. The fraction is the digits behind the second. -/
structure InstantText where
  date : Date
  isDate : Date.ofParts? date.year date.month date.day = some date
  nonneg : 0 ≤ date.year
  short : date.year ≤ 9999
  mark : Char
  isMark : mark = 'T' ∨ mark = 't' ∨ mark = ' '
  hour : Fin 24
  minute : Fin 60
  second : Fin 60
  fraction : List (Fin 10)
  zone : ZoneText

namespace InstantText

def digitChars (ds : List (Fin 10)) : List Char := ds.map fun d : Fin 10 => Nat.digitChar d.val

def fractionChars (ds : List (Fin 10)) : List Char :=
  if ds = [] then [] else '.' :: digitChars ds

def fractionValue : List (Fin 10) → ℚ
  | [] => 0
  | d :: ds => ((d : ℕ) + fractionValue ds) / 10

def chars (w : InstantText) : List Char :=
  (Text.padded 4 w.date.year.toNat).toList ++ '-' ::
    ((Text.padded 2 w.date.month).toList ++ '-' ::
      ((Text.padded 2 w.date.day).toList ++ w.mark ::
        ((Text.padded 2 w.hour).toList ++ ':' ::
          ((Text.padded 2 w.minute).toList ++ ':' ::
            ((Text.padded 2 w.second).toList ++ (fractionChars w.fraction ++ w.zone.chars))))))

def text (w : InstantText) : String := String.ofList w.chars

/-- Whole seconds since 1970. -/
def wholeSeconds (w : InstantText) : ℤ :=
  w.date.toDay * 86400 + (w.hour * 3600 + w.minute * 60 + w.second : Nat) - w.zone.seconds

def seconds (w : InstantText) : ℚ := w.wholeSeconds + fractionValue w.fraction

end InstantText

namespace InstantText

theorem length_digitChars (ds : List (Fin 10)) : (digitChars ds).length = ds.length :=
  List.length_map _

theorem fractionValue_mem (ds : List (Fin 10)) : 0 ≤ fractionValue ds ∧ fractionValue ds < 1 := by
  induction ds with
  | nil => exact ⟨le_rfl, one_pos⟩
  | cons d ds ih =>
    have hdigit : ((d : ℕ) : ℚ) ≤ 9 := by exact_mod_cast Nat.lt_succ_iff.mp d.isLt
    have hdigit' : (0 : ℚ) ≤ (d : ℕ) := Nat.cast_nonneg _
    rw [fractionValue]
    constructor <;> linarith

theorem digitsValue_digitChars_cons (d : Fin 10) (ds : List (Fin 10)) :
    Text.digitsValue (digitChars (d :: ds)) =
      d * 10 ^ ds.length + Text.digitsValue (digitChars ds) := by
  have hfirst : Text.digitsValue [Nat.digitChar d] = d := by
    rw [Text.digitsValue, List.foldl_cons, List.foldl_nil, Text.digitValue_digitChar d.isLt]
    omega
  rw [digitChars, List.map_cons, ← List.singleton_append, Text.digitsValue_append, hfirst,
    List.length_map]
  rfl

/-- Digits cut off round a fraction down. -/
theorem floor_fractionValue (ds : List (Fin 10)) (k : ℕ) :
    ⌊fractionValue ds * 10 ^ k⌋₊ =
      Text.digitsValue (digitChars (ds.take k)) * 10 ^ (k - (ds.take k).length) := by
  induction ds generalizing k with
  | nil => simp [fractionValue, digitChars, Text.digitsValue]
  | cons d ds ih =>
    cases k with
    | zero =>
      have hvalue := fractionValue_mem (d :: ds)
      rw [pow_zero, mul_one, Nat.floor_eq_zero.mpr hvalue.2]
      rfl
    | succ k =>
      have hshift : fractionValue (d :: ds) * 10 ^ (k + 1) =
          (d * 10 ^ k : ℕ) + fractionValue ds * 10 ^ k := by
        rw [fractionValue, pow_succ]
        push_cast
        ring
      have hlength : (ds.take k).length + (k - (ds.take k).length) = k := by
        rw [List.length_take]
        omega
      have hrest : 0 ≤ fractionValue ds * 10 ^ k :=
        mul_nonneg (fractionValue_mem ds).1 (by positivity)
      rw [hshift, add_comm, Nat.floor_add_natCast hrest,
        ih, List.take_succ_cons, digitsValue_digitChars_cons, List.length_cons,
        Nat.add_sub_add_right, Nat.add_mul, mul_assoc, ← pow_add, hlength, add_comm]

end InstantText

namespace Instant
open Cutting

theorem read_step {α β : Type} {read : Option α} {next : α → Option β} {a : α} {b : β}
    (hread : read = some a) (hnext : next a = some b) : read.bind next = some b :=
  Option.bind_eq_some_iff.mpr ⟨a, hread, hnext⟩

theorem takeDigits_append {ds : List Char} (hds : ds.all Char.isDigit = true) (rest : List Char) :
    takeDigits ds.length ds.length (ds ++ rest) = some (ds, rest) := by
  have hall := List.takeWhile_eq_self_iff.mpr (List.all_eq_true.mp hds)
  simp [takeDigits, hall]

theorem number?_padded {width n : ℕ} (h : n < 10 ^ width) (hwidth : 0 < width)
    (rest : List Char) : number? width width ((Text.padded width n).toList ++ rest) =
      some (n, rest) := by
  have htake := takeDigits_append (Text.all_isDigit_padded width n) rest
  rw [Text.length_padded h hwidth] at htake
  rw [number?, htake, Option.map_some]
  exact congrArg (fun m => some (m, rest)) (Text.digitsValue_padded width n)

theorem number?_two {n : ℕ} (h : n < 100) (rest : List Char) :
    number? 2 2 ((Text.padded 2 n).toList ++ rest) = some (n, rest) :=
  number?_padded h two_pos rest

theorem sign?_cons (c : Char) (rest : List Char) : sign? c (c :: rest) = some rest := if_pos rfl

theorem dateMark?_cons {c : Char} (h : c = 'T' ∨ c = 't' ∨ c = ' ') (rest : List Char) :
    dateMark? (c :: rest) = some rest := if_pos h

/-- What follows a fraction: neither a point nor a digit. -/
def EndsFraction (rest : List Char) : Prop :=
  Stops Char.isDigit rest ∧ ∀ c ∈ rest.head?, c ≠ '.'

theorem takeWhile_eq_nil {p : Char → Bool} {rest : List Char} (h : Stops p rest) :
    rest.takeWhile p = [] := by
  cases rest with
  | nil => rfl
  | cons c rest => exact List.takeWhile_cons_of_neg (by simp [stops_cons.mp h])

theorem dropWhile_eq_self {p : Char → Bool} {rest : List Char} (h : Stops p rest) :
    rest.dropWhile p = rest := by
  cases rest with
  | nil => rfl
  | cons c rest => exact List.dropWhile_cons_of_neg (by simp [stops_cons.mp h])

theorem stops_take {p : Char → Bool} {rest : List Char} (h : Stops p rest) (k : ℕ) :
    Stops p (rest.take k) := by
  cases rest with
  | nil => rw [List.take_nil]; exact h
  | cons c rest =>
    cases k with
    | zero => exact stops_nil p
    | succ k => exact stops_cons.mpr (stops_cons.mp h)

theorem isDigit_of_mem_digitChars {ds : List (Fin 10)} {c : Char}
    (h : c ∈ InstantText.digitChars ds) : c.isDigit = true := by
  have hdigit : ∀ d : Fin 10, (Nat.digitChar d).isDigit = true := by decide
  obtain ⟨d, -, rfl⟩ := List.mem_map.mp h
  exact hdigit d

/-- Nine digits count, and the others are passed over. -/
theorem takeDigits_digitChars {ds : List (Fin 10)} (hne : ds ≠ []) {rest : List Char}
    (hrest : Stops Char.isDigit rest) :
    takeDigits 1 9 (InstantText.digitChars ds ++ rest) =
      some (InstantText.digitChars (ds.take 9), InstantText.digitChars (ds.drop 9) ++ rest) := by
  have htake : ((InstantText.digitChars ds ++ rest).take 9).takeWhile Char.isDigit =
      InstantText.digitChars (ds.take 9) := by
    have hcut : (InstantText.digitChars ds).take 9 = InstantText.digitChars (ds.take 9) :=
      List.map_take.symm
    rw [List.take_append, hcut, List.takeWhile_append_of_pos fun _ h => isDigit_of_mem_digitChars h,
      takeWhile_eq_nil (stops_take hrest _), List.append_nil]
  have hsplit : InstantText.digitChars ds ++ rest =
      InstantText.digitChars (ds.take 9) ++ (InstantText.digitChars (ds.drop 9) ++ rest) := by
    rw [← List.append_assoc, InstantText.digitChars, InstantText.digitChars,
      InstantText.digitChars, ← List.map_append, List.take_append_drop]
  have hcount : 0 < (InstantText.digitChars (ds.take 9)).length := by
    have hpos := List.length_pos_of_ne_nil hne
    rw [InstantText.length_digitChars, List.length_take]
    omega
  rw [takeDigits, htake, if_neg (by omega), hsplit, List.drop_left]

theorem fraction?_of_ne_point {rest : List Char} (h : ∀ c ∈ rest.head?, c ≠ '.') :
    fraction? rest = some (0, rest) := by
  rw [fraction?.eq_def]
  split
  · exact absurd rfl (h '.' rfl)
  · rfl

theorem fraction?_digitChars {ds : List (Fin 10)} (hne : ds ≠ []) {rest : List Char}
    (hrest : Stops Char.isDigit rest) :
    fraction? ('.' :: (InstantText.digitChars ds ++ rest)) =
      some (⌊InstantText.fractionValue ds * 10 ^ 9⌋₊, rest) := by
  have hskip : (InstantText.digitChars (ds.drop 9) ++ rest).dropWhile Char.isDigit = rest := by
    rw [List.dropWhile_append_of_pos fun _ h => isDigit_of_mem_digitChars h,
      dropWhile_eq_self hrest]
  rw [InstantText.floor_fractionValue, fraction?, takeDigits_digitChars hne hrest, Option.map_some]
  simp only [hskip, Nat.pow_eq, InstantText.length_digitChars]

theorem fraction?_fractionChars (ds : List (Fin 10)) {rest : List Char}
    (hrest : EndsFraction rest) :
    fraction? (InstantText.fractionChars ds ++ rest) =
      some (⌊InstantText.fractionValue ds * 10 ^ 9⌋₊, rest) := by
  rw [InstantText.fractionChars]
  split
  · rename_i hnil
    rw [hnil, List.nil_append, fraction?_of_ne_point hrest.2, InstantText.fractionValue, zero_mul,
      Nat.floor_zero]
  · rename_i hne
    exact fraction?_digitChars hne hrest.1

theorem endsFraction_cons {c : Char} (hdigit : c.isDigit = false) (hpoint : c ≠ '.')
    (rest : List Char) : EndsFraction (c :: rest) :=
  ⟨stops_cons.mpr hdigit, fun _ hc => Option.some.inj hc ▸ hpoint⟩

theorem endsFraction_chars (z : ZoneText) : EndsFraction z.chars := by
  cases z with
  | utc small => cases small <;> exact endsFraction_cons rfl (by decide) _
  | ahead hours minutes => exact endsFraction_cons rfl (by decide) _
  | behind hours minutes => exact endsFraction_cons rfl (by decide) _

/-- A sign, then hours and minutes. -/
theorem offset?_clockChars {c : Char} {negative : Bool} (hours : Fin 24) (minutes : Fin 60)
    (hsign : ∀ rest, zoneSign? (c :: rest) = some (negative, rest)) :
    offset? (sign? ':') (c :: ZoneText.clockChars hours minutes) =
      some (if negative then -((hours * 3600 + minutes * 60 : ℕ) : ℤ)
        else (hours * 3600 + minutes * 60 : ℕ), []) := by
  have hhours := number?_two (n := hours) (by omega) (':' :: (Text.padded 2 minutes).toList)
  have hminutes := number?_two (n := minutes) (by omega) []
  rw [List.append_nil] at hminutes
  rw [offset?, hsign]
  simp [ZoneText.clockChars, hhours, hminutes, sign?_cons]

theorem zone?_chars (z : ZoneText) : zone? (sign? ':') z.chars = some (z.seconds, []) := by
  cases z with
  | utc small => cases small <;> rfl
  | ahead hours minutes =>
    rw [ZoneText.chars, zone?, if_neg (by decide), offset?_clockChars hours minutes fun _ => rfl]
    rfl
  | behind hours minutes =>
    rw [ZoneText.chars, zone?, if_neg (by decide), offset?_clockChars hours minutes fun _ => rfl]
    rfl

theorem zoneSeconds_mem (z : ZoneText) : -86400 < z.seconds ∧ z.seconds < 86400 := by
  cases z <;> simp only [ZoneText.seconds] <;> omega

theorem admitted_of_year {d : Date} (hleast : -1 ≤ d.year) (hgreatest : d.year ≤ 10000) :
    admitted d = true := by
  rw [admitted, Bool.and_eq_true, decide_eq_true_eq, decide_eq_true_eq, leastYear, greatestYear]
  omega

section
variable {date : Date} (hdate : Date.ofParts? date.year date.month date.day = some date)
  (hnonneg : 0 ≤ date.year) (hshort : date.year ≤ 9999)
include hdate hnonneg hshort

/-- The days beside a date of four digits are admitted too. -/
theorem admitted_ofDay {day : ℤ} (hleast : date.toDay - 1 ≤ day)
    (hgreatest : day ≤ date.toDay + 1) : admitted (Date.ofDay day) = true := by
  have hday := Date.toDay_bounds hdate
  have hfirst := Calendar.yearStart_le (x := 0) hnonneg
  have hlast := Calendar.yearStart_le (x := date.year + 1) (y := 10000) (by omega)
  have hbefore : Calendar.yearStart (-1) < Calendar.yearStart 0 - 1 := by decide
  have hbehind : Calendar.yearStart 10000 + 1 < Calendar.yearStart 10001 := by decide
  have hyear : -1 ≤ Calendar.yearOfDay day ∧ Calendar.yearOfDay day < 10001 :=
    Calendar.yearOfDay_mem (by omega) (by omega)
  exact admitted_of_year hyear.1 (by rw [Date.year_ofDay]; omega)

/-- A date of four digits is a local date in every zone. -/
theorem ofLocal?_of_mem {hour minute second : ℕ} (hhour : hour < 24) (hminute : minute < 60)
    (hsecond : second ≤ 60) (nanos : ℕ) {offset : ℤ} (hahead : -86400 < offset)
    (hbehind : offset < 86400) :
    ofLocal? date hour minute second nanos offset =
      some ⟨date.toDay * 86400 + (hour * 3600 + minute * 60 + min second 59 : ℕ) - offset,
        if second = 60 then nanos + 1000000000 else nanos⟩ := by
  have hadmitted : admitted date = true := admitted_of_year (by omega) (by omega)
  have hadmitted' : admitted (Date.ofDay ((date.toDay * 86400 +
      (hour * 3600 + minute * 60 + min second 59 : ℕ) - offset) / 86400)) = true :=
    admitted_ofDay hdate hnonneg hshort (by omega) (by omega)
  exact if_pos ⟨hhour, hminute, hsecond, hadmitted, hadmitted'⟩

end

/-- The characters of a strict text, but for those of its zone. -/
def strictChars (date : Date) (mark : Char) (hour minute second : ℕ) (fraction : List (Fin 10))
    (zone : List Char) : List Char :=
  (Text.padded 4 date.year.toNat).toList ++ '-' ::
    ((Text.padded 2 date.month).toList ++ '-' ::
      ((Text.padded 2 date.day).toList ++ mark ::
        ((Text.padded 2 hour).toList ++ ':' ::
          ((Text.padded 2 minute).toList ++ ':' ::
            ((Text.padded 2 second).toList ++ (InstantText.fractionChars fraction ++ zone))))))

/-- A date and a time are read, and a zone if it is read to its end. -/
theorem strict?_strictChars {date : Date}
    (hdate : Date.ofParts? date.year date.month date.day = some date) (hnonneg : 0 ≤ date.year)
    (hshort : date.year ≤ 9999) {mark : Char} (hmark : mark = 'T' ∨ mark = 't' ∨ mark = ' ')
    {hour minute second : ℕ} (hhour : hour < 24) (hminute : minute < 60) (hsecond : second ≤ 60)
    (fraction : List (Fin 10)) {zone : List Char} {offset : ℤ} (hends : EndsFraction zone)
    (hzone : zone? (sign? ':') zone = some (offset, [])) {t : Instant}
    (hlocal : ofLocal? date hour minute second ⌊InstantText.fractionValue fraction * 10 ^ 9⌋₊
      offset = some t) :
    strict? (strictChars date mark hour minute second fraction zone) = some t := by
  have hparts := (Date.ofParts?_eq_some hdate).2
  have hdate' : Date.ofParts? (date.year.toNat : ℤ) date.month date.day = some date := by
    rw [Int.toNat_of_nonneg hnonneg]
    exact hdate
  rw [strict?, strictChars]
  refine read_step (number?_padded (by omega) (by decide) _) ?_
  refine read_step (sign?_cons _ _) ?_
  refine read_step (number?_two (by omega) _) ?_
  refine read_step (sign?_cons _ _) ?_
  refine read_step (number?_two (by omega) _) ?_
  refine read_step (dateMark?_cons hmark _) ?_
  refine read_step (number?_two (by omega) _) ?_
  refine read_step (sign?_cons _ _) ?_
  refine read_step (number?_two (by omega) _) ?_
  refine read_step (sign?_cons _ _) ?_
  refine read_step (number?_two (by omega) _) ?_
  refine read_step (fraction?_fractionChars fraction hends) ?_
  refine read_step hzone ?_
  exact (if_pos rfl).trans (read_step hdate' hlocal)

/-- The milliseconds of an instant between two seconds are rounded down. -/
theorem millis_fractionValue (wholeSeconds : ℤ) (ds : List (Fin 10)) :
    Instant.millis ⟨wholeSeconds, ⌊InstantText.fractionValue ds * 10 ^ 9⌋₊⟩ =
      ⌊(wholeSeconds + InstantText.fractionValue ds) * 1000⌋ := by
  have hnonneg := (InstantText.fractionValue_mem ds).1
  have hnanos : ⌊InstantText.fractionValue ds * 10 ^ 9⌋₊ / 1000000 =
      ⌊InstantText.fractionValue ds * 1000⌋₊ := by
    have hscale : InstantText.fractionValue ds * 1000 =
        InstantText.fractionValue ds * 10 ^ 9 / (1000000 : ℕ) := by
      push_cast
      ring
    rw [hscale, Nat.floor_div_natCast]
  have hsplit : (wholeSeconds + InstantText.fractionValue ds) * 1000 =
      (wholeSeconds * 1000 : ℤ) + InstantText.fractionValue ds * 1000 := by
    push_cast
    ring
  rw [hsplit, Int.floor_intCast_add, Instant.millis, hnanos,
    Int.natCast_floor_eq_floor (by positivity)]

/-- All seconds have a date and a time of day. -/
theorem exists_timeOfDay (seconds : ℤ) :
    ∃ (date : Date) (hour : Fin 24) (minute second : Fin 60),
      Date.ofParts? date.year date.month date.day = some date ∧
      date.year = Calendar.yearOfDay (seconds / 86400) ∧
      date.toDay * 86400 + (hour * 3600 + minute * 60 + second : ℕ) = seconds := by
  obtain ⟨rest, hrest⟩ : ∃ rest, rest = (seconds % 86400).toNat := ⟨_, rfl⟩
  obtain ⟨hdate, hday⟩ := Date.ofParts?_ofDay (seconds / 86400)
  refine ⟨Date.ofDay (seconds / 86400), ⟨rest / 3600, by omega⟩, ⟨rest / 60 % 60, by omega⟩,
    ⟨rest % 60, by omega⟩, hdate, rfl, ?_⟩
  simp only [hday]
  omega

end Instant

namespace InstantText

/-- A text is read as what it says, rounded down to nanoseconds. -/
theorem ofStrictText?_text (w : InstantText) :
    Instant.ofStrictText? w.text =
      some ⟨w.wholeSeconds, ⌊fractionValue w.fraction * 10 ^ 9⌋₊⟩ := by
  have hzone := Instant.zoneSeconds_mem w.zone
  have hsecond : w.second.val ≤ 60 := by omega
  have hclock : min w.second.val 59 = w.second ∧ w.second.val ≠ 60 := by omega
  have hlocal := Instant.ofLocal?_of_mem w.isDate w.nonneg w.short w.hour.isLt w.minute.isLt
    hsecond ⌊fractionValue w.fraction * 10 ^ 9⌋₊ hzone.1 hzone.2
  rw [hclock.1, if_neg hclock.2] at hlocal
  rw [Instant.ofStrictText?, text, String.toList_ofList]
  exact Instant.strict?_strictChars w.isDate w.nonneg w.short w.isMark w.hour.isLt w.minute.isLt
    hsecond w.fraction (Instant.endsFraction_chars w.zone) (Instant.zone?_chars w.zone) hlocal

/-- To milliseconds a text is rounded down. -/
theorem millis_floor (w : InstantText) :
    Instant.millis ⟨w.wholeSeconds, ⌊fractionValue w.fraction * 10 ^ 9⌋₊⟩ =
      ⌊w.seconds * 1000⌋ := Instant.millis_fractionValue w.wholeSeconds w.fraction

/-- The last digits of a number, zeros in front of them. -/
def lastDigits : ℕ → ℕ → List (Fin 10)
  | 0, _ => []
  | k + 1, n => Fin.ofNat 10 (n / 10 ^ k) :: lastDigits k (n % 10 ^ k)

theorem fractionValue_lastDigits (k : ℕ) {n : ℕ} (h : n < 10 ^ k) :
    fractionValue (lastDigits k n) = n / 10 ^ k := by
  induction k generalizing n with
  | zero =>
    obtain rfl : n = 0 := by omega
    rw [Nat.cast_zero, zero_div]
    rfl
  | succ k ih =>
    have hfirst : n / 10 ^ k < 10 := Nat.div_lt_of_lt_mul (by rw [← pow_succ]; exact h)
    have hdigit : (Fin.ofNat 10 (n / 10 ^ k)).val = n / 10 ^ k := Nat.mod_eq_of_lt hfirst
    have hsum : (n : ℚ) = 10 ^ k * (n / 10 ^ k : ℕ) + (n % 10 ^ k : ℕ) := by
      exact_mod_cast (Nat.div_add_mod n (10 ^ k)).symm
    have hpow : (10 : ℚ) ^ k ≠ 0 := by positivity
    rw [lastDigits, fractionValue, hdigit, ih (Nat.mod_lt n (by positivity)), hsum, pow_succ]
    field_simp

/-- The year on a clock that stands in a zone, at whole seconds since 1970. -/
def yearIn (zone : ZoneText) (wholeSeconds : ℤ) : ℤ :=
  Calendar.yearOfDay ((wholeSeconds + zone.seconds) / 86400)

theorem exists_text (zone : ZoneText) {wholeSeconds : ℤ} (hnonneg : 0 ≤ yearIn zone wholeSeconds)
    (hshort : yearIn zone wholeSeconds ≤ 9999) (digits : List (Fin 10)) :
    ∃ w : InstantText, w.zone = zone ∧ w.wholeSeconds = wholeSeconds ∧ w.fraction = digits := by
  obtain ⟨date, hour, minute, second, hdate, hyear, hclock⟩ :=
    Instant.exists_timeOfDay (wholeSeconds + zone.seconds)
  refine ⟨{
    date := date
    isDate := hdate
    nonneg := hyear ▸ hnonneg
    short := hyear ▸ hshort
    mark := 'T'
    isMark := .inl rfl
    hour := hour
    minute := minute
    second := second
    fraction := digits
    zone }, rfl, ?_, rfl⟩
  simp only [InstantText.wholeSeconds]
  omega

end InstantText
end PanelSource
