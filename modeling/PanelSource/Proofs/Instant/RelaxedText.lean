import PanelSource.Proofs.Instant.Grammars

/-! # Texts of the relaxed grammar

Blanks stand in front of numbers and marks, numbers need no zeros in front, years may be signed, and
zones have more forms. A text is read as the instant that it says, rounded down to nanoseconds; its
second sixty is a leap second. -/
namespace PanelSource

structure Blanks where
  chars : List Char
  blank : chars.all Text.isBlank = true

def Blanks.none : Blanks := ⟨[], rfl⟩

/-- One digit at least, and at most so many. -/
structure Numeral (most : ℕ) where
  chars : List Char
  digits : chars.all Char.isDigit = true
  pos : 0 < chars.length
  short : chars.length ≤ most

def Numeral.value {most : ℕ} (d : Numeral most) : ℕ := Text.digitsValue d.chars

inductive YearText
  | plain (ds : Numeral 4)
  | signed (negative : Bool) {most : ℕ} (ds : Numeral most)

namespace YearText

def value : YearText → ℤ
  | plain ds => ds.value
  | signed false ds => ds.value
  | signed true ds => -ds.value

def chars : YearText → List Char
  | plain ds => ds.chars
  | signed negative ds => (if negative then '-' else '+') :: ds.chars

end YearText

inductive ZoneSign
  | plus
  | hyphen
  | minus

def ZoneSign.char : ZoneSign → Char
  | plus => '+'
  | hyphen => '-'
  | minus => '−'

inductive RelaxedZone
  | letter (small : Bool)
  | word (smallU smallT smallC : Bool)
  | clock (sign : ZoneSign) (hours : Fin 24) (separator : List Char)
      (hseparator : separator.all (fun c => c == ':' || Text.isBlank c) = true) (minutes : Fin 60)

namespace RelaxedZone

/-- Seconds east of the meridian. -/
def seconds : RelaxedZone → ℤ
  | clock .plus hours _ _ minutes => (hours * 3600 + minutes * 60 : ℕ)
  | clock _ hours _ _ minutes => -(hours * 3600 + minutes * 60 : ℕ)
  | _ => 0

def chars : RelaxedZone → List Char
  | letter small => [if small then 'z' else 'Z']
  | word smallU smallT smallC =>
    [if smallU then 'u' else 'U', if smallT then 't' else 'T', if smallC then 'c' else 'C']
  | clock sign hours separator _ minutes =>
    sign.char :: ((Text.padded 2 hours).toList ++ (separator ++ (Text.padded 2 minutes).toList))

end RelaxedZone

/-- A text with a real date and a time of day, with blanks at all places for them. -/
structure RelaxedText where
  gap : Fin 12 → Blanks
  year : YearText
  month : Numeral 2
  day : Numeral 2
  date : Date
  isDate : Date.ofParts? year.value month.value day.value = some date
  mark : Char
  isMark : mark = 'T' ∨ mark = 't' ∨ mark = ' '
  hour : Numeral 2
  hour_lt : hour.value < 24
  minute : Numeral 2
  minute_lt : minute.value < 60
  second : Numeral 2
  second_le : second.value ≤ 60
  fraction : List (Fin 10)
  zone : RelaxedZone

namespace RelaxedText

/-- The mark of the texts that are written. -/
theorem isMark_written : 'T' = 'T' ∨ 'T' = 't' ∨ 'T' = ' ' := .inl rfl

def chars (w : RelaxedText) : List Char :=
  (w.gap 0).chars ++ (w.year.chars ++ ((w.gap 1).chars ++ '-' ::
    ((w.gap 2).chars ++ (w.month.chars ++ ((w.gap 3).chars ++ '-' ::
      ((w.gap 4).chars ++ (w.day.chars ++ w.mark ::
        ((w.gap 5).chars ++ (w.hour.chars ++ ((w.gap 6).chars ++ ':' ::
          ((w.gap 7).chars ++ (w.minute.chars ++ ((w.gap 8).chars ++ ':' ::
            ((w.gap 9).chars ++ (w.second.chars ++ (InstantText.fractionChars w.fraction ++
              ((w.gap 10).chars ++ (w.zone.chars ++ (w.gap 11).chars))))))))))))))))))

def text (w : RelaxedText) : String := String.ofList w.chars

def leap (w : RelaxedText) : Prop := w.second.value = 60

/-- Whole seconds since 1970; a leap second goes on behind the second before it. -/
def wholeSeconds (w : RelaxedText) : ℤ :=
  w.date.toDay * 86400 + (w.hour.value * 3600 + w.minute.value * 60 + min w.second.value 59 : ℕ) -
    w.zone.seconds

def seconds (w : RelaxedText) : ℚ := w.wholeSeconds + InstantText.fractionValue w.fraction

/-- The date on the clock of the text and the one in UTC are dates that instants may have. -/
def Admitted (w : RelaxedText) : Prop :=
  Instant.admitted w.date = true ∧
    Instant.admitted (Date.ofDay (w.wholeSeconds / 86400)) = true

def instant (w : RelaxedText) : Instant :=
  ⟨w.wholeSeconds, ⌊InstantText.fractionValue w.fraction * 10 ^ 9⌋₊ +
    if w.second.value = 60 then 1000000000 else 0⟩

end RelaxedText

namespace Instant
open Cutting

theorem dropBlanks_gap (g : Blanks) (rest : List Char) :
    Text.dropBlanks (g.chars ++ rest) = Text.dropBlanks rest :=
  List.dropWhile_append_of_pos (List.all_eq_true.mp g.blank)

theorem head_gap (g : Blanks) (rest : List Char) :
    ∀ c ∈ (g.chars ++ rest).head?, Text.isBlank c = true ∨ c ∈ rest.head? := by
  obtain ⟨chars, hblank⟩ := g
  cases chars with
  | nil => exact fun c hc => .inr hc
  | cons d chars =>
    rw [List.all_cons, Bool.and_eq_true] at hblank
    intro c hc
    cases Option.some.inj hc
    exact .inl hblank.1

/-- A blank is no digit. -/
theorem stops_gap (g : Blanks) {rest : List Char} (h : Stops Char.isDigit rest) :
    Stops Char.isDigit (g.chars ++ rest) := by
  intro c hc
  rcases head_gap g rest c hc with hblank | hc
  · refine Bool.eq_false_iff.mpr fun hdigit => ?_
    rw [Text.isBlank_of_isDigit hdigit] at hblank
    exact Bool.noConfusion hblank
  · exact h c hc

theorem endsFraction_gap (g : Blanks) {rest : List Char} (h : EndsFraction rest) :
    EndsFraction (g.chars ++ rest) := by
  refine ⟨stops_gap g h.1, fun c hc => ?_⟩
  rcases head_gap g rest c hc with hblank | hc
  · rintro rfl
    cases hblank
  · exact h.2 c hc

theorem stops_fractionChars (ds : List (Fin 10)) {rest : List Char} (h : EndsFraction rest) :
    Stops Char.isDigit (InstantText.fractionChars ds ++ rest) := by
  rw [InstantText.fractionChars]
  split
  · exact h.1
  · exact stops_cons.mpr rfl

theorem number?_numeral {most : ℕ} (d : Numeral most) {rest : List Char}
    (hrest : Stops Char.isDigit rest) :
    number? 1 most (d.chars ++ rest) = some (d.value, rest) := by
  have htake : ((d.chars ++ rest).take most).takeWhile Char.isDigit = d.chars := by
    rw [List.take_append, List.take_of_length_le d.short,
      List.takeWhile_append_of_pos (List.all_eq_true.mp d.digits),
      takeWhile_eq_nil (stops_take hrest _), List.append_nil]
  have hpos := d.pos
  rw [number?, takeDigits, htake, if_neg (by omega), List.drop_left]
  rfl

theorem dropBlanks_of_isDigit {c : Char} {cs : List Char} (h : c.isDigit = true) :
    Text.dropBlanks (c :: cs) = c :: cs := Text.dropBlanks_cons (Text.isBlank_of_isDigit h) cs

theorem exists_digit {most : ℕ} (d : Numeral most) :
    ∃ c cs, d.chars = c :: cs ∧ c.isDigit = true := by
  obtain ⟨c, cs, hchars⟩ := List.exists_cons_of_length_pos d.pos
  have hdigits := d.digits
  rw [hchars, List.all_cons, Bool.and_eq_true] at hdigits
  exact ⟨c, cs, hchars, hdigits.1⟩

theorem relaxedNumber?_numeral (g : Blanks) (d : Numeral 2) {rest : List Char}
    (hrest : Stops Char.isDigit rest) :
    relaxedNumber? (g.chars ++ (d.chars ++ rest)) = some (d.value, rest) := by
  obtain ⟨c, cs, hchars, hc⟩ := exists_digit d
  rw [relaxedNumber?, dropBlanks_gap, ← number?_numeral d hrest, hchars, List.cons_append,
    dropBlanks_of_isDigit hc]

theorem relaxedSign?_gap (g : Blanks) {c : Char} (hc : Text.isBlank c = false) (rest : List Char) :
    relaxedSign? c (g.chars ++ c :: rest) = some rest := by
  rw [relaxedSign?, dropBlanks_gap, Text.dropBlanks_cons hc, sign?_cons]

theorem relaxedYear?_chars (g : Blanks) (y : YearText) {rest : List Char}
    (hrest : Stops Char.isDigit rest) :
    relaxedYear? (g.chars ++ (y.chars ++ rest)) = some (y.value, rest) := by
  cases y with
  | plain ds =>
    obtain ⟨c, cs, hchars, hc⟩ := exists_digit ds
    have hnumber := number?_numeral ds hrest
    rw [YearText.chars, relaxedYear?, dropBlanks_gap]
    rw [hchars, List.cons_append] at hnumber ⊢
    rw [dropBlanks_of_isDigit hc]
    split
    · rename_i heq
      cases heq
      cases hc
    · rename_i heq
      cases heq
      cases hc
    · rw [hnumber]
      rfl
  | @signed negative most ds =>
    have hnumber : number? 1 (ds.chars ++ rest).length (ds.chars ++ rest) =
        some (ds.value, rest) := by
      let ds' : Numeral (ds.chars ++ rest).length := ⟨ds.chars, ds.digits, ds.pos, by simp⟩
      exact number?_numeral ds' hrest
    rw [relaxedYear?, dropBlanks_gap]
    cases negative with
    | false =>
      rw [show (YearText.signed false ds).chars ++ rest = '+' :: (ds.chars ++ rest) from rfl,
        Text.dropBlanks_cons (by decide)]
      simp only [hnumber]
      rfl
    | true =>
      rw [show (YearText.signed true ds).chars ++ rest = '-' :: (ds.chars ++ rest) from rfl,
        Text.dropBlanks_cons (by decide)]
      simp only [hnumber]
      rfl

theorem dropSeparator_append {separator : List Char}
    (hseparator : separator.all (fun c => c == ':' || Text.isBlank c) = true) {d : Char}
    (hd : d.isDigit = true) (cs : List Char) :
    dropSeparator (separator ++ d :: cs) = some (d :: cs) := by
  have hdigit := dropSeparator_colon hd cs
  rw [dropSeparator, List.dropWhile_append_of_pos (List.all_eq_true.mp hseparator)]
  exact hdigit

theorem zoneSign?_char (sign : ZoneSign) (rest : List Char) :
    zoneSign? (sign.char :: rest) = some (sign matches .hyphen | .minus, rest) := by
  cases sign <;> rfl

/-- A zone does not begin with a blank, a digit or a point. -/
theorem exists_zone_cons (z : RelaxedZone) : ∃ c cs, z.chars = c :: cs ∧
    Text.isBlank c = false ∧ c.isDigit = false ∧ c ≠ '.' := by
  cases z with
  | letter small => cases small <;> exact ⟨_, _, rfl, by decide, by decide, by decide⟩
  | word smallU smallT smallC => cases smallU <;> exact ⟨_, _, rfl, by decide, by decide, by decide⟩
  | clock sign => cases sign <;> exact ⟨_, _, rfl, by decide, by decide, by decide⟩

theorem relaxedZone?_chars (z : RelaxedZone) (g : Blanks) :
    relaxedZone? (z.chars ++ g.chars) = some (z.seconds, g.chars) := by
  cases z with
  | letter small => cases small <;> exact relaxedZone?_cons (by decide) _
  | word smallU smallT smallC => cases smallU <;> cases smallT <;> cases smallC <;> rfl
  | clock sign hours separator hseparator minutes =>
    have hlead : sign.char.toLower ≠ 'u' ∧ ¬(sign.char = 'Z' ∨ sign.char = 'z') := by
      cases sign <;> decide
    have hminutes : ∃ d cs, (Text.padded 2 minutes).toList = d :: cs ∧ d.isDigit = true := by
      obtain ⟨d, cs, hpadded⟩ := List.exists_cons_of_length_pos
        (l := (Text.padded 2 minutes).toList) (by rw [Text.length_padded] <;> omega)
      have hall := Text.all_isDigit_padded 2 minutes
      rw [hpadded, List.all_cons, Bool.and_eq_true] at hall
      exact ⟨d, cs, hpadded, hall.1⟩
    obtain ⟨d, cs, hpadded, hd⟩ := hminutes
    have hread := number?_two (n := minutes) (by omega) g.chars
    have hreadHours := number?_two (n := hours) (by omega)
      (separator ++ ((Text.padded 2 minutes).toList ++ g.chars))
    rw [RelaxedZone.chars, List.cons_append, relaxedZone?_cons hlead.1, zone?, if_neg hlead.2]
    simp only [List.append_assoc]
    refine read_step (zoneSign?_char sign _) (read_step hreadHours ?_)
    rw [hpadded, List.cons_append] at hread ⊢
    refine read_step (dropSeparator_append hseparator hd _) (read_step hread ?_)
    refine (if_pos ⟨minutes.isLt, hours.isLt⟩).trans ?_
    cases sign <;> rfl

end Instant

namespace RelaxedText
open Instant Cutting

/-- The clock of a text shows an hour, a minute and a second that there are. -/
theorem ofLocal?_clock {w : RelaxedText} (h : w.Admitted) :
    ofLocal? w.date w.hour.value w.minute.value w.second.value
      ⌊InstantText.fractionValue w.fraction * 10 ^ 9⌋₊ w.zone.seconds = some w.instant := by
  refine (if_pos ⟨w.hour_lt, w.minute_lt, w.second_le, h.1, h.2⟩).trans ?_
  rw [instant]
  split <;> rfl

/-- A text is read as what it says. -/
theorem ofText?_text {w : RelaxedText} (h : w.Admitted) : ofText? w.text = some w.instant := by
  obtain ⟨c, cs, hzone, hblank, hdigit, hpoint⟩ := exists_zone_cons w.zone
  have hhyphen : ∀ rest, Stops Char.isDigit ('-' :: rest) := fun _ => stops_cons.mpr rfl
  have hcolon : ∀ rest, Stops Char.isDigit (':' :: rest) := fun _ => stops_cons.mpr rfl
  have hmark : ∀ rest, Stops Char.isDigit (w.mark :: rest) := by
    intro rest
    rcases w.isMark with hm | hm | hm <;> exact stops_cons.mpr (by rw [hm]; rfl)
  have hfraction : EndsFraction ((w.gap 10).chars ++ (w.zone.chars ++ (w.gap 11).chars)) := by
    rw [hzone]
    exact endsFraction_gap _ (endsFraction_cons hdigit hpoint _)
  have hzoneRead : relaxedZone? (Text.dropBlanks
      ((w.gap 10).chars ++ (w.zone.chars ++ (w.gap 11).chars))) =
        some (w.zone.seconds, (w.gap 11).chars) := by
    rw [← relaxedZone?_chars, dropBlanks_gap, hzone, List.cons_append, Text.dropBlanks_cons hblank]
  rw [Instant.ofText?, text, String.toList_ofList, relaxed?, chars]
  refine read_step (relaxedYear?_chars _ _ (stops_gap _ (hhyphen _))) ?_
  refine read_step (relaxedSign?_gap _ rfl _) ?_
  refine read_step (relaxedNumber?_numeral _ _ (stops_gap _ (hhyphen _))) ?_
  refine read_step (relaxedSign?_gap _ rfl _) ?_
  refine read_step (relaxedNumber?_numeral _ _ (hmark _)) ?_
  refine read_step (dateMark?_cons w.isMark _) ?_
  refine read_step (relaxedNumber?_numeral _ _ (stops_gap _ (hcolon _))) ?_
  refine read_step (relaxedSign?_gap _ rfl _) ?_
  refine read_step (relaxedNumber?_numeral _ _ (stops_gap _ (hcolon _))) ?_
  refine read_step (relaxedSign?_gap _ rfl _) ?_
  refine read_step (relaxedNumber?_numeral _ _ (stops_fractionChars _ hfraction)) ?_
  refine read_step (fraction?_fractionChars _ hfraction) ?_
  refine read_step hzoneRead ?_
  refine (if_pos ((Text.dropBlanks_eq_nil_iff _).mpr (w.gap 11).blank)).trans ?_
  exact read_step w.isDate (ofLocal?_clock h)

end RelaxedText
end PanelSource
