import Mathlib.Tactic.Ring
import PanelSource.Proofs.Text.Cutting
import PanelSource.Text.Basic

/-! # Runs of digits, and texts of integers

The value of a run is positional, and a padded numeral has as many digits as it is padded to. An
integer is read from a run behind a sign or without one, and from nothing else. -/
namespace PanelSource.Text

theorem foldl_digitValue (n : Nat) (ds : List Char) :
    ds.foldl (fun n c => 10 * n + digitValue c) n = n * 10 ^ ds.length + digitsValue ds := by
  induction ds generalizing n with
  | nil => simp [digitsValue]
  | cons c ds ih =>
    rw [digitsValue, List.foldl_cons, List.foldl_cons, ih, ih (10 * 0 + digitValue c),
      List.length_cons, Nat.pow_succ]
    ring

theorem digitsValue_append (ds fs : List Char) :
    digitsValue (ds ++ fs) = digitsValue ds * 10 ^ fs.length + digitsValue fs := by
  rw [digitsValue, List.foldl_append, foldl_digitValue]
  rfl

theorem digitsValue_replicate_zero (k : Nat) : digitsValue (List.replicate k '0') = 0 := by
  induction k with
  | zero => rfl
  | succ k ih =>
    rw [List.replicate_succ', digitsValue_concat, ih]
    rfl

theorem all_isDigit_replicate_zero (k : Nat) :
    (List.replicate k '0').all Char.isDigit = true := by
  rw [List.all_eq_true]
  intro c hc
  rw [List.eq_of_mem_replicate hc]
  rfl

section
variable {width n : Nat}

theorem length_padded (h : n < 10 ^ width) (hwidth : 0 < width) :
    (padded width n).toList.length = width := by
  have hshort := (Nat.length_toDigits_le_iff (b := 10) (n := n) (by decide) hwidth).mpr h
  rw [padded, String.toList_ofList, List.length_append, List.length_replicate]
  omega

theorem all_isDigit_padded (width n : Nat) : (padded width n).toList.all Char.isDigit = true := by
  rw [padded, String.toList_ofList, List.all_append, all_isDigit_replicate_zero,
    all_isDigit_toDigits, Bool.and_true]

theorem digitsValue_padded (width n : Nat) : digitsValue (padded width n).toList = n := by
  rw [padded, String.toList_ofList, digitsValue_append, digitsValue_replicate_zero,
    digitsValue_toDigits, Nat.zero_mul, Nat.zero_add]

end

/-- Digits behind a sign or without one, and the integer that they stand for. -/
inductive SignedDigits : List Char → Int → Prop
  | bare {ds : List Char} (hne : ds ≠ []) (hds : ds.all Char.isDigit = true) :
    SignedDigits ds (digitsValue ds)
  | plus {ds : List Char} (hne : ds ≠ []) (hds : ds.all Char.isDigit = true) :
    SignedDigits ('+' :: ds) (digitsValue ds)
  | minus {ds : List Char} (hne : ds ≠ []) (hds : ds.all Char.isDigit = true) :
    SignedDigits ('-' :: ds) (-(digitsValue ds : Int))

theorem natural?_eq_some_iff {cs : List Char} {n : Nat} :
    natural? cs = some n ↔ cs ≠ [] ∧ cs.all Char.isDigit = true ∧ digitsValue cs = n := by
  rw [natural?, Option.ite_none_right_eq_some, Option.some_inj, and_assoc]

theorem SignedDigits.integer?_eq {cs : List Char} {n : Int} (h : SignedDigits cs n) :
    integer? cs = some n := by
  cases h with
  | bare hne hds =>
    have hread := natural?_eq_some_iff.mpr ⟨hne, hds, rfl⟩
    obtain ⟨c, ds, rfl⟩ := List.exists_cons_of_ne_nil hne
    rw [List.all_cons, Bool.and_eq_true] at hds
    have hminus : c ≠ '-' := fun heq => by rw [heq] at hds; cases hds.1
    have hplus : c ≠ '+' := fun heq => by rw [heq] at hds; cases hds.1
    simp [integer?, unsigned?, hminus, hplus, hread]
  | plus hne hds =>
    have hread := natural?_eq_some_iff.mpr ⟨hne, hds, rfl⟩
    simp [integer?, unsigned?, hread]
  | minus hne hds =>
    have hread := natural?_eq_some_iff.mpr ⟨hne, hds, rfl⟩
    simp [integer?, hread]

theorem integer?_eq_some_iff {cs : List Char} {n : Int} :
    integer? cs = some n ↔ SignedDigits cs n := by
  refine ⟨fun h => ?_, SignedDigits.integer?_eq⟩
  rw [integer?.eq_def] at h
  split at h
  · obtain ⟨_, hcast, rfl⟩ := Option.map_eq_some_iff.mp h
    obtain ⟨m, hread, hm⟩ := Option.bind_eq_some_iff.mp hcast
    cases hm
    obtain ⟨hne, hds, rfl⟩ := natural?_eq_some_iff.mp hread
    exact .minus hne hds
  · obtain ⟨m, hread, rfl⟩ := Option.map_eq_some_iff.mp h
    rw [unsigned?.eq_def] at hread
    split at hread
    · obtain ⟨hne, hds, rfl⟩ := natural?_eq_some_iff.mp hread
      exact .plus hne hds
    · obtain ⟨hne, hds, rfl⟩ := natural?_eq_some_iff.mp hread
      exact .bare hne hds

/-- A hyphen is a sign in front or makes a text no integer. -/
theorem integer?_eq_none {c : Char} {cs : List Char} (h : '-' ∈ cs) :
    integer? (c :: cs) = none := by
  have hdigits {ds : List Char} (hds : ds.all Char.isDigit = true) : '-' ∉ ds := fun hmem =>
    absurd (List.all_eq_true.mp hds '-' hmem) (by decide)
  refine Option.eq_none_iff_forall_ne_some.mpr fun n hread => ?_
  cases integer?_eq_some_iff.mp hread with
  | bare _ hds => exact hdigits hds (List.mem_cons_of_mem c h)
  | plus _ hds => exact hdigits hds h
  | minus _ hds => exact hdigits hds h

theorem int64?_eq_some_iff {s : String} {n : Int} :
    int64? s = some n ↔ SignedDigits s.toList n ∧ fitsInt64 n = true := by
  rw [int64?, Option.filter_eq_some_iff, integer?_eq_some_iff]

/-- The digits of an integer behind its sign and zeros. A plus sign may be left out. -/
def spelled (plus : Bool) (zeros : Nat) (n : Int) : List Char :=
  (if n < 0 then ['-'] else if plus then ['+'] else []) ++
    (List.replicate zeros '0' ++ Nat.toDigits 10 n.natAbs)

theorem signedDigits_spelled (plus : Bool) (zeros : Nat) (n : Int) :
    SignedDigits (spelled plus zeros n) n := by
  have hne : List.replicate zeros '0' ++ Nat.toDigits 10 n.natAbs ≠ [] :=
    List.append_ne_nil_of_right_ne_nil _ Nat.toDigits_ne_nil
  have hds : (List.replicate zeros '0' ++ Nat.toDigits 10 n.natAbs).all Char.isDigit = true := by
    rw [List.all_append, all_isDigit_replicate_zero, all_isDigit_toDigits, Bool.and_true]
  have hvalue : digitsValue (List.replicate zeros '0' ++ Nat.toDigits 10 n.natAbs) = n.natAbs := by
    rw [digitsValue_append, digitsValue_replicate_zero, digitsValue_toDigits, Nat.zero_mul,
      Nat.zero_add]
  rw [spelled]
  split
  · rename_i hneg
    have h := SignedDigits.minus hne hds
    rwa [hvalue, Int.ofNat_natAbs_of_nonpos hneg.le, neg_neg] at h
  · rename_i hnonneg
    have habs : (n.natAbs : Int) = n := Int.natAbs_of_nonneg (not_lt.mp hnonneg)
    cases plus with
    | false =>
      have h := SignedDigits.bare hne hds
      rwa [hvalue, habs] at h
    | true =>
      have h := SignedDigits.plus hne hds
      rwa [hvalue, habs] at h

end PanelSource.Text

namespace PanelSource.PlainText
open Cutting

def numeralChar (c : Char) : Bool := c.isDigit || c == '-'

theorem all_numeralChar_intText (n : Int) : (Text.intText n).toList.all numeralChar = true := by
  have hdigits (k : Nat) : (Text.natText k).toList.all numeralChar = true := by
    rw [Text.natText, String.toList_ofList]
    exact all_mono (fun c hc => by rw [numeralChar, hc, Bool.true_or]) (Text.all_isDigit_toDigits k)
  cases n with
  | ofNat n => exact hdigits n
  | negSucc n =>
    rw [Text.intText, String.toList_append, List.all_append, hdigits]
    rfl

theorem intText_ne_nil (n : Int) : (Text.intText n).toList ≠ [] := by
  intro h
  have hread := Text.integer?_intText n
  rw [h] at hread
  exact absurd hread.symm (Option.some_ne_none n)

theorem intText_injective {m n : Int} (h : Text.intText m = Text.intText n) : m = n := by
  have hread := Text.integer?_intText m
  rw [h, Text.integer?_intText] at hread
  exact (Option.some.inj hread).symm

theorem exists_numeral_cons (n : Int) :
    ∃ c cs, (Text.intText n).toList = c :: cs ∧ numeralChar c = true := by
  obtain ⟨c, cs, hcs⟩ := List.exists_cons_of_ne_nil (intText_ne_nil n)
  have hall := all_numeralChar_intText n
  rw [hcs, List.all_cons, Bool.and_eq_true] at hall
  exact ⟨c, cs, hcs, hall.1⟩

theorem intText_append_ne {n : Int} {c : Char} (hc : numeralChar c = false)
    (cs rest : List Char) : (Text.intText n).toList ++ rest ≠ c :: cs := by
  obtain ⟨d, ds, hds, hd⟩ := exists_numeral_cons n
  intro h
  rw [hds, List.cons_append] at h
  rw [(List.cons.inj h).1, hc] at hd
  exact absurd hd Bool.noConfusion

theorem intText_cut {m n : Int} {rest rest' : List Char} (hrest : Stops numeralChar rest)
    (hrest' : Stops numeralChar rest')
    (h : (Text.intText m).toList ++ rest = (Text.intText n).toList ++ rest') :
    m = n ∧ rest = rest' := by
  obtain ⟨htext, hr⟩ :=
    run_cut (all_numeralChar_intText m) (all_numeralChar_intText n) hrest hrest' h
  exact ⟨intText_injective htext, hr⟩

end PanelSource.PlainText
