import PanelSource.Json.Scanner
import PanelSource.Proofs.Number.LiteralText

/-! # JSON text gives its value back

The first character of a text tells what kind of value it is of, a quoted text ends at the quote
where the scanner ends it, and a number ends where no literal goes on. -/
namespace PanelSource
open Cutting PlainText

namespace Json

/-- A unit read in front of others. -/
def UnitRead (cs rest : List Char) (u : Unit16) : Prop :=
  ∀ fuel, scanUnits (fuel + 1) cs = (scanUnits fuel rest).map fun p => (u :: p.1, p.2)

theorem unitRead_plain {c : Char} (hquote : c ≠ '"') (hback : c ≠ '\\') (hc : ¬c.toNat < 32)
    (rest : List Char) : UnitRead (c :: rest) rest (.plain c) := by
  intro fuel
  rw [scanUnits]
  · have hplain : ¬(decide (c.toNat < 32) || c == '\\') = true := by simp [hc, hback]
    rw [if_neg hplain]
    cases scanUnits fuel rest <;> rfl
  · exact hquote
  · exact fun _ h _ => hback h
  · exact fun _ _ h _ => hback h

theorem unitRead_letter {c d : Char} (hd : d ≠ 'u') (h : simpleEscape? d = some c)
    (rest : List Char) : UnitRead ('\\' :: d :: rest) rest (.plain c) := by
  intro fuel
  rw [scanUnits, h]
  · cases scanUnits fuel rest <;> rfl
  · exact hd

theorem hexValue?_digitChar : ∀ d < 16, Text.hexValue? (Nat.digitChar d) = some d := by decide

theorem unitRead_code {n : Nat} (h : n < 32) (rest : List Char) :
    UnitRead ('\\' :: 'u' :: '0' :: '0' :: Nat.digitChar (n / 16) :: Nat.digitChar (n % 16) :: rest)
      rest (.code n) := by
  intro fuel
  have hzero : Text.hexValue? '0' = some 0 := rfl
  have hhigh := hexValue?_digitChar (n / 16) (by omega)
  have hlow := hexValue?_digitChar (n % 16) (by omega)
  have hn : n / 16 * 16 + n % 16 = n := by omega
  simp only [scanUnits, hex4?, hzero, hhigh, hlow, Option.pure_def, Option.bind_eq_bind,
    Option.bind_some, Nat.zero_mul, Nat.zero_add, hn]
  cases scanUnits fuel rest <;> rfl

theorem joinUnits_code {n : Nat} (h : n < 32) (us : List Unit16) :
    joinUnits (.code n :: us) = (joinUnits us).map (Char.ofNat n :: ·) := by
  have hhigh : Unit16.highHalf n = false := by
    simp only [Unit16.highHalf, Bool.and_eq_false_iff, decide_eq_false_iff_not]
    omega
  have hlow : Unit16.lowHalf n = false := by
    simp only [Unit16.lowHalf, Bool.and_eq_false_iff, decide_eq_false_iff_not]
    omega
  rw [joinUnits.eq_def]
  simp [hhigh, hlow]

/-- An escaped character is read as one unit that joins to it. -/
theorem exists_unitRead_escape (c : Char) (rest : List Char) :
    ∃ u, UnitRead (escape c ++ rest) rest u ∧
      ∀ us, joinUnits (u :: us) = (joinUnits us).map (c :: ·) := by
  have letter {d : Char} (hd : d ≠ 'u') (h : simpleEscape? d = some c) :
      ∃ u, UnitRead ('\\' :: d :: rest) rest u ∧
        ∀ us, joinUnits (u :: us) = (joinUnits us).map (c :: ·) :=
    ⟨.plain c, unitRead_letter hd h rest, fun us => by rw [joinUnits]⟩
  have hchar {n : Nat} (h : c.toNat = n) : Char.ofNat n = c := h ▸ Char.ofNat_toNat c
  unfold escape
  split_ifs with hquote hback hnewline hreturn htab hbackspace hfeed hcontrol
  · exact letter (by decide) (congrArg some hquote.symm)
  · exact letter (by decide) (congrArg some hback.symm)
  · exact letter (by decide) (congrArg some hnewline.symm)
  · exact letter (by decide) (congrArg some hreturn.symm)
  · exact letter (by decide) (congrArg some htab.symm)
  · exact letter (by decide) (congrArg some (hchar hbackspace))
  · exact letter (by decide) (congrArg some (hchar hfeed))
  · exact ⟨.code c.toNat, unitRead_code hcontrol rest, fun us => by
      rw [joinUnits_code hcontrol, Char.ofNat_toNat]⟩
  · exact ⟨.plain c, unitRead_plain hquote hback hcontrol rest, fun us => by rw [joinUnits]⟩

theorem exists_scanUnits_quoted (cs rest : List Char) {fuel : Nat} (h : cs.length < fuel) :
    ∃ us, scanUnits fuel (cs.flatMap escape ++ '"' :: rest) = some (us, rest) ∧
      joinUnits us = some cs := by
  induction cs generalizing fuel with
  | nil =>
    obtain ⟨fuel, rfl⟩ := Nat.exists_eq_add_of_lt h
    exact ⟨[], rfl, rfl⟩
  | cons c cs ih =>
    obtain ⟨fuel, rfl⟩ := Nat.exists_eq_succ_of_ne_zero (Nat.ne_zero_of_lt h)
    obtain ⟨us, hus, hjoin⟩ := ih (Nat.lt_of_succ_lt_succ h)
    obtain ⟨u, hu, hcons⟩ := exists_unitRead_escape c (cs.flatMap escape ++ '"' :: rest)
    refine ⟨u :: us, ?_, by rw [hcons, hjoin, Option.map_some]⟩
    rw [List.flatMap_cons, List.append_assoc, hu, hus, Option.map_some]

theorem escape_ne_nil (c : Char) : escape c ≠ [] := by
  unfold escape
  split_ifs <;> exact List.cons_ne_nil _ _

theorem length_le_flatMap_escape (cs : List Char) : cs.length ≤ (cs.flatMap escape).length := by
  induction cs with
  | nil => exact le_rfl
  | cons c cs ih =>
    have hc := List.length_pos_of_ne_nil (escape_ne_nil c)
    rw [List.flatMap_cons, List.length_append, List.length_cons]
    omega

/-- The scanner gives back what was quoted, and what follows it. -/
theorem scanText_quoted (s : String) (rest : List Char) :
    scanText (s.toList.flatMap escape ++ '"' :: rest) = some (some s, rest) := by
  have hlength : s.toList.length < (s.toList.flatMap escape ++ '"' :: rest).length + 1 := by
    have hle := length_le_flatMap_escape s.toList
    rw [List.length_append]
    omega
  obtain ⟨us, hus, hjoin⟩ := exists_scanUnits_quoted s.toList rest hlength
  simp only [scanText, hus, Option.map_some, hjoin, String.ofList_toList]

theorem toList_quote_append (s : String) (rest : List Char) :
    (quote s).toList ++ rest = '"' :: (s.toList.flatMap escape ++ '"' :: rest) := by
  simp [quote]

theorem quote_cut {s s' : String} {rest rest' : List Char}
    (h : (quote s).toList ++ rest = (quote s').toList ++ rest') : s = s' ∧ rest = rest' := by
  rw [toList_quote_append, toList_quote_append] at h
  have hscan := scanText_quoted s rest
  rw [(List.cons.inj h).2, scanText_quoted] at hscan
  simpa [eq_comm] using hscan

/-- What holds of all elements of a value holds of it. -/
theorem induction_mem {P : Json → Prop} (null : P .null) (bool : ∀ b, P (.bool b))
    (number : ∀ x, P (.number x)) (text : ∀ s, P (.text s))
    (array : ∀ items, (∀ x ∈ items, P x) → P (.array items))
    (object : ∀ fields, (∀ f ∈ fields, P f.2) → P (.object fields)) (x : Json) : P x :=
  @Json.rec P (fun items => ∀ x ∈ items, P x) (fun fields => ∀ f ∈ fields, P f.2) (fun f => P f.2)
    null bool number text array object (fun _ h => absurd h List.not_mem_nil)
    (fun _ _ hx hxs => List.forall_mem_cons.mpr ⟨hx, hxs⟩) (fun _ h => absurd h List.not_mem_nil)
    (fun _ _ hf hfs => List.forall_mem_cons.mpr ⟨hf, hfs⟩) (fun _ _ hv => hv) x

inductive Kind
  | null
  | bool (b : Bool)
  | number
  | text
  | array
  | object
  deriving DecidableEq

def kind : Json → Kind
  | null => .null
  | bool b => .bool b
  | number _ => .number
  | text _ => .text
  | array _ => .array
  | object _ => .object

/-- The kind of the values whose texts begin with a character. -/
def kindOf? (c : Char) : Option Kind :=
  if numeralChar c then some .number
  else if c = 'n' then some .null
  else if c = 't' then some (.bool true)
  else if c = 'f' then some (.bool false)
  else if c = '"' then some .text
  else if c = '[' then some .array
  else if c = '\x7b' then some .object
  else none

theorem exists_render_cons (x : Json) :
    ∃ c cs, x.render.toList = c :: cs ∧ kindOf? c = some x.kind := by
  cases x with
  | null => exact ⟨_, _, rfl, rfl⟩
  | bool b => cases b <;> exact ⟨_, _, rfl, rfl⟩
  | number x =>
    obtain ⟨c, cs, hcs, hc⟩ := x.exists_render_cons
    exact ⟨c, cs, by rw [render, hcs], by rw [kindOf?, if_pos hc, kind]⟩
  | text s => exact ⟨_, _, by rw [render, quote, String.toList_ofList], rfl⟩
  | array items =>
    refine ⟨'[', (renderItems items ++ "]").toList, ?_, rfl⟩
    rw [render, String.append_assoc, String.toList_append]
    rfl
  | object fields =>
    refine ⟨'\x7b', (renderFields fields ++ "\x7d").toList, ?_, rfl⟩
    rw [render, String.append_assoc, String.toList_append]
    rfl

theorem kind_eq {x y : Json} {rest rest' : List Char}
    (h : x.render.toList ++ rest = y.render.toList ++ rest') : x.kind = y.kind := by
  obtain ⟨c, cs, hcs, hc⟩ := x.exists_render_cons
  obtain ⟨c', cs', hcs', hc'⟩ := y.exists_render_cons
  rw [hcs, hcs', List.cons_append, List.cons_append] at h
  rw [(List.cons.inj h).1, hc'] at hc
  exact (Option.some.inj hc).symm

/-- The text is cut off where no literal goes on, whatever value the other text is of. An induction
on a value has this for the elements of that value alone. -/
def CutOff {α : Type} (text : α → String) (x : α) : Prop :=
  ∀ {y : α} {rest rest' : List Char}, Stops literalChar rest → Stops literalChar rest' →
    (text x).toList ++ rest = (text y).toList ++ rest' → x = y ∧ rest = rest'

section Sequences
open Pieces
variable {α : Type} {text : α → String} {close : Char} {xs ys : List α} {rest rest' : List Char}

theorem stops_joined (hclose : literalChar close = false) :
    Stops literalChar (joined ("," ++ text ·) xs (close :: rest)) := by
  cases xs with
  | nil =>
    rw [joined_nil]
    exact stops_cons.mpr hclose
  | cons x xs =>
    rw [joined_cons, String.toList_append]
    exact stops_cons.mpr rfl

theorem joined_comma_cut (hclose : literalChar close = false) (hcomma : close ≠ ',')
    (hcut : ∀ x ∈ xs, CutOff text x)
    (h : joined ("," ++ text ·) xs (close :: rest) = joined ("," ++ text ·) ys (close :: rest')) :
    xs = ys ∧ rest = rest' := by
  have hne (y : α) (ys : List α) (more more' : List Char) :
      close :: more ≠ joined ("," ++ text ·) (y :: ys) more' := by
    rw [joined_cons, String.toList_append]
    exact fun h => hcomma (List.cons.inj h).1
  induction xs generalizing ys with
  | nil =>
    cases ys with
    | nil =>
      rw [joined_nil, joined_nil] at h
      exact ⟨rfl, (List.cons.inj h).2⟩
    | cons y ys =>
      rw [joined_nil] at h
      exact absurd h (hne y ys rest _)
  | cons x xs ih =>
    rw [List.forall_mem_cons] at hcut
    cases ys with
    | nil =>
      rw [joined_nil] at h
      exact absurd h.symm (hne x xs rest' _)
    | cons y ys =>
      rw [joined_cons, joined_cons, String.toList_append, String.toList_append, List.append_assoc,
        List.append_assoc] at h
      obtain ⟨rfl, hmore⟩ :=
        hcut.1 (stops_joined hclose) (stops_joined hclose) (List.append_cancel_left h)
      obtain ⟨rfl, hr⟩ := ih hcut.2 hmore
      exact ⟨rfl, hr⟩

/-- A list in commas is cut off at the mark that closes it, which begins no element. -/
theorem sequence_cut (hclose : literalChar close = false) (hcomma : close ≠ ',')
    (hopen : ∀ x more more', (text x).toList ++ more ≠ close :: more')
    (hcut : ∀ x ∈ xs, CutOff text x)
    (h : (",".intercalate (xs.map text)).toList ++ close :: rest =
      (",".intercalate (ys.map text)).toList ++ close :: rest') : xs = ys ∧ rest = rest' := by
  have hcons (x : α) (xs : List α) (more : List Char) :
      (",".intercalate ((x :: xs).map text)).toList ++ more =
        (text x).toList ++ joined ("," ++ text ·) xs more := by
    rw [List.map_cons, intercalate_cons, String.toList_append, List.append_assoc, joined,
      List.map_map]
    rfl
  cases xs with
  | nil =>
    cases ys with
    | nil => exact ⟨rfl, (List.cons.inj h).2⟩
    | cons y ys =>
      rw [hcons] at h
      exact absurd h.symm (hopen y _ rest)
  | cons x xs =>
    rw [hcons] at h
    cases ys with
    | nil => exact absurd h (hopen x _ rest')
    | cons y ys =>
      rw [hcons] at h
      rw [List.forall_mem_cons] at hcut
      obtain ⟨rfl, hmore⟩ := hcut.1 (stops_joined hclose) (stops_joined hclose) h
      obtain ⟨rfl, hr⟩ := joined_comma_cut hclose hcomma hcut.2 hmore
      exact ⟨rfl, hr⟩

end Sequences

theorem renderItems_eq (items : List Json) :
    renderItems items = ",".intercalate (items.map render) := by
  induction items with
  | nil => rfl
  | cons x xs ih =>
    cases xs with
    | nil => simp [renderItems]
    | cons y ys =>
      simp only [renderItems, ih, List.map_cons, String.intercalate_cons_cons]

def fieldText (f : String × Json) : String := quote f.1 ++ ":" ++ f.2.render

theorem renderFields_eq (fields : List (String × Json)) :
    renderFields fields = ",".intercalate (fields.map fieldText) := by
  induction fields with
  | nil => rfl
  | cons f fs ih =>
    cases fs with
    | nil => simp [renderFields, fieldText]
    | cons g gs =>
      simp only [renderFields, ih, List.map_cons, String.intercalate_cons_cons, fieldText]

theorem toList_fieldText_append (f : String × Json) (rest : List Char) :
    (fieldText f).toList ++ rest = (quote f.1).toList ++ ':' :: (f.2.render.toList ++ rest) := by
  simp [fieldText]

theorem cutOff_fieldText {f : String × Json} (h : CutOff render f.2) : CutOff fieldText f := by
  intro g rest rest' hrest hrest' htext
  rw [toList_fieldText_append, toList_fieldText_append] at htext
  obtain ⟨hname, hmore⟩ := quote_cut htext
  obtain ⟨hvalue, hr⟩ := h hrest hrest' (List.cons.inj hmore).2
  exact ⟨Prod.ext hname hvalue, hr⟩

theorem toList_render_array (items : List Json) (rest : List Char) :
    (array items).render.toList ++ rest =
      '[' :: ((",".intercalate (items.map render)).toList ++ ']' :: rest) := by
  simp [render, renderItems_eq]

theorem toList_render_object (fields : List (String × Json)) (rest : List Char) :
    (object fields).render.toList ++ rest =
      '\x7b' :: ((",".intercalate (fields.map fieldText)).toList ++ '\x7d' :: rest) := by
  simp [render, renderFields_eq]

theorem render_append_ne_bracket (x : Json) (more more' : List Char) :
    x.render.toList ++ more ≠ ']' :: more' := by
  obtain ⟨c, cs, hcs, hc⟩ := x.exists_render_cons
  rw [hcs]
  intro h
  rw [(List.cons.inj h).1] at hc
  exact absurd hc (Option.some_ne_none _).symm

theorem cutOff_render (x : Json) : CutOff render x := by
  induction x using induction_mem with
  | null =>
    intro y rest rest' _ _ h
    have hkind := kind_eq h
    cases y with
    | null => exact ⟨rfl, List.append_cancel_left h⟩
    | _ => exact Kind.noConfusion hkind
  | bool b =>
    intro y rest rest' _ _ h
    have hkind := kind_eq h
    cases y with
    | bool b' =>
      obtain rfl := Kind.bool.inj hkind
      exact ⟨rfl, List.append_cancel_left h⟩
    | _ => exact Kind.noConfusion hkind
  | number x =>
    intro y rest rest' hrest hrest' h
    have hkind := kind_eq h
    cases y with
    | number y =>
      obtain ⟨rfl, hr⟩ := Number.render_cut hrest hrest' h
      exact ⟨rfl, hr⟩
    | _ => exact Kind.noConfusion hkind
  | text s =>
    intro y rest rest' _ _ h
    have hkind := kind_eq h
    cases y with
    | text s' =>
      obtain ⟨rfl, hr⟩ := quote_cut h
      exact ⟨rfl, hr⟩
    | _ => exact Kind.noConfusion hkind
  | array items ih =>
    intro y rest rest' _ _ h
    have hkind := kind_eq h
    cases y with
    | array items' =>
      rw [toList_render_array, toList_render_array] at h
      obtain ⟨rfl, hr⟩ :=
        sequence_cut rfl (by decide) render_append_ne_bracket ih (List.cons.inj h).2
      exact ⟨rfl, hr⟩
    | _ => exact Kind.noConfusion hkind
  | object fields ih =>
    intro y rest rest' _ _ h
    have hkind := kind_eq h
    have hopen (f : String × Json) (more more' : List Char) :
        (fieldText f).toList ++ more ≠ '\x7d' :: more' := by
      rw [toList_fieldText_append, toList_quote_append]
      exact fun h => absurd (List.cons.inj h).1 (by decide)
    cases y with
    | object fields' =>
      rw [toList_render_object, toList_render_object] at h
      obtain ⟨rfl, hr⟩ := sequence_cut rfl (by decide) hopen
        (fun f hf => cutOff_fieldText (ih f hf)) (List.cons.inj h).2
      exact ⟨rfl, hr⟩
    | _ => exact Kind.noConfusion hkind

theorem render_injective {x y : Json} (h : x.render = y.render) : x = y := by
  have hstops := stops_nil literalChar
  exact (cutOff_render x hstops hstops (congrArg (·.toList ++ []) h)).1

theorem render_ne_empty (x : Json) : x.render ≠ "" := by
  obtain ⟨c, cs, hcs, -⟩ := x.exists_render_cons
  intro h
  rw [h] at hcs
  exact absurd hcs.symm (List.cons_ne_nil c cs)

end Json
end PanelSource
