import PanelSource.Proofs.Query.Filter
import PanelSource.Proofs.Text.Digits

/-! # Plain descriptions

Names are identifiers or empty, operators are words or symbols, and nothing that is quoted holds a
quote. What is written of a plain description can be told apart word by word. -/
namespace PanelSource
open Cutting

namespace PlainText

def nameChar (c : Char) : Bool := c.isAlphanum || c == '_'

def symbolChar (c : Char) : Bool := ['=', '<', '>', '!', '~'].contains c

/-- What identifiers and operators are made of. -/
def wordChar (c : Char) : Bool := nameChar c || symbolChar c

def isIdentifier (s : String) : Bool :=
  match s.toList with
  | [] => false
  | c :: cs => c.isAlpha && cs.all nameChar

/-- A name that is left out is empty. -/
def isName (s : String) : Bool := s == "" || isIdentifier s

def isOperator (s : String) : Bool :=
  s != "" && (s.toList.all Char.isAlpha || s.toList.all symbolChar)

def isWord (s : String) : Bool := s.toList.all wordChar

theorem nameChar_of_isAlpha {c : Char} (h : c.isAlpha = true) : nameChar c = true := by
  simp [nameChar, Char.isAlphanum, h]

theorem wordChar_of_nameChar {c : Char} (h : nameChar c = true) : wordChar c = true := by
  simp [wordChar, h]

theorem all_nameChar_of_isIdentifier {s : String} (h : isIdentifier s = true) :
    s.toList.all nameChar = true := by
  unfold isIdentifier at h
  split at h
  · exact absurd h Bool.noConfusion
  · rename_i c cs hs
    rw [Bool.and_eq_true] at h
    rw [hs, List.all_cons, nameChar_of_isAlpha h.1, h.2]
    rfl

theorem all_nameChar_of_isName {s : String} (h : isName s = true) :
    s.toList.all nameChar = true := by
  rw [isName, Bool.or_eq_true, beq_iff_eq] at h
  rcases h with rfl | h
  · rfl
  · exact all_nameChar_of_isIdentifier h

theorem nameChar_eq_false {c : Char} (h : wordChar c = false) : nameChar c = false :=
  (Bool.or_eq_false_iff.mp h).1

theorem isIdentifier_of_letters {s : String} (hs : s ≠ "") (h : s.toList.all Char.isAlpha = true) :
    isIdentifier s = true := by
  unfold isIdentifier
  split
  · rename_i hnil
    exact absurd (String.toList_eq_nil_iff.mp hnil) hs
  · rename_i c cs hcs
    rw [hcs, List.all_cons, Bool.and_eq_true] at h
    rw [h.1, all_mono (fun _ => nameChar_of_isAlpha) h.2]
    rfl

theorem isName_of_isIdentifier {s : String} (h : isIdentifier s = true) : isName s = true := by
  rw [isName, h, Bool.or_true]

theorem isWord_of_isName {s : String} (h : isName s = true) : isWord s = true :=
  all_mono (fun _ => wordChar_of_nameChar) (all_nameChar_of_isName h)

theorem isWord_of_isOperator {s : String} (h : isOperator s = true) : isWord s = true := by
  rw [isOperator, Bool.and_eq_true, Bool.or_eq_true] at h
  rcases h.2 with h | h
  · exact all_mono (fun c hc => wordChar_of_nameChar (nameChar_of_isAlpha hc)) h
  · exact all_mono (fun c hc => by rw [wordChar, hc, Bool.or_true]) h

/-- A name is cut off where no character of names follows. -/
theorem name_cut {s s' : String} {rest rest' : List Char} (hs : isName s = true)
    (hs' : isName s' = true) (hrest : Stops nameChar rest) (hrest' : Stops nameChar rest')
    (h : s.toList ++ rest = s'.toList ++ rest') : s = s' ∧ rest = rest' :=
  run_cut (all_nameChar_of_isName hs) (all_nameChar_of_isName hs') hrest hrest' h

/-- Words are told apart where anything but a word follows. -/
theorem word_cut {s s' : String} {c c' : Char} {rest rest' : List Char} (hs : isWord s = true)
    (hs' : isWord s' = true) (hc : wordChar c = false) (hc' : wordChar c' = false)
    (h : s.toList ++ c :: rest = s'.toList ++ c' :: rest') : s = s' ∧ c = c' ∧ rest = rest' := by
  obtain ⟨hword, hr⟩ := run_cut hs hs' (stops_cons.mpr hc) (stops_cons.mpr hc') h
  exact ⟨hword, List.cons.inj hr⟩

end PlainText

/-- A number is an integer, and a text has no single quote. -/
def Operand.plain : Operand → Bool
  | .number (.int _) => true
  | .number (.double _) => false
  | .text s => s.toList.all (· != '\'')

namespace Comparand
open PlainText

def plain : Comparand → Bool
  | operand x => x.plain
  | instant _ => true

def openingChar (c : Char) : Bool := c == '\'' || numeralChar c

/-- What is compared with begins with a quote, a numeral or a call that makes an instant. -/
def opens (cs : List Char) : Bool :=
  cs.head?.any openingChar || "epoch_ms(".toList.isPrefixOf cs

theorem toNat_of_openingChar {c : Char} (h : openingChar c = true) : c.toNat ≤ 57 := by
  simp only [openingChar, numeralChar, Bool.or_eq_true, beq_iff_eq] at h
  rcases h with rfl | hdigit | rfl
  · decide
  · exact (Char.isDigit_iff_toNat.mp hdigit).2
  · decide

theorem openingChar_of_isAlpha {c : Char} (h : c.isAlpha = true) : openingChar c = false := by
  rw [Bool.eq_false_iff]
  intro hopening
  have hletter := toNat_of_isAlpha h
  have hlow := toNat_of_openingChar hopening
  omega

theorem toList_sql_number (n : Int) (rest : List Char) :
    (operand (.number (.int n))).sql.toList ++ rest = (Text.intText n).toList ++ rest := rfl

theorem toList_sql_text (s : String) (rest : List Char) :
    (operand (.text s)).sql.toList ++ rest = '\'' :: (s.toList ++ '\'' :: rest) := by
  simp [sql, Operand.sql]

theorem toList_sql_instant (ms : Int) (rest : List Char) :
    (instant ms).sql.toList ++ rest =
      "epoch_ms(".toList ++ ((Text.intText ms).toList ++ ')' :: rest) := by
  simp [sql, TimeFormat.instantSql]

theorem opens_sql {x : Comparand} (hx : x.plain = true) (rest : List Char) :
    opens (x.sql.toList ++ rest) = true := by
  rcases x with ((n | y) | s) | ms
  · obtain ⟨c, cs, hcs, hc⟩ := exists_numeral_cons n
    rw [toList_sql_number, hcs]
    simp [opens, openingChar, hc]
  · exact absurd hx Bool.noConfusion
  · rw [toList_sql_text]
    rfl
  · rw [toList_sql_instant, opens, List.isPrefixOf_iff_prefix.mpr (List.prefix_append _ _),
      Bool.or_true]

/-- Two texts that open alike compare with the same. -/
theorem sql_cut {x y : Comparand} {rest rest' : List Char} (hx : x.plain = true)
    (hy : y.plain = true) (hrest : Stops numeralChar rest) (hrest' : Stops numeralChar rest')
    (h : x.sql.toList ++ rest = y.sql.toList ++ rest') : x = y ∧ rest = rest' := by
  rcases x with ((m | z) | s) | ms
  · rw [toList_sql_number] at h
    rcases y with ((n | z) | s) | ms
    · obtain ⟨rfl, hr⟩ := intText_cut hrest hrest' h
      exact ⟨rfl, hr⟩
    · exact absurd hy Bool.noConfusion
    · rw [toList_sql_text] at h
      exact absurd h (intText_append_ne rfl _ _)
    · rw [toList_sql_instant] at h
      exact absurd h (intText_append_ne rfl _ _)
  · exact absurd hx Bool.noConfusion
  · rw [toList_sql_text] at h
    rcases y with ((n | z) | s') | ms
    · exact absurd h.symm (intText_append_ne rfl _ _)
    · exact absurd hy Bool.noConfusion
    · rw [toList_sql_text] at h
      obtain ⟨rfl, hr⟩ := mark_cut hx hy (List.cons.inj h).2
      exact ⟨rfl, hr⟩
    · rw [toList_sql_instant] at h
      exact absurd (List.cons.inj h).1 (by decide)
  · rw [toList_sql_instant] at h
    rcases y with ((n | z) | s) | ms'
    · exact absurd h.symm (intText_append_ne rfl _ _)
    · exact absurd hy Bool.noConfusion
    · rw [toList_sql_text] at h
      exact absurd (List.cons.inj h).1 (by decide)
    · rw [toList_sql_instant] at h
      have hparen (cs : List Char) : Stops numeralChar (')' :: cs) := stops_cons.mpr rfl
      obtain ⟨rfl, hr⟩ := intText_cut (hparen _) (hparen _) (List.append_cancel_left h)
      exact ⟨rfl, (List.cons.inj hr).2⟩

theorem opens_identifier_append {s : String} {rest : List Char} (hs : isIdentifier s = true)
    (hrest : Stops nameChar rest) (hcall : s = "epoch_ms" → rest.head? ≠ some '(') :
    opens (s.toList ++ rest) = false := by
  have hname := all_nameChar_of_isIdentifier hs
  rw [opens, Bool.or_eq_false_iff]
  constructor
  · unfold isIdentifier at hs
    split at hs
    · exact absurd hs Bool.noConfusion
    · rename_i c cs hcs
      rw [Bool.and_eq_true] at hs
      rw [hcs, List.cons_append, List.head?_cons, Option.any_some]
      exact openingChar_of_isAlpha hs.1
  · rw [Bool.eq_false_iff, ne_eq, List.isPrefixOf_iff_prefix]
    rintro ⟨more, hmore⟩
    have hword : "epoch_ms".toList ++ '(' :: more = s.toList ++ rest := hmore
    obtain ⟨heq, hr⟩ := run_cut rfl hname (stops_cons.mpr rfl) hrest hword
    exact hcall heq.symm (by rw [← hr]; rfl)

theorem opens_operator_append {s : String} (hs : isOperator s = true) (rest : List Char) :
    opens (s.toList ++ ' ' :: rest) = false := by
  rw [isOperator, Bool.and_eq_true, Bool.or_eq_true, bne_iff_ne] at hs
  obtain ⟨hne, hletters | hsymbols⟩ := hs
  · refine opens_identifier_append (isIdentifier_of_letters hne hletters) (stops_cons.mpr rfl) ?_
    intro _ hparen
    exact absurd (Option.some.inj hparen) (by decide)
  · obtain ⟨c, cs, hcs⟩ := List.exists_cons_of_ne_nil (String.toList_eq_nil_iff.not.mpr hne)
    rw [hcs, List.all_cons, Bool.and_eq_true, symbolChar, List.contains_iff_mem] at hsymbols
    rw [hcs]
    simp only [List.mem_cons, List.not_mem_nil, or_false] at hsymbols
    rcases hsymbols.1 with rfl | rfl | rfl | rfl | rfl <;> rfl

end Comparand

open PlainText in
def FilterEntry.plain (e : FilterEntry) : Bool :=
  isName e.condition && isName e.left && isOperator e.operator && e.right.plain

open PlainText in
def Clause.plain (c : Clause) : Bool :=
  isName c.condition && isIdentifier c.left && isOperator c.operator && c.right.plain

open PlainText in
/-- All columns may be counted. -/
def Metric.plain (m : Metric) : Bool := isName m.kind.name && (m.column == "*" || isName m.column)

theorem Clause.plain_entry {c : Clause} (h : c.plain = true) : c.entry.plain = true := by
  simp only [plain, Bool.and_eq_true] at h
  obtain ⟨⟨⟨hcondition, hleft⟩, hoperator⟩, hright⟩ := h
  simp only [FilterEntry.plain, entry, Bool.and_eq_true]
  exact ⟨⟨⟨hcondition, PlainText.isName_of_isIdentifier hleft⟩, hoperator⟩, hright⟩

namespace Description
open PlainText

/-- An empty schema counts as none. -/
def effectiveSchema (d : Description) : Option String := d.schema.filter (· ≠ "")

/-- Names where names belong. What is not given may be empty. -/
structure Plain (d : Description) : Prop where
  schema : ∀ s ∈ d.schema, isName s = true
  table : isName d.table = true
  selectColumns : ∀ c ∈ d.selectColumns, isName c = true
  metrics : ∀ m ∈ d.metrics, m.plain = true
  groupBy : ∀ c ∈ d.groupBy, isName c = true
  clauses : ∀ c ∈ d.clauses, c.plain = true
  orderBy : ∀ c ∈ d.orderBy, isName c = true
  timeColumn : ∀ c ∈ d.timeColumn, isName c = true
  groupInterval : ∀ i ∈ d.groupInterval, isName i = true

variable {d : Description}

theorem Plain.effectiveSchema (h : d.Plain) : ∀ s ∈ d.effectiveSchema, isName s = true :=
  fun s hs => h.schema s (Option.mem_filter_iff.mp hs).1

theorem Plain.effectiveTimeColumn (h : d.Plain) : isName d.effectiveTimeColumn = true := by
  have htime := h.timeColumn
  unfold Description.effectiveTimeColumn
  cases hc : d.timeColumn with
  | none => rfl
  | some c => exact htime c hc

theorem Plain.boundEntries (h : d.Plain) : ∀ e ∈ d.boundEntries, e.plain = true := by
  intro e he
  have hcomparand (ms : Int) : (d.effectiveTimeFormat.comparand ms).plain = true := by
    cases d.effectiveTimeFormat <;> rfl
  simp only [Description.boundEntries, List.mem_append, Option.mem_toList,
    Option.map_eq_some_iff] at he
  rcases he with ⟨ms, -, rfl⟩ | ⟨ms, -, rfl⟩ <;>
    simp only [FilterEntry.plain, h.effectiveTimeColumn, hcomparand] <;> rfl

theorem Plain.filterEntries (h : d.Plain) : ∀ e ∈ d.filterEntries, e.plain = true := by
  have hall : ∀ e ∈ d.clauses.map Clause.entry ++ d.boundEntries, e.plain = true := by
    intro e he
    rcases List.mem_append.mp he with he | he
    · obtain ⟨c, hc, rfl⟩ := List.mem_map.mp he
      exact Clause.plain_entry (h.clauses c hc)
    · exact h.boundEntries e he
  unfold Description.filterEntries
  cases hes : d.clauses.map Clause.entry ++ d.boundEntries with
  | nil => exact fun e he => absurd he List.not_mem_nil
  | cons e es =>
    rw [hes, List.forall_mem_cons] at hall
    rw [FilterEntry.unlinked, List.forall_mem_cons]
    refine ⟨?_, hall.2⟩
    have he := hall.1
    simp only [FilterEntry.plain, Bool.and_eq_true] at he ⊢
    exact ⟨⟨⟨rfl, he.1.1.2⟩, he.1.2⟩, he.2⟩

end Description
end PanelSource
