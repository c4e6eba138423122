import PanelSource.Proofs.Query.Plain

/-! # The text of a filter determines its entries

An entry with a condition has one word more in front of what it compares with, and no word is taken
for that. The table stands in front of the filter. -/
namespace PanelSource
open Cutting PlainText

/-- Nothing, or a space, comes first. -/
def Spaced (rest : List Char) : Prop := Stops (· != ' ') rest

theorem spaced_nil : Spaced [] := stops_nil _

theorem spaced_cons (rest : List Char) : Spaced (' ' :: rest) := stops_cons.mpr rfl

theorem spaced_append {s : String} (hs : s.toList.head? = some ' ') (rest : List Char) :
    Spaced (s.toList ++ rest) := by
  intro c hc
  rw [List.head?_append, hs] at hc
  cases hc
  rfl

theorem Spaced.stops {p : Char → Bool} (hp : p ' ' = false) {rest : List Char} (h : Spaced rest) :
    Stops p rest := by
  intro c hc
  have hspace : c = ' ' := by simpa using h c hc
  rw [hspace, hp]

namespace FilterEntry
variable {e f : FilterEntry} {rest rest' : List Char}

theorem toList_comparison (e : FilterEntry) (rest : List Char) :
    e.comparison.toList ++ rest =
      e.left.toList ++ ' ' :: (e.operator.toList ++ ' ' :: (e.right.sql.toList ++ rest)) := by
  simp [comparison]

theorem toList_sql_unlinked (h : e.condition = "") (rest : List Char) :
    e.sql.toList ++ rest = ' ' :: (e.comparison.toList ++ rest) := by
  simp [sql, h]

theorem toList_sql_linked (h : e.condition ≠ "") (rest : List Char) :
    e.sql.toList ++ rest = ' ' :: (e.condition.toList ++ ' ' :: (e.comparison.toList ++ rest)) := by
  simp [sql, h]

theorem plain_iff : e.plain = true ↔ isName e.condition = true ∧ isName e.left = true ∧
    isOperator e.operator = true ∧ e.right.plain = true := by
  simp only [plain, Bool.and_eq_true, and_assoc]

theorem comparison_cut (he : e.plain = true) (hf : f.plain = true) (hrest : Spaced rest)
    (hrest' : Spaced rest') (h : e.comparison.toList ++ rest = f.comparison.toList ++ rest') :
    e.left = f.left ∧ e.operator = f.operator ∧ e.right = f.right ∧ rest = rest' := by
  obtain ⟨-, hleft, hoperator, hright⟩ := plain_iff.mp he
  obtain ⟨-, hleft', hoperator', hright'⟩ := plain_iff.mp hf
  rw [toList_comparison, toList_comparison] at h
  obtain ⟨hl, -, h⟩ := word_cut (isWord_of_isName hleft) (isWord_of_isName hleft') rfl rfl h
  obtain ⟨ho, -, h⟩ :=
    word_cut (isWord_of_isOperator hoperator) (isWord_of_isOperator hoperator') rfl rfl h
  obtain ⟨hr, h⟩ := Comparand.sql_cut hright hright' (hrest.stops rfl) (hrest'.stops rfl) h
  exact ⟨hl, ho, hr, h⟩

/-- A word in front makes another comparison: where the operator stands, nothing is compared
with. -/
theorem linked_ne_comparison {s : String} (hs : isWord s = true) (he : e.plain = true)
    (hf : f.plain = true) (rest rest' : List Char) :
    s.toList ++ ' ' :: (e.comparison.toList ++ rest) ≠ f.comparison.toList ++ rest' := by
  obtain ⟨-, hleft, hoperator, -⟩ := plain_iff.mp he
  obtain ⟨-, hleft', hoperator', hright'⟩ := plain_iff.mp hf
  intro h
  rw [toList_comparison, toList_comparison] at h
  obtain ⟨-, -, h⟩ := word_cut hs (isWord_of_isName hleft') rfl rfl h
  obtain ⟨-, -, h⟩ :=
    word_cut (isWord_of_isName hleft) (isWord_of_isOperator hoperator') rfl rfl h
  have hopens := Comparand.opens_sql hright' rest'
  rw [← h, Comparand.opens_operator_append hoperator] at hopens
  exact absurd hopens Bool.noConfusion

theorem sql_cut (he : e.plain = true) (hf : f.plain = true) (hrest : Spaced rest)
    (hrest' : Spaced rest') (h : e.sql.toList ++ rest = f.sql.toList ++ rest') :
    e = f ∧ rest = rest' := by
  have hword : isWord e.condition = true := isWord_of_isName (plain_iff.mp he).1
  have hword' : isWord f.condition = true := isWord_of_isName (plain_iff.mp hf).1
  by_cases hc : e.condition = ""
  · rw [toList_sql_unlinked hc] at h
    by_cases hc' : f.condition = ""
    · rw [toList_sql_unlinked hc'] at h
      obtain ⟨hl, ho, hr, h⟩ := comparison_cut he hf hrest hrest' (List.cons.inj h).2
      exact ⟨FilterEntry.ext (hc.trans hc'.symm) hl ho hr, h⟩
    · rw [toList_sql_linked hc'] at h
      exact absurd (List.cons.inj h).2.symm (linked_ne_comparison hword' hf he _ _)
  · rw [toList_sql_linked hc] at h
    by_cases hc' : f.condition = ""
    · rw [toList_sql_unlinked hc'] at h
      exact absurd (List.cons.inj h).2 (linked_ne_comparison hword he hf _ _)
    · rw [toList_sql_linked hc'] at h
      obtain ⟨hcondition, -, h⟩ := word_cut hword hword' rfl rfl (List.cons.inj h).2
      obtain ⟨hl, ho, hr, h⟩ := comparison_cut he hf hrest hrest' h
      exact ⟨FilterEntry.ext hcondition hl ho hr, h⟩

end FilterEntry

/-- What may stand behind a filter: nothing, or two keywords and a text in which, also behind one
more operator, nothing is compared with. -/
inductive Closing : List Char → Prop
  | nothing : Closing []
  | keywords {keyword : String} {body : List Char} (hkeyword : keyword ∈ ["ORDER", "GROUP"])
      (hbody : Comparand.opens body = false)
      (hmore : ∀ {operator more}, isOperator operator = true →
        body = operator.toList ++ ' ' :: more → Comparand.opens more = false) :
      Closing (' ' :: (keyword.toList ++ ' ' :: ("BY".toList ++ ' ' :: body)))

theorem Closing.spaced {rest : List Char} (h : Closing rest) : Spaced rest := by
  cases h with
  | nothing => exact spaced_nil
  | keywords => exact spaced_cons _

theorem Closing.of_name {keyword s : String} {rest : List Char}
    (hkeyword : keyword ∈ ["ORDER", "GROUP"]) (hs : isName s = true) (hrest : Stops wordChar rest)
    (hempty : s = "" → Comparand.opens rest = false)
    (hcall : s = "epoch_ms" → rest.head? ≠ some '(')
    (hmore : ∀ more, rest = ' ' :: more → Comparand.opens more = false) :
    Closing (' ' :: (keyword.toList ++ ' ' :: ("BY".toList ++ ' ' :: (s.toList ++ rest)))) := by
  refine Closing.keywords hkeyword ?_ ?_
  · rw [isName, Bool.or_eq_true, beq_iff_eq] at hs
    rcases hs with rfl | hs
    · exact hempty rfl
    · exact Comparand.opens_identifier_append hs (hrest.mono fun _ => nameChar_eq_false) hcall
  · intro operator more hoperator h
    obtain ⟨-, hr⟩ := run_cut (isWord_of_isName hs) (isWord_of_isOperator hoperator) hrest
      (stops_cons.mpr rfl) h
    exact hmore more hr

namespace FilterEntry
variable {es fs : List FilterEntry} {rest rest' : List Char}

theorem not_closing_sql {e : FilterEntry} (he : e.plain = true) :
    ¬Closing (e.sql.toList ++ rest) := by
  obtain ⟨hcondition, hleft, hoperator, hright⟩ := plain_iff.mp he
  have hopens := Comparand.opens_sql hright rest
  intro h
  generalize htext : e.sql.toList ++ rest = text at h
  cases h with
  | nothing =>
    by_cases hc : e.condition = ""
    · simp [toList_sql_unlinked hc] at htext
    · simp [toList_sql_linked hc] at htext
  | @keywords keyword body hkeyword hbody hmore =>
    have hword : isWord keyword = true := by
      simp only [List.mem_cons, List.not_mem_nil, or_false] at hkeyword
      rcases hkeyword with rfl | rfl <;> rfl
    by_cases hc : e.condition = ""
    · rw [toList_sql_unlinked hc, toList_comparison] at htext
      obtain ⟨-, -, h⟩ := word_cut (isWord_of_isName hleft) hword rfl rfl (List.cons.inj htext).2
      obtain ⟨-, -, h⟩ := word_cut (isWord_of_isOperator hoperator) rfl rfl rfl h
      rw [h, hbody] at hopens
      exact absurd hopens Bool.noConfusion
    · rw [toList_sql_linked hc, toList_comparison] at htext
      obtain ⟨-, -, h⟩ :=
        word_cut (isWord_of_isName hcondition) hword rfl rfl (List.cons.inj htext).2
      obtain ⟨-, -, h⟩ := word_cut (isWord_of_isName hleft) rfl rfl rfl h
      rw [hmore hoperator h.symm] at hopens
      exact absurd hopens Bool.noConfusion

theorem spaced_sql (e : FilterEntry) (rest : List Char) : Spaced (e.sql.toList ++ rest) := by
  by_cases hc : e.condition = ""
  · rw [toList_sql_unlinked hc]
    exact spaced_cons _
  · rw [toList_sql_linked hc]
    exact spaced_cons _

theorem pieces_sql : Pieces sql id (fun e => e.plain = true) Spaced Closing where
  cut := sql_cut
  follows {e rest} _ := spaced_sql e rest
  follows_of_ends := Closing.spaced
  not_ends he _ := not_closing_sql he

theorem toList_filterSql_nil (rest : List Char) : (filterSql []).toList ++ rest = rest := rfl

theorem toList_filterSql_of_ne_nil (h : es ≠ []) (rest : List Char) :
    (filterSql es).toList ++ rest = " WHERE".toList ++ Pieces.joined sql es rest := by
  rw [filterSql_of_ne_nil h, entriesSql, String.toList_append, List.append_assoc]
  rfl

theorem spaced_filterSql (es : List FilterEntry) (h : Closing rest) :
    Spaced ((filterSql es).toList ++ rest) := by
  by_cases hne : es = []
  · rw [hne, toList_filterSql_nil]
    exact h.spaced
  · rw [toList_filterSql_of_ne_nil hne]
    exact spaced_cons _

theorem where_not_closing (text : List Char) : ¬Closing (" WHERE".toList ++ text) := by
  intro h
  generalize htext : " WHERE".toList ++ text = all at h
  cases h with
  | nothing => exact absurd htext (List.cons_ne_nil _ _)
  | keywords hkeyword =>
    simp only [List.mem_cons, List.not_mem_nil, or_false] at hkeyword
    rcases hkeyword with rfl | rfl <;>
      exact absurd (List.cons.inj (List.cons.inj htext).2).1 (by decide)

/-- A filter is told apart from what stands behind it, entry by entry. -/
theorem filterSql_cut (hes : ∀ e ∈ es, e.plain = true) (hfs : ∀ f ∈ fs, f.plain = true)
    (hrest : Closing rest) (hrest' : Closing rest')
    (h : (filterSql es).toList ++ rest = (filterSql fs).toList ++ rest') :
    es = fs ∧ rest = rest' := by
  by_cases hne : es = []
  · rw [hne, toList_filterSql_nil] at h
    by_cases hne' : fs = []
    · rw [hne', toList_filterSql_nil] at h
      exact ⟨hne.trans hne'.symm, h⟩
    · rw [toList_filterSql_of_ne_nil hne'] at h
      exact absurd (h ▸ hrest) (where_not_closing _)
  · rw [toList_filterSql_of_ne_nil hne] at h
    by_cases hne' : fs = []
    · rw [hne', toList_filterSql_nil] at h
      exact absurd (h ▸ hrest') (where_not_closing _)
    · rw [toList_filterSql_of_ne_nil hne'] at h
      obtain ⟨hkeys, hr⟩ := pieces_sql.joined_cut hes hfs hrest hrest' (List.append_cancel_left h)
      rw [List.map_id, List.map_id] at hkeys
      exact ⟨hkeys, hr⟩

end FilterEntry

namespace Description

def tableSql (schema : Option String) (table : String) : String :=
  match schema with
  | none => table
  | some schema => schema ++ "." ++ table

theorem qualifiedTable_eq (d : Description) :
    d.qualifiedTable = tableSql d.effectiveSchema d.table := by
  unfold qualifiedTable effectiveSchema
  cases d.schema with
  | none => rfl
  | some s => by_cases hs : s = "" <;> simp [tableSql, Option.filter, hs]

theorem tableSql_cut {schema schema' : Option String} {table table' : String}
    {rest rest' : List Char} (hs : ∀ s ∈ schema, isName s = true) (ht : isName table = true)
    (hs' : ∀ s ∈ schema', isName s = true) (ht' : isName table' = true) (hrest : Spaced rest)
    (hrest' : Spaced rest')
    (h : (tableSql schema table).toList ++ rest = (tableSql schema' table').toList ++ rest') :
    schema = schema' ∧ table = table' ∧ rest = rest' := by
  have hqualified (s t : String) (cs : List Char) :
      (tableSql (some s) t).toList ++ cs = s.toList ++ '.' :: (t.toList ++ cs) := by
    simp [tableSql]
  have hdot (cs : List Char) : Stops nameChar ('.' :: cs) := stops_cons.mpr rfl
  have hnot (cs : List Char) : ¬Spaced ('.' :: cs) := fun h => by simpa using stops_cons.mp h
  cases schema with
  | none =>
    cases schema' with
    | none =>
      obtain ⟨htable, hr⟩ := name_cut ht ht' (hrest.stops rfl) (hrest'.stops rfl) h
      exact ⟨rfl, htable, hr⟩
    | some s' =>
      rw [hqualified] at h
      obtain ⟨-, hr⟩ := name_cut ht (hs' s' rfl) (hrest.stops rfl) (hdot _) h
      exact absurd (hr ▸ hrest) (hnot _)
  | some s =>
    rw [hqualified] at h
    cases schema' with
    | none =>
      obtain ⟨-, hr⟩ := name_cut (hs s rfl) ht' (hdot _) (hrest'.stops rfl) h
      exact absurd (hr ▸ hrest') (hnot _)
    | some s' =>
      rw [hqualified] at h
      obtain ⟨hschema, hr⟩ := name_cut (hs s rfl) (hs' s' rfl) (hdot _) (hdot _) h
      obtain ⟨htable, hr⟩ := name_cut ht ht'
        (hrest.stops rfl) (hrest'.stops rfl) (List.cons.inj hr).2
      exact ⟨congrArg some hschema, htable, hr⟩

/-- What statements of both kinds show: the table and the filter. -/
structure SameSource (d d' : Description) : Prop where
  schema : d.effectiveSchema = d'.effectiveSchema
  table : d.table = d'.table
  filter : d.filterEntries = d'.filterEntries

def sourceSql (d : Description) : String := d.qualifiedTable ++ d.filterSql

theorem sourceSql_eq (d : Description) :
    d.sourceSql =
      tableSql d.effectiveSchema d.table ++ FilterEntry.filterSql d.filterEntries := by
  rw [sourceSql, qualifiedTable_eq, filterSql_eq]

theorem SameSource.sourceSql {d d' : Description} (h : SameSource d d') :
    d.sourceSql = d'.sourceSql := by
  rw [sourceSql_eq, sourceSql_eq, h.schema, h.table, h.filter]

theorem sourceSql_cut {d d' : Description} {rest rest' : List Char} (hd : d.Plain)
    (hd' : d'.Plain) (hrest : Closing rest) (hrest' : Closing rest')
    (h : d.sourceSql.toList ++ rest = d'.sourceSql.toList ++ rest') :
    SameSource d d' ∧ rest = rest' := by
  rw [sourceSql_eq, sourceSql_eq, String.toList_append, String.toList_append, List.append_assoc,
    List.append_assoc] at h
  obtain ⟨hschema, htable, h⟩ := tableSql_cut hd.effectiveSchema hd.table hd'.effectiveSchema
    hd'.table (FilterEntry.spaced_filterSql _ hrest) (FilterEntry.spaced_filterSql _ hrest') h
  obtain ⟨hfilter, hr⟩ :=
    FilterEntry.filterSql_cut hd.filterEntries hd'.filterEntries hrest hrest' h
  exact ⟨⟨hschema, htable, hfilter⟩, hr⟩

end Description
end PanelSource
