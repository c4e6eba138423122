import PanelSource.Http.Request

/-! # Paths of routes

Every route has a path of its own, in which names stand as they are sent. A path is matched exactly
when it is the path of a route whose names are single segments. -/
namespace PanelSource

namespace Text

/-- The pieces of a text, each behind a separator, are the text behind a separator. -/
theorem flatMap_splitOnChar (sep : Char) (cs : List Char) :
    (splitOnChar sep cs).flatMap (sep :: ·) = sep :: cs := by
  induction cs with
  | nil => rfl
  | cons c cs ih =>
    obtain ⟨w, ws, hw⟩ := List.exists_cons_of_ne_nil (splitOnChar_ne_nil sep cs)
    rw [hw, List.flatMap_cons, List.cons_append] at ih
    have hcs := (List.cons.inj ih).2
    by_cases hc : c = sep
    · simp [splitOnChar, hc, hw, hcs]
    · simp [splitOnChar, hc, hw, hcs]

theorem not_mem_of_mem_splitOnChar {sep : Char} {cs w : List Char} (h : w ∈ splitOnChar sep cs) :
    sep ∉ w := by
  induction cs generalizing w with
  | nil =>
    rw [splitOnChar, List.mem_singleton] at h
    simp [h]
  | cons c cs ih =>
    obtain ⟨v, vs, hv⟩ := List.exists_cons_of_ne_nil (splitOnChar_ne_nil sep cs)
    rw [hv, List.forall_mem_cons] at ih
    by_cases hc : c = sep
    · simp only [splitOnChar, hc, if_true, hv, List.mem_cons] at h
      rcases h with rfl | rfl | h
      · exact List.not_mem_nil
      · exact ih.1
      · exact ih.2 w h
    · simp only [splitOnChar, hc, if_false, hv, List.mem_cons] at h
      rcases h with rfl | h
      · simp [Ne.symm hc, ih.1]
      · exact ih.2 w h

/-- Pieces without the separator are found again between separators. -/
theorem splitOnChar_flatMap {sep : Char} {w : List Char} {ws : List (List Char)} (hw : sep ∉ w)
    (hws : ∀ v ∈ ws, sep ∉ v) : splitOnChar sep (w ++ ws.flatMap (sep :: ·)) = w :: ws := by
  induction ws generalizing w with
  | nil => simpa using splitOnChar_of_not_mem hw
  | cons v ws ih =>
    rw [List.forall_mem_cons] at hws
    rw [List.flatMap_cons, List.cons_append, splitOnChar_append hw, ih hws.1 hws.2]

end Text

namespace Route

/-- The segments of a route. -/
def pieces : Route → List (List Char)
  | query => ["api".toList, "query".toList]
  | compile => ["api".toList, "compile".toList]
  | tables => ["api".toList, "tables".toList]
  | columns table => ["api".toList, "tables".toList, table, "columns".toList]
  | values table column =>
    ["api".toList, "tables".toList, table, "columns".toList, column, "values".toList]
  | status => ["api".toList, "status".toList]

/-- Every segment stands behind a slash. -/
def path (r : Route) : List Char := r.pieces.flatMap ('/' :: ·)

/-- No segment has a slash in it. -/
def Segmented (r : Route) : Prop := ∀ piece ∈ r.pieces, '/' ∉ piece

theorem segments_path {r : Route} (h : r.Segmented) : segments r.path = r.pieces := by
  obtain ⟨w, ws, hr⟩ : ∃ w ws, r.pieces = w :: ws := by cases r <;> exact ⟨_, _, rfl⟩
  rw [Segmented, hr, List.forall_mem_cons] at h
  rw [path, hr, List.flatMap_cons, List.cons_append]
  exact Text.splitOnChar_flatMap h.1 h.2

theorem eq_flatMap_of_segments {cs w : List Char} {ws : List (List Char)}
    (h : segments cs = w :: ws) :
    cs = (w :: ws).flatMap ('/' :: ·) ∧ ∀ piece ∈ w :: ws, '/' ∉ piece := by
  unfold segments at h
  split at h
  · rw [← h]
    exact ⟨(Text.flatMap_splitOnChar _ _).symm, fun _ => Text.not_mem_of_mem_splitOnChar⟩
  · cases h

theorem named_iff {name : String} {segment : List Char} :
    named name segment = true ↔ segment = name.toList := beq_iff_eq

theorem segments_of_ofPath? {cs : List Char} {r : Route} (h : ofPath? cs = some r) :
    segments cs = r.pieces := by
  unfold ofPath? at h
  split at h
  · rename_i api a hs
    split at h
    · cases h
    · rename_i hapi
      have hapi : api = "api".toList := named_iff.mp (by simpa using hapi)
      rw [hs, hapi]
      have hone {name : String} {r' : Route} (hp : r'.pieces = ["api".toList, name.toList])
          (hname : named name a = true) (h : some r' = some r) :
          ["api".toList, a] = r.pieces := by
        cases h
        rw [named_iff.mp hname, hp]
      split at h
      · exact hone rfl ‹_› h
      split at h
      · exact hone rfl ‹_› h
      split at h
      · exact hone rfl ‹_› h
      split at h
      · exact hone rfl ‹_› h
      · cases h
  · rename_i api a table b hs
    split at h
    · rename_i hnames
      simp only [Bool.and_eq_true, named_iff] at hnames
      obtain ⟨⟨rfl, rfl⟩, rfl⟩ := hnames
      cases h
      exact hs
    · cases h
  · rename_i api a table b column c hs
    split at h
    · rename_i hnames
      simp only [Bool.and_eq_true, named_iff] at hnames
      obtain ⟨⟨⟨rfl, rfl⟩, rfl⟩, rfl⟩ := hnames
      cases h
      exact hs
    · cases h
  · cases h

theorem ofPath?_path {r : Route} (h : r.Segmented) : ofPath? r.path = some r := by
  rw [ofPath?, segments_path h]
  cases r with
  | columns table => simp [pieces, named]
  | values table column => simp [pieces, named]
  | query => decide
  | compile => decide
  | tables => decide
  | status => decide

theorem ofPath?_eq_some_iff {cs : List Char} {r : Route} :
    ofPath? cs = some r ↔ cs = r.path ∧ r.Segmented := by
  constructor
  · intro h
    have hs := segments_of_ofPath? h
    obtain ⟨w, ws, hr⟩ : ∃ w ws, r.pieces = w :: ws := by cases r <;> exact ⟨_, _, rfl⟩
    rw [path, Segmented, hr]
    exact eq_flatMap_of_segments (hs.trans hr)
  · rintro ⟨rfl, h⟩
    exact ofPath?_path h

end Route
namespace HttpRequest

/-- The request is for the path of a route. -/
def At (req : HttpRequest) (r : Route) : Prop := req.path = r.path ∧ r.Segmented

theorem at_iff {req : HttpRequest} {r : Route} : req.At r ↔ Route.ofPath? req.path = some r :=
  Route.ofPath?_eq_some_iff.symm

end HttpRequest
end PanelSource
