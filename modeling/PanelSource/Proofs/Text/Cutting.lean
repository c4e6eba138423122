import Mathlib.Data.List.Basic

/-! # Joined texts taken apart

A piece of a text ends where its characters do. A list of pieces is found again when each piece is
found again and the text behind the list does not begin like a piece. -/
namespace PanelSource.Cutting

theorem intercalate_cons (sep x : String) (xs : List String) :
    sep.intercalate (x :: xs) = x ++ String.join (xs.map (sep ++ ·)) := by
  induction xs generalizing x with
  | nil => simp
  | cons y ys ih =>
    rw [String.intercalate_cons_cons, ih, List.map_cons, String.join_cons]
    simp only [String.append_assoc]

/-- No character of `p` comes first. -/
def Stops (p : Char → Bool) (rest : List Char) : Prop := ∀ c ∈ rest.head?, p c = false

theorem stops_nil (p : Char → Bool) : Stops p [] := by simp [Stops]

theorem stops_cons {p : Char → Bool} {c : Char} {cs : List Char} :
    Stops p (c :: cs) ↔ p c = false := by simp [Stops]

theorem Stops.mono {p q : Char → Bool} {rest : List Char} (hpq : ∀ c, p c = false → q c = false)
    (h : Stops p rest) : Stops q rest := fun c hc => hpq c (h c hc)

theorem all_mono {p q : Char → Bool} (hpq : ∀ c, p c = true → q c = true) {cs : List Char}
    (h : cs.all p = true) : cs.all q = true := by
  rw [List.all_eq_true] at h ⊢
  exact fun c hc => hpq c (h c hc)

theorem toNat_of_isAlpha {c : Char} (h : c.isAlpha = true) : 65 ≤ c.toNat ∧ c.toNat ≤ 122 := by
  change (decide (c.val ≥ 'A'.val ∧ c.val ≤ 'Z'.val) ||
    (decide (c.val ≥ 'a'.val) && decide (c.val ≤ 'z'.val))) = true at h
  have hval : c.toNat = c.val.toNat := rfl
  have hupper : 'A'.val.toNat = 65 := rfl
  have hlower : 'a'.val.toNat = 97 := rfl
  have hlast : 'z'.val.toNat = 122 := rfl
  have hlast' : 'Z'.val.toNat = 90 := rfl
  simp only [Bool.or_eq_true, Bool.and_eq_true, decide_eq_true_eq, ge_iff_le,
    UInt32.le_iff_toNat_le] at h
  omega

theorem runs_cut {p : Char → Bool} {w w' rest rest' : List Char} (hw : w.all p = true)
    (hw' : w'.all p = true) (hrest : Stops p rest) (hrest' : Stops p rest')
    (h : w ++ rest = w' ++ rest') : w = w' ∧ rest = rest' := by
  induction w generalizing w' with
  | nil =>
    cases w' with
    | nil => exact ⟨rfl, h⟩
    | cons c w' =>
      rw [List.nil_append, List.cons_append] at h
      have hstop : p c = false := stops_cons.mp (h ▸ hrest)
      simp [hstop] at hw'
  | cons c w ih =>
    cases w' with
    | nil =>
      rw [List.nil_append, List.cons_append] at h
      have hstop : p c = false := stops_cons.mp (h ▸ hrest')
      simp [hstop] at hw
    | cons c' w' =>
      obtain ⟨rfl, hcs⟩ := List.cons.inj h
      rw [List.all_cons, Bool.and_eq_true] at hw hw'
      obtain ⟨rfl, hr⟩ := ih hw.2 hw'.2 hcs
      exact ⟨rfl, hr⟩

/-- A run of characters of `p` is cut off where they stop. -/
theorem run_cut {p : Char → Bool} {s s' : String} {rest rest' : List Char}
    (hs : s.toList.all p = true) (hs' : s'.toList.all p = true) (hrest : Stops p rest)
    (hrest' : Stops p rest') (h : s.toList ++ rest = s'.toList ++ rest') :
    s = s' ∧ rest = rest' := by
  obtain ⟨hchars, hr⟩ := runs_cut hs hs' hrest hrest' h
  exact ⟨String.toList_inj.mp hchars, hr⟩

/-- A piece without the mark is cut off at the mark. -/
theorem mark_cut {mark : Char} {s s' : String} {rest rest' : List Char}
    (hs : s.toList.all (· != mark) = true) (hs' : s'.toList.all (· != mark) = true)
    (h : s.toList ++ mark :: rest = s'.toList ++ mark :: rest') : s = s' ∧ rest = rest' := by
  have hstops (cs : List Char) : Stops (· != mark) (mark :: cs) := stops_cons.mpr (by simp)
  obtain ⟨hpiece, hrest⟩ := run_cut hs hs' (hstops rest) (hstops rest') h
  exact ⟨hpiece, (List.cons.inj hrest).2⟩

/-- Pieces that are found again by their keys. A piece may be followed by the next one or by the
text behind the list, and the latter does not begin like a piece. -/
structure Pieces {α β : Type} (text : α → String) (key : α → β) (Piece : α → Prop)
    (Follows Ends : List Char → Prop) : Prop where
  cut : ∀ {x y rest rest'}, Piece x → Piece y → Follows rest → Follows rest' →
    (text x).toList ++ rest = (text y).toList ++ rest' → key x = key y ∧ rest = rest'
  follows : ∀ {x rest}, Piece x → Follows ((text x).toList ++ rest)
  follows_of_ends : ∀ {rest}, Ends rest → Follows rest
  not_ends : ∀ {x rest}, Piece x → Follows rest → ¬Ends ((text x).toList ++ rest)

namespace Pieces
variable {α β : Type} {text : α → String} {key : α → β} {Piece : α → Prop}
  {Follows Ends : List Char → Prop} {xs ys : List α} {rest rest' : List Char}

/-- The pieces and the text behind them. -/
def joined (text : α → String) (xs : List α) (rest : List Char) : List Char :=
  (String.join (xs.map text)).toList ++ rest

theorem joined_nil : joined text [] rest = rest := by simp [joined]

theorem joined_cons (x : α) :
    joined text (x :: xs) rest = (text x).toList ++ joined text xs rest := by
  simp [joined, String.toList_join]

theorem follows_joined (hp : Pieces text key Piece Follows Ends) (hxs : ∀ x ∈ xs, Piece x)
    (hrest : Ends rest) : Follows (joined text xs rest) := by
  cases xs with
  | nil =>
    rw [joined_nil]
    exact hp.follows_of_ends hrest
  | cons x xs =>
    rw [joined_cons]
    exact hp.follows (hxs x List.mem_cons_self)

theorem joined_cut (hp : Pieces text key Piece Follows Ends) (hxs : ∀ x ∈ xs, Piece x)
    (hys : ∀ y ∈ ys, Piece y) (hrest : Ends rest) (hrest' : Ends rest')
    (h : joined text xs rest = joined text ys rest') :
    xs.map key = ys.map key ∧ rest = rest' := by
  induction xs generalizing ys with
  | nil =>
    cases ys with
    | nil => exact ⟨rfl, by rwa [joined_nil, joined_nil] at h⟩
    | cons y ys =>
      rw [List.forall_mem_cons] at hys
      rw [joined_nil, joined_cons] at h
      exact absurd (h ▸ hrest) (hp.not_ends hys.1 (hp.follows_joined hys.2 hrest'))
  | cons x xs ih =>
    rw [List.forall_mem_cons] at hxs
    have hx := hp.follows_joined hxs.2 hrest
    rw [joined_cons] at h
    cases ys with
    | nil =>
      rw [joined_nil] at h
      exact absurd (h ▸ hrest') (hp.not_ends hxs.1 hx)
    | cons y ys =>
      rw [List.forall_mem_cons] at hys
      rw [joined_cons] at h
      obtain ⟨hkey, h⟩ := hp.cut hxs.1 hys.1 hx (hp.follows_joined hys.2 hrest') h
      obtain ⟨hkeys, hr⟩ := ih hxs.2 hys.2 h
      exact ⟨by rw [List.map_cons, List.map_cons, hkey, hkeys], hr⟩

end Pieces
end PanelSource.Cutting
