import PanelSource.Proofs.Text.Cutting
import PanelSource.Text.Encoding

/-! # Names in percent encoding

A name may be sent with any of its bytes escaped, in digits of either case. However it is spelled,
it is decoded to itself, and no character that divides an address stands in it. -/
namespace PanelSource.Text.Percent

/-- Characters that may be sent as they are. -/
def unreserved (c : Char) : Bool := c.isAlphanum || "-._~".toList.contains c

/-- A hexadecimal digit, small or capital. -/
def IsDigit (n : Nat) (c : Char) : Prop := c = n.digitChar ∨ c = n.digitChar.toUpper

instance (n : Nat) (c : Char) : Decidable (IsDigit n c) := inferInstanceAs (Decidable (_ ∨ _))

/-- A text that spells bytes: each by an escape, or by the unreserved character that it is. -/
inductive Spells : List Char → List Nat → Prop
  | nil : Spells [] []
  | raw {c : Char} {cs : List Char} {bs : List Nat} (hc : unreserved c = true) (h : Spells cs bs) :
      Spells (c :: cs) (c.toNat :: bs)
  | escaped {b : Nat} {high low : Char} {cs : List Char} {bs : List Nat} (hb : b < 256)
      (hhigh : IsDigit (b / 16) high) (hlow : IsDigit (b % 16) low) (h : Spells cs bs) :
      Spells ('%' :: high :: low :: cs) (b :: bs)

theorem toNat_of_unreserved {c : Char} (h : unreserved c = true) :
    44 < c.toNat ∧ c.toNat < 127 ∧ c.toNat ≠ 0x2F ∧ c.toNat ≠ 0x3A ∧ c.toNat ≠ 0x3F := by
  simp only [unreserved, Char.isAlphanum, Bool.or_eq_true, List.contains_iff_mem] at h
  change _ ∨ c ∈ ['-', '.', '_', '~'] at h
  simp only [List.mem_cons, List.not_mem_nil, or_false] at h
  rcases h with (hletter | hdigit) | rfl | rfl | rfl | rfl
  case inl.inl =>
    have hrange := Cutting.toNat_of_isAlpha hletter
    omega
  case inl.inr =>
    have hrange : 48 ≤ c.toNat ∧ c.toNat ≤ 57 := Char.isDigit_iff_toNat.mp hdigit
    omega
  all_goals decide

/-- Digits have their value in either case. -/
theorem hexValue?_digitChar : ∀ n < 16,
    hexValue? n.digitChar = some n ∧ hexValue? n.digitChar.toUpper = some n := by
  decide

theorem unreserved_digitChar : ∀ n < 16,
    unreserved n.digitChar = true ∧ unreserved n.digitChar.toUpper = true := by
  decide

namespace IsDigit
variable {n : Nat} {c : Char}

theorem hexValue? (h : IsDigit n c) (hn : n < 16) : Text.hexValue? c = some n := by
  rcases h with rfl | rfl
  · exact (hexValue?_digitChar n hn).1
  · exact (hexValue?_digitChar n hn).2

/-- A digit needs no escape itself. -/
theorem unreserved (h : IsDigit n c) (hn : n < 16) : Percent.unreserved c = true := by
  rcases h with rfl | rfl
  · exact (unreserved_digitChar n hn).1
  · exact (unreserved_digitChar n hn).2

end IsDigit

namespace Spells
variable {cs : List Char} {bs : List Nat}

theorem percent_or_unreserved (h : Spells cs bs) : ∀ c ∈ cs, c = '%' ∨ unreserved c = true := by
  induction h with
  | nil => exact nofun
  | raw hc _ ih => exact List.forall_mem_cons.mpr ⟨.inr hc, ih⟩
  | escaped hb hhigh hlow _ ih =>
    have hhigh := hhigh.unreserved (by omega)
    have hlow := hlow.unreserved (by omega)
    exact List.forall_mem_cons.mpr ⟨.inl rfl, List.forall_mem_cons.mpr ⟨.inr hhigh,
      List.forall_mem_cons.mpr ⟨.inr hlow, ih⟩⟩⟩

theorem toNat_lt (h : Spells cs bs) {c : Char} (hc : c ∈ cs) : c.toNat < 0x80 := by
  rcases h.percent_or_unreserved c hc with rfl | hc
  · decide
  · have hrange := toNat_of_unreserved hc
    omega

/-- A spelling has no character that ends a segment, a path or an address. -/
theorem not_mem (h : Spells cs bs) {divider : Char} (hd : divider ∈ ['/', '?', '#']) :
    divider ∉ cs := by
  intro hc
  simp only [List.mem_cons, List.not_mem_nil, or_false] at hd
  rcases h.percent_or_unreserved divider hc with rfl | hc
  · simp at hd
  · have hrange := toNat_of_unreserved hc
    rcases hd with rfl | rfl | rfl <;> simp at hrange

theorem decodeBytes_of_ne {b : Nat} (h : b ≠ 0x25) (rest : List Nat) :
    decodeBytes (b :: rest) = b :: decodeBytes rest := by
  rw [decodeBytes]
  exact fun _ _ _ hb => absurd hb h

theorem decodeBytes_eq (h : Spells cs bs) : decodeBytes (cs.map Char.toNat) = bs := by
  induction h with
  | nil => rfl
  | raw hc _ ih =>
    have hrange := toNat_of_unreserved hc
    rw [List.map_cons, decodeBytes_of_ne (by omega), ih]
  | @escaped b high low cs bs hb hhigh hlow _ ih =>
    have hvalue : escape? high.toNat low.toNat = some b := by
      rw [escape?, Char.ofNat_toNat, Char.ofNat_toNat, hhigh.hexValue? (by omega),
        hlow.hexValue? (by omega)]
      exact congrArg some (by omega)
    have hpercent : '%'.toNat = 0x25 := rfl
    rw [List.map_cons, List.map_cons, List.map_cons, hpercent, decodeBytes, hvalue, ih]

end Spells

theorem encode_of_lt {cs : List Char} (h : ∀ c ∈ cs, c.toNat < 0x80) :
    Utf8.encode cs = cs.map Char.toNat := by
  have hchar : ∀ c ∈ cs, Utf8.encodeChar c = [c.toNat] := fun c hc => by
    rw [Utf8.encodeChar, if_pos (h c hc)]
  rw [Utf8.encode, List.map_eq_flatMap, List.flatMap_def, List.flatMap_def,
    List.map_congr_left hchar]

/-- However the bytes of a name are spelled, the name is what comes out. -/
theorem decodeSegment?_of_spells {cs name : List Char} (h : Spells cs (Utf8.encode name)) :
    decodeSegment? cs = some name := by
  rw [decodeSegment?, encode_of_lt fun _ => h.toNat_lt, h.decodeBytes_eq, Utf8.decode?_encode]

end PanelSource.Text.Percent
