import PanelSource.Text.Basic

/-! # UTF-8 and percent encoding

Bytes are numbers below 256. The decoder is a machine over bytes: between characters it expects a
first byte, inside a character it knows how many bytes are missing and which the next one may be. A
byte that does not fit ends the character before it as broken and is looked at again as a first
byte, so that each broken part is as long as it could have been part of a character. -/
namespace PanelSource.Text.Utf8

def encodeChar (c : Char) : List Nat :=
  let n := c.toNat
  if n < 0x80 then [n]
  else if n < 0x800 then [0xC0 + n / 64, 0x80 + n % 64]
  else if n < 0x10000 then [0xE0 + n / 4096, 0x80 + n / 64 % 64, 0x80 + n % 64]
  else [0xF0 + n / 262144, 0x80 + n / 4096 % 64, 0x80 + n / 64 % 64, 0x80 + n % 64]

def encode (cs : List Char) : List Nat := cs.flatMap encodeChar

/-- A character of which `missing + 1` bytes are still to come, the next one from `low` to
`high`. -/
structure Pending where
  missing : Nat
  low : Nat
  high : Nat
  bits : Nat

/-- First bytes of longer characters. The bounds of the second byte leave out forms that are too
long, surrogates and numbers beyond the last character. -/
def lead? (b : Nat) : Option Pending :=
  if 0xC2 ≤ b ∧ b ≤ 0xDF then some ⟨0, 0x80, 0xBF, b - 0xC0⟩
  else if b = 0xE0 then some ⟨1, 0xA0, 0xBF, 0⟩
  else if b = 0xED then some ⟨1, 0x80, 0x9F, 13⟩
  else if 0xE1 ≤ b ∧ b ≤ 0xEF then some ⟨1, 0x80, 0xBF, b - 0xE0⟩
  else if b = 0xF0 then some ⟨2, 0x90, 0xBF, 0⟩
  else if 0xF1 ≤ b ∧ b ≤ 0xF3 then some ⟨2, 0x80, 0xBF, b - 0xF0⟩
  else if b = 0xF4 then some ⟨2, 0x80, 0x8F, 4⟩
  else none

abbrev State := Option Pending

/-- A byte where a character may begin: what is complete with it, and the state after it. Nothing
stands for a broken part. -/
def enter (b : Nat) : List (Option Char) × State :=
  if b < 0x80 then ([some (Char.ofNat b)], none)
  else match lead? b with
    | some p => ([], some p)
    | none => ([none], none)

def step : State → Nat → List (Option Char) × State
  | none, b => enter b
  | some p, b =>
    if p.low ≤ b ∧ b ≤ p.high then
      let bits := p.bits * 64 + b % 64
      match p.missing with
      | 0 => ([some (Char.ofNat bits)], none)
      | k + 1 => ([], some ⟨k, 0x80, 0xBF, bits⟩)
    else
      let (out, s) := enter b
      (none :: out, s)

def run : State → List Nat → List (Option Char)
  | none, [] => []
  | some _, [] => [none]
  | s, b :: bs =>
    let (out, s) := step s b
    out ++ run s bs

/-- The characters of bytes that have no broken part. -/
def decode? (bs : List Nat) : Option (List Char) := (run none bs).mapM id

/-- Each broken part becomes one replacement character. -/
def decodeLossy (bs : List Nat) : List Char := (run none bs).map fun c => c.getD (Char.ofNat 0xFFFD)

theorem run_cons (s : State) (b : Nat) (bs : List Nat) :
    run s (b :: bs) = (step s b).1 ++ run (step s b).2 bs := by
  cases s <;> rfl

/-- A byte in its bounds is taken; the last one completes the character. -/
theorem run_last {low high bits b : Nat} (bs : List Nat) (h : low ≤ b ∧ b ≤ high) :
    run (some ⟨0, low, high, bits⟩) (b :: bs) =
      some (Char.ofNat (bits * 64 + b % 64)) :: run none bs := by
  simp [run_cons, step, h]

theorem run_more {k low high bits b : Nat} (bs : List Nat) (h : low ≤ b ∧ b ≤ high) :
    run (some ⟨k + 1, low, high, bits⟩) (b :: bs) =
      run (some ⟨k, 0x80, 0xBF, bits * 64 + b % 64⟩) bs := by
  simp [run_cons, step, h]

theorem run_lead {b : Nat} {p : Pending} (bs : List Nat) (hb : 0x80 ≤ b) (h : lead? b = some p) :
    run none (b :: bs) = run (some p) bs := by
  simp [run_cons, step, enter, h, Nat.not_lt.2 hb]

theorem lead?_three {m : Nat} (h : m < 16) :
    lead? (0xE0 + m) =
      some ⟨1, if m = 0 then 0xA0 else 0x80, if m = 13 then 0x9F else 0xBF, m⟩ := by
  by_cases h0 : m = 0
  · subst h0; rfl
  · by_cases h13 : m = 13
    · subst h13; rfl
    · rw [lead?, if_neg (by omega), if_neg (by omega), if_neg (by omega), if_pos (by omega)]
      simp [h0, h13]

theorem lead?_four {m : Nat} (h : m < 5) :
    lead? (0xF0 + m) =
      some ⟨2, if m = 0 then 0x90 else 0x80, if m = 4 then 0x8F else 0xBF, m⟩ := by
  match m, h with
  | 0, _ | 1, _ | 2, _ | 3, _ | 4, _ => rfl

theorem run_encodeChar (c : Char) (bs : List Nat) :
    run none (encodeChar c ++ bs) = some c :: run none bs := by
  have hv : c.toNat < 0xD800 ∨ (0xDFFF < c.toNat ∧ c.toNat < 0x110000) := c.valid
  have hc : Char.ofNat c.toNat = c := Char.ofNat_toNat c
  simp only [encodeChar]
  generalize c.toNat = n at hv hc
  subst hc
  split
  · rename_i h
    simp [run_cons, step, enter, h]
  · split
    · have hl : lead? (0xC0 + n / 64) = some ⟨0, 0x80, 0xBF, n / 64⟩ := by
        rw [lead?, if_pos (by omega)]
        simp
      simp only [List.cons_append, List.nil_append]
      rw [run_lead _ (by omega) hl, run_last _ (by omega)]
      congr 3
      omega
    · split
      · simp only [List.cons_append, List.nil_append]
        rw [run_lead _ (by omega) (lead?_three (by omega)),
          run_more _ (by split <;> split <;> omega), run_last _ (by omega)]
        congr 3
        omega
      · simp only [List.cons_append, List.nil_append]
        rw [run_lead _ (by omega) (lead?_four (by omega)),
          run_more _ (by split <;> split <;> omega), run_more _ (by omega), run_last _ (by omega)]
        congr 3
        omega

theorem run_encode (cs : List Char) : run none (encode cs) = cs.map some := by
  induction cs with
  | nil => rfl
  | cons c cs ih =>
    have : encode (c :: cs) = encodeChar c ++ encode cs := rfl
    rw [this, run_encodeChar, ih]
    rfl

/-- Written characters are read back. -/
theorem decode?_encode (cs : List Char) : decode? (encode cs) = some cs := by
  rw [decode?, run_encode]
  induction cs with
  | nil => rfl
  | cons c cs ih => simp_all

end PanelSource.Text.Utf8

namespace PanelSource.Text.Percent

/-- The byte that two hexadecimal digits after a percent sign stand for. -/
def escape? (a b : Nat) : Option Nat := do
  return 16 * (← hexValue? (Char.ofNat a)) + (← hexValue? (Char.ofNat b))

/-- A percent sign without two hexadecimal digits stands for itself. -/
def decodeBytes : List Nat → List Nat
  | 0x25 :: a :: b :: rest =>
    match escape? a b with
    | some n => n :: decodeBytes rest
    | none => 0x25 :: decodeBytes (a :: b :: rest)
  | c :: rest => c :: decodeBytes rest
  | [] => []

/-- A segment of a path. -/
def decodeSegment? (cs : List Char) : Option (List Char) :=
  Utf8.decode? (decodeBytes (Utf8.encode cs))

/-- A name or a value of a query, in which a plus sign is a space. -/
def decodeForm (cs : List Char) : List Char :=
  Utf8.decodeLossy (decodeBytes ((Utf8.encode cs).map fun b => if b = 0x2B then 0x20 else b))

/-- The pairs of a query; a pair without an equals sign has an empty value. -/
def pairs (query : List Char) : List (String × String) :=
  ((splitOnChar '&' query).filter (· ≠ [])).map fun part =>
    let (name, value) := cutAt '=' part
    (String.ofList (decodeForm name), String.ofList (decodeForm (value.getD [])))

end PanelSource.Text.Percent
