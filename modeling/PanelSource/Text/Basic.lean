/-! # Digits, literals of integers, and parts of texts

A text is taken apart at a separator or a word, and trimmed of the blanks around it. -/
namespace PanelSource.Text

def digitValue (c : Char) : Nat := c.toNat - 48

def digitsValue (cs : List Char) : Nat := cs.foldl (fun n c => 10 * n + digitValue c) 0

/-- A non-empty run of ASCII digits. -/
def natural? (cs : List Char) : Option Nat :=
  if cs ≠ [] ∧ cs.all Char.isDigit = true then some (digitsValue cs) else none

/-- An optional plus sign, then digits. -/
def unsigned? (cs : List Char) : Option Nat :=
  match cs with
  | '+' :: ds => natural? ds
  | ds => natural? ds

/-- An optional sign, then digits. -/
def integer? (cs : List Char) : Option Int :=
  match cs with
  | '-' :: ds => (natural? ds).map (fun n => -(n : Int))
  | ds => (unsigned? ds).map Int.ofNat

/-- An unsigned literal below a bound. -/
def below? (bound : Nat) (s : String) : Option Nat :=
  (unsigned? s.toList).filter (· < bound)

def minInt64 : Int := -9223372036854775808
def maxInt64 : Int := 9223372036854775807

def fitsInt64 (n : Int) : Bool := decide (minInt64 ≤ n ∧ n ≤ maxInt64)

def int64? (s : String) : Option Int := (integer? s.toList).filter fitsInt64

def hexValue? (c : Char) : Option Nat :=
  if c.isDigit then some (c.toNat - 48)
  else if 'a' ≤ c ∧ c ≤ 'f' then some (c.toNat - 87)
  else if 'A' ≤ c ∧ c ≤ 'F' then some (c.toNat - 55)
  else none

def natText (n : Nat) : String := String.ofList (Nat.toDigits 10 n)

def intText : Int → String
  | .ofNat n => natText n
  | .negSucc n => "-" ++ natText (n + 1)

def hexText (n : Nat) : String := String.ofList (Nat.toDigits 16 n)

/-- Zeros in front up to a width. -/
def padded (width n : Nat) : String :=
  let ds := Nat.toDigits 10 n
  String.ofList (List.replicate (width - ds.length) '0' ++ ds)

def lowerAscii (s : String) : String := String.ofList (s.toList.map Char.toLower)

def splitOnChar (sep : Char) : List Char → List (List Char)
  | [] => [[]]
  | c :: cs =>
    if c = sep then [] :: splitOnChar sep cs
    else match splitOnChar sep cs with
      | [] => [[c]]
      | w :: ws => (c :: w) :: ws

/-- The part before the first separator and, where there is one, the part after it. -/
def cutAt (sep : Char) : List Char → List Char × Option (List Char)
  | [] => ([], none)
  | c :: cs =>
    if c = sep then ([], some cs)
    else let (a, b) := cutAt sep cs; (c :: a, b)

def dropWord? : List Char → List Char → Option (List Char)
  | [], cs => some cs
  | _ :: _, [] => none
  | w :: ws, c :: cs => if w = c then dropWord? ws cs else none

theorem digitValue_digitChar {d : Nat} (h : d < 10) : digitValue (Nat.digitChar d) = d := by
  simp [digitValue, Nat.toNat_digitChar_of_lt_ten h]

theorem digitsValue_concat (cs : List Char) (c : Char) :
    digitsValue (cs ++ [c]) = 10 * digitsValue cs + digitValue c := by
  simp [digitsValue]

theorem digitsValue_toDigits (n : Nat) : digitsValue (Nat.toDigits 10 n) = n := by
  induction n using Nat.strongRecOn with
  | ind n ih =>
    rw [Nat.toDigits_eq_if (by omega)]
    split
    · rename_i h
      simp [digitsValue, digitValue_digitChar h]
    · rename_i h
      rw [digitsValue_concat, ih (n / 10) (by omega),
        digitValue_digitChar (Nat.mod_lt _ (by omega))]
      omega

theorem all_isDigit_toDigits (n : Nat) : (Nat.toDigits 10 n).all Char.isDigit = true := by
  rw [List.all_eq_true]
  intro c hc
  exact Nat.isDigit_of_mem_toDigits (by decide) (by decide) hc

theorem natural?_toDigits (n : Nat) : natural? (Nat.toDigits 10 n) = some n := by
  simp [natural?, all_isDigit_toDigits, digitsValue_toDigits, Nat.toDigits_ne_nil]

/-- A sign is no digit. -/
theorem toDigits_head {c : Char} {cs : List Char} {n : Nat} (h : Nat.toDigits 10 n = c :: cs) :
    c.isDigit = true := by
  have := all_isDigit_toDigits n
  rw [h] at this
  simp at this
  exact this.1

theorem unsigned?_toDigits (n : Nat) : unsigned? (Nat.toDigits 10 n) = some n := by
  unfold unsigned?
  split
  · rename_i h
    exact absurd (toDigits_head h) (by decide)
  · exact natural?_toDigits n

/-- The text of an integer is a literal of it. -/
theorem integer?_intText (n : Int) : integer? (intText n).toList = some n := by
  cases n with
  | ofNat n =>
    rw [intText, natText, String.toList_ofList]
    unfold integer?
    split
    · rename_i h
      exact absurd (toDigits_head h) (by decide)
    · simp [unsigned?_toDigits]
  | negSucc n =>
    simp [intText, natText, integer?, natural?_toDigits]
    omega

theorem splitOnChar_ne_nil (sep : Char) (cs : List Char) : splitOnChar sep cs ≠ [] := by
  induction cs with
  | nil => simp [splitOnChar]
  | cons c cs ih =>
    unfold splitOnChar
    split
    · simp
    · split <;> simp

theorem splitOnChar_of_not_mem {sep : Char} {cs : List Char} (h : sep ∉ cs) :
    splitOnChar sep cs = [cs] := by
  induction cs with
  | nil => rfl
  | cons c cs ih =>
    simp at h
    simp [splitOnChar, ih h.2, Ne.symm h.1]

/-- Pieces without the separator are found again. -/
theorem splitOnChar_append {sep : Char} {cs rest : List Char} (h : sep ∉ cs) :
    splitOnChar sep (cs ++ sep :: rest) = cs :: splitOnChar sep rest := by
  induction cs with
  | nil => simp [splitOnChar]
  | cons c cs ih =>
    simp at h
    simp [splitOnChar, ih h.2, Ne.symm h.1]

/-- The Unicode property White_Space. -/
def isBlank (c : Char) : Bool :=
  let n := c.toNat
  (9 ≤ n && n ≤ 13) || n == 0x20 || n == 0x85 || n == 0xA0 || n == 0x1680 ||
    (0x2000 ≤ n && n ≤ 0x200A) || n == 0x2028 || n == 0x2029 || n == 0x202F ||
    n == 0x205F || n == 0x3000

def dropBlanks (cs : List Char) : List Char := cs.dropWhile isBlank

def trimChars (cs : List Char) : List Char :=
  (dropBlanks (dropBlanks cs).reverse).reverse

def trim (s : String) : String := String.ofList (trimChars s.toList)

/-- A text is blank when it has no character but blanks. -/
def blank (s : String) : Bool := s.toList.all isBlank

theorem dropBlanks_eq_nil_iff (cs : List Char) : dropBlanks cs = [] ↔ cs.all isBlank = true := by
  induction cs with
  | nil => simp [dropBlanks]
  | cons c cs ih =>
    by_cases h : isBlank c = true
    · have hd : dropBlanks (c :: cs) = dropBlanks cs := by simp [dropBlanks, h]
      rw [hd, ih]
      simp [h]
    · simp [dropBlanks, h]

/-- Trimming leaves nothing exactly of the blank texts. -/
theorem trimChars_eq_nil_iff (cs : List Char) : trimChars cs = [] ↔ cs.all isBlank = true := by
  rw [trimChars, List.reverse_eq_nil_iff, dropBlanks_eq_nil_iff]
  rw [List.all_reverse]
  constructor
  · intro h
    induction cs with
    | nil => rfl
    | cons c cs ih =>
      by_cases hc : isBlank c = true
      · have : dropBlanks (c :: cs) = dropBlanks cs := by simp [dropBlanks, hc]
        rw [this] at h
        simp [hc, ih h]
      · have : dropBlanks (c :: cs) = c :: cs := by simp [dropBlanks, hc]
        rwa [this] at h
  · intro h
    rw [(dropBlanks_eq_nil_iff cs).2 h]
    rfl

end PanelSource.Text
