/-! # Binary grids of floating-point magnitudes, and doubles

The non-negative points of a grid are numbered upward from zero; the number of a point is its
rank. Neighbouring ranks are neighbouring points, and a rank is even exactly when its mantissa is. A
finite double is a sign and a rank; beside the finite ones there are infinities and not-a-number. -/
namespace PanelSource

structure Grid where
  fraction : Nat
  lowest : Int
  infinity : Nat

def Grid.single : Grid := ⟨23, -149, 255 * Nat.pow 2 23⟩
def Grid.double : Grid := ⟨52, -1074, 2047 * Nat.pow 2 52⟩

/-- A rational with half a unit is taken to the even neighbour. -/
def roundHalfEven (n d : Nat) : Nat :=
  let m := n / d
  let r := n % d
  if 2 * r < d then m else if d < 2 * r then m + 1 else m + m % 2

/-- The exponent `e` with `2 ^ e ≤ n / d < 2 ^ (e + 1)`, for positive `n` and `d`. -/
def binaryExponent (n d : Nat) : Int :=
  let e : Int := Int.ofNat n.log2 - Int.ofNat d.log2
  if d * Nat.pow 2 e.toNat ≤ n * Nat.pow 2 (-e).toNat then e else e - 1

namespace Grid

def mantissa (g : Grid) (rank : Nat) : Nat :=
  if rank < Nat.pow 2 g.fraction then rank else Nat.pow 2 g.fraction + rank % Nat.pow 2 g.fraction

def exponent (g : Grid) (rank : Nat) : Int :=
  if rank < Nat.pow 2 g.fraction then g.lowest
  else g.lowest + (rank / Nat.pow 2 g.fraction - 1 : Nat)

/-- Numerator and denominator of the point with a rank. -/
def ratio (g : Grid) (rank : Nat) : Nat × Nat :=
  (g.mantissa rank * Nat.pow 2 (g.exponent rank).toNat, Nat.pow 2 (-g.exponent rank).toNat)

/-- The rank nearest to `n / d`, of two the even one. The grid is continued upward without an end,
so that a rank from `infinity` on says that the rational is beyond it. -/
def nearest (g : Grid) (n d : Nat) : Nat :=
  if n = 0 then 0
  else
    let q := max (binaryExponent n d - g.fraction) g.lowest
    (q - g.lowest).toNat * Nat.pow 2 g.fraction +
      roundHalfEven (n * Nat.pow 2 (-q).toNat) (d * Nat.pow 2 q.toNat)

end Grid

structure Double where
  negative : Bool
  rank : Nat
  rank_lt : rank < Grid.double.infinity
  deriving DecidableEq

namespace Double

def ofRank? (negative : Bool) (rank : Nat) : Option Double :=
  if h : rank < Grid.double.infinity then some ⟨negative, rank, h⟩ else none

def zero (negative : Bool) : Double := ⟨negative, 0, by decide⟩

instance : Inhabited Double := ⟨zero false⟩

def ratio (x : Double) : Nat × Nat := Grid.double.ratio x.rank

def ofRatio? (negative : Bool) (n d : Nat) : Option Double :=
  ofRank? negative (Grid.double.nearest n d)

def ofInt? (n : Int) : Option Double := ofRatio? (decide (n < 0)) n.natAbs 1

/-- The double nearest to `digits * 10 ^ exponent`. Scales far outside the range of doubles are
decided by their size alone. -/
def ofDecimal? (negative : Bool) (digits : Nat) (exponent : Int) : Option Double :=
  let size := (Nat.toDigits 10 digits).length + exponent
  if digits = 0 ∨ size < -400 then some (zero negative)
  else if size > 400 then none
  else ofRatio? negative (digits * Nat.pow 10 exponent.toNat) (Nat.pow 10 (-exponent).toNat)

def signed (negative : Bool) (n : Nat) : Int := if negative then -(n : Int) else n

/-- Toward zero. -/
def truncate (x : Double) : Int := signed x.negative (x.ratio.1 / x.ratio.2)

/-- To the nearest integer, a half away from zero. -/
def round (x : Double) : Int :=
  signed x.negative ((2 * x.ratio.1 + x.ratio.2) / (2 * x.ratio.2))

/-- The power is itself first taken to the nearest double, as are both results. -/
def timesPowerOfTen? (x : Double) (k : Nat) : Option Double :=
  (ofDecimal? false 1 k).bind fun p =>
    ofRatio? x.negative (x.ratio.1 * p.ratio.1) (x.ratio.2 * p.ratio.2)

def overPowerOfTen (x : Double) (k : Nat) : Double :=
  ((ofDecimal? false 1 k).bind fun p =>
    ofRatio? x.negative (x.ratio.1 * p.ratio.2) (x.ratio.2 * p.ratio.1)).getD (zero x.negative)

/-- Division by `10 ^ 308` as often as `k` goes beyond it; three times leave nothing of any
double. -/
def shrink : Nat → Double → Nat → Double
  | 0, x, _ => zero x.negative
  | n + 1, x, k => if k ≤ 308 then x.overPowerOfTen k else shrink n (x.overPowerOfTen 308) (k - 308)

/-- The scaling of a significand that fits 64 bits: it is rounded to a double, which is then
multiplied or divided by the power of ten. Nothing when the result is beyond the doubles. -/
def scaled? (negative : Bool) (significand : Nat) (exponent : Int) : Option Double :=
  (ofRatio? negative significand 1).bind fun x =>
    if x.rank = 0 then some x
    else if 308 < exponent then none
    else if 0 ≤ exponent then x.timesPowerOfTen? exponent.toNat
    else some (shrink 4 x (-exponent).toNat)

end Double

/-- What a 64-bit or 32-bit pattern can stand for. -/
inductive Extended
  | finite (x : Double)
  | infinity (negative : Bool)
  | nan
  deriving DecidableEq

namespace Extended

def ofRank (g : Grid) (negative : Bool) (rank : Nat) : Extended :=
  if g.infinity < rank then .nan
  else if rank = g.infinity then .infinity negative
  else
    let (n, d) := g.ratio rank
    match Double.ofRatio? negative n d with
    | some x => .finite x
    | none => .infinity negative

/-- The sign is the highest bit and the rank the others. -/
def ofBits64 (bits : Nat) : Extended :=
  ofRank .double (decide (UInt64.size / 2 ≤ bits)) (bits % (UInt64.size / 2))

def ofBits32 (bits : Nat) : Extended :=
  ofRank .single (decide (UInt32.size / 2 ≤ bits)) (bits % (UInt32.size / 2))

def finite? : Extended → Option Double
  | .finite x => some x
  | _ => none

end Extended
end PanelSource
