import PanelSource.Number.Double
import PanelSource.Text.Basic

/-! # The fewest digits that read back, and the layouts they are written in -/
namespace PanelSource

/-- A decimal `digits * 10 ^ exponent`. -/
structure Decimal where
  digits : Nat
  exponent : Int
  deriving DecidableEq, Repr

/-- The exponent `e` with `10 ^ e ≤ n / d < 10 ^ (e + 1)`, for positive `n` and `d`. -/
def decimalExponent (n d : Nat) : Int :=
  let e : Int := Int.ofNat (Nat.toDigits 10 n).length - Int.ofNat (Nat.toDigits 10 d).length
  if d * Nat.pow 10 e.toNat ≤ n * Nat.pow 10 (-e).toNat then e else e - 1

/-- The rationals that round to one point: the ends belong to it exactly when its rank is even. -/
structure RoundingInterval where
  low : Nat
  high : Nat
  den : Nat
  closed : Bool

namespace RoundingInterval

/-- Ends half a step away; below a power of two the step down is half the step up. -/
def ofRank (g : Grid) (rank : Nat) : RoundingInterval :=
  let m := g.mantissa rank
  let e := g.exponent rank - 2
  let down := if m = Nat.pow 2 g.fraction ∧ g.lowest < g.exponent rank then 1 else 2
  ⟨(4 * m - down) * Nat.pow 2 e.toNat, (4 * m + 2) * Nat.pow 2 e.toNat, Nat.pow 2 (-e).toNat,
    rank % 2 == 0⟩

def contains (i : RoundingInterval) (x : Decimal) : Bool :=
  let n := x.digits * Nat.pow 10 x.exponent.toNat * i.den
  let s := Nat.pow 10 (-x.exponent).toNat
  if i.closed then i.low * s ≤ n && n ≤ i.high * s else i.low * s < n && n < i.high * s

end RoundingInterval

namespace Decimal

/-- The neighbours of `n / d` among the multiples of `10 ^ k`, the nearer one first; of two equally
near the even multiple. -/
def neighbours (n d : Nat) (k : Int) : Decimal × Decimal :=
  let num := n * Nat.pow 10 (-k).toNat
  let den := d * Nat.pow 10 k.toNat
  let m := num / den
  let r := num % den
  let below : Decimal := ⟨m, k⟩
  let above : Decimal := ⟨m + 1, k⟩
  if 2 * r < den ∨ (2 * r = den ∧ m % 2 = 0) then (below, above) else (above, below)

/-- Grids of `10 ^ k` from the coarsest on; the first one with a point in the interval wins. -/
def search (i : RoundingInterval) (n d : Nat) : Nat → Int → Decimal
  | 0, k => (neighbours n d k).1
  | fuel + 1, k =>
    let (near, far) := neighbours n d k
    if i.contains near then near
    else if i.contains far then far
    else search i n d fuel (k - 1)

def stripZeros : Nat → Decimal → Decimal
  | 0, x => x
  | fuel + 1, x =>
    if x.digits ≠ 0 ∧ x.digits % 10 = 0 then stripZeros fuel ⟨x.digits / 10, x.exponent + 1⟩ else x

/-- Seventeen digits always suffice for a double. -/
def shortest (g : Grid) (rank : Nat) : Decimal :=
  if rank = 0 then ⟨0, 0⟩
  else
    let (n, d) := g.ratio rank
    stripZeros 400 (search (.ofRank g rank) n d 17 (decimalExponent n d))

end Decimal

/-- The decisions a text format makes about the digits of a double. Between the two powers of ten
the point is placed; outside them the digits are written with an exponent. -/
structure NumberLayout where
  least : Option Int
  greatest : Option Int
  keepsPoint : Bool
  plus : Bool

namespace NumberLayout

/-- JSON text: `100.0`, `0.00001`, `1e-6`, `1.5e+16`. -/
def json : NumberLayout := ⟨some (-5), some 15, true, true⟩

/-- The text of a number inside a shown store value: `1.0`, `0.0001`, `1e-5`, `1e16`. -/
def shown : NumberLayout := ⟨some (-4), some 15, true, false⟩

/-- The text of a number used as a setting: `1.5`, `100000000000000000000`, never an exponent. -/
def plain : NumberLayout := ⟨none, none, false, false⟩

def placed (l : NumberLayout) (ds : List Char) (exponent : Int) : List Char :=
  if 0 ≤ exponent then
    ds ++ List.replicate exponent.toNat '0' ++ (if l.keepsPoint then ['.', '0'] else [])
  else
    let k := (-exponent).toNat
    if k < ds.length then ds.take (ds.length - k) ++ '.' :: ds.drop (ds.length - k)
    else '0' :: '.' :: (List.replicate (k - ds.length) '0' ++ ds)

def scientific (l : NumberLayout) (ds : List Char) (power : Int) : List Char :=
  let mark := if l.plus ∧ 0 ≤ power then ['e', '+'] else ['e']
  let head := match ds with
    | [] => []
    | [c] => [c]
    | c :: cs => c :: '.' :: cs
  head ++ mark ++ (Text.intText power).toList

def magnitude (l : NumberLayout) (x : Decimal) : List Char :=
  let ds := Nat.toDigits 10 x.digits
  let power := x.exponent + ds.length - 1
  if (l.least.all (· ≤ power)) && (l.greatest.all (power ≤ ·)) then l.placed ds x.exponent
  else l.scientific ds power

def render (l : NumberLayout) (x : Double) : String :=
  String.ofList ((if x.negative then ['-'] else []) ++ l.magnitude (.shortest .double x.rank))

def renderExtended (l : NumberLayout) : Extended → String
  | .finite x => l.render x
  | .infinity negative => if negative then "-inf" else "inf"
  | .nan => "NaN"

end NumberLayout
end PanelSource
