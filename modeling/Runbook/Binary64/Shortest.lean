import Runbook.Binary64

/-!
This module contains the decimal text of finite doubles: the fewest digits that read back as the
same number, the nearest to it among those, in positional or in exponent form.
-/

namespace Runbook

namespace Binary64

/--
The reals that round to a number, in quarters of its last binary place: the number itself, both
ends, and whether the ends belong to the interval.
-/
structure Interval where
  low : Nat
  value : Nat
  high : Nat
  closed : Bool

/-- Below a power of two the neighbour is only half as far, unless it is the least exponent. -/
def interval (x : Binary64) : Interval :=
  let m := x.significand
  let low := if m = 1 <<< 52 ∧ -1074 < x.exponent then 4 * m - 1 else 4 * m - 2
  ⟨low, 4 * m, 4 * m + 2, m % 2 = 0⟩

/--
The point of the grid of multiples of `10 ^ k` that reads back as `x` and is nearest to it, if any.
Of two points equally near, the even one is taken.
-/
def onGrid? (x : Binary64) (k : Int) : Option Nat :=
  let quarter := x.exponent - 2
  let scale := Nat.pow 10 (-k).toNat <<< quarter.toNat
  let unit := Nat.pow 10 k.toNat <<< (-quarter).toNat
  let i := x.interval
  let inside (d : Nat) : Bool :=
    if i.closed then
      i.low * scale ≤ d * unit && d * unit ≤ i.high * scale
    else
      i.low * scale < d * unit && d * unit < i.high * scale
  let below := i.value * scale / unit
  let nearest := roundHalfEven (i.value * scale) unit
  if inside nearest then some nearest
  else if inside below then some below
  else if inside (below + 1) then some (below + 1)
  else none

/-- A power of ten above the number, from its power of two. -/
def topExponent (x : Binary64) : Int :=
  (x.significand.log2 + 1 + x.exponent) * 30103 / 100000 + 1

/-- The shortest decimal that reads back as `x`; the coarsest grid with a point wins. -/
def shortest (x : Binary64) : Decimal :=
  if x.significand = 0 then
    ⟨x.negative, 0, 0⟩
  else
    let grids := (List.range 20).map fun (i : Nat) => x.topExponent - i
    match grids.findSome? fun k => (x.onGrid? k).map fun d => (d, k) with
    | some (d, k) => ⟨x.negative, d, k⟩
    | none => ⟨x.negative, (x.significand * Nat.pow 5 (-x.exponent).toNat) <<< x.exponent.toNat,
        min 0 x.exponent⟩

/-- How decimals are laid out: where positional form begins and ends. -/
structure Layout where
  leastPositional : Int
  mostPositional : Int

/-- Positional from `0.00001` up to sixteen digits before the point. -/
def jsonLayout : Layout :=
  ⟨-5, 15⟩

/-- Positional form; a whole number keeps `.0`. -/
def positional (ds : List Char) (k : Int) : List Char :=
  let point : Int := ds.length + k
  if 0 ≤ k then
    ds ++ List.replicate k.toNat '0' ++ ['.', '0']
  else if 0 < point then
    ds.take point.toNat ++ ['.'] ++ ds.drop point.toNat
  else
    ['0', '.'] ++ List.replicate (-point).toNat '0' ++ ds

/-- One digit before the point, the others after it, and an exponent with its sign. -/
def scientific (ds : List Char) (x : Int) : List Char :=
  let fraction := if ds.length ≤ 1 then [] else '.' :: ds.drop 1
  ds.take 1 ++ fraction ++ ['e', if x < 0 then '-' else '+'] ++ Nat.toDigits 10 x.natAbs

def text (x : Binary64) : List Char :=
  let d := x.shortest
  let ds := Nat.toDigits 10 d.digits
  let magnitude := ds.length - 1 + d.exponent
  (if x.negative then ['-'] else []) ++
    if jsonLayout.leastPositional ≤ magnitude ∧ magnitude ≤ jsonLayout.mostPositional then
      positional ds d.exponent
    else
      scientific ds magnitude

end Binary64

end Runbook
