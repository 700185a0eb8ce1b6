import SqlAssembly.Decimal.Binary

/-! # The shortest decimal that reads back

A finite binary number stands for every real that rounds to it.  Among the decimals of that interval
the one with the fewest digits is chosen, and among those the one nearest to the number itself.  The
search goes through the grids of multiples of a power of ten, coarsest first, and on each grid tries
the two neighbours of the number; all comparisons are between naturals.
-/
namespace SqlAssembly.Decimal

structure Scaled where
  digits : Nat
  exponent : Int
deriving DecidableEq, Repr

inductive Tie where
  | upward
  | toEven
deriving DecidableEq, Repr

/-- The reals that round to a binary number, and the number among them, over one denominator. -/
structure Interval where
  low : Nat
  value : Nat
  high : Nat
  den : Nat
  closed : Bool
deriving DecidableEq, Repr

namespace Interval

/-- The interval of the number `significand · 2 ^ exponent` of a format.  Below a power of two the
numbers lie twice as dense, except at the bottom of the format. -/
def around (f : Format) (significand : Nat) (exponent : Int) : Interval :=
  let e := exponent - 2
  let up := 2 ^ e.toNat
  let narrow := significand = 2 ^ (f.precision - 1) ∧ f.leastExponent < exponent
  { low := (4 * significand - if narrow then 1 else 2) * up
    value := 4 * significand * up
    high := (4 * significand + 2) * up
    den := 2 ^ (-e).toNat
    closed := significand % 2 = 0 }

def contains (i : Interval) (n : Nat) (k : Int) : Bool :=
  let point := n * 10 ^ k.toNat * i.den
  let down := 10 ^ (-k).toNat
  if i.closed then i.low * down ≤ point ∧ point ≤ i.high * down
  else i.low * down < point ∧ point < i.high * down

/-- The chosen multiple of `10 ^ k` in the interval, if a neighbour of the value lies in it. -/
def onGrid (i : Interval) (tie : Tie) (k : Int) : Option Scaled :=
  let unit := 10 ^ k.toNat * i.den
  let scaled := i.value * 10 ^ (-k).toNat
  let below := scaled / unit
  let half := 2 * (scaled % unit)
  match i.contains below k, i.contains (below + 1) k with
  | false, false => none
  | true, false => some ⟨below, k⟩
  | false, true => some ⟨below + 1, k⟩
  | true, true =>
    if half < unit then some ⟨below, k⟩
    else if unit < half then some ⟨below + 1, k⟩
    else match tie with
      | .upward => some ⟨below + 1, k⟩
      | .toEven => some ⟨below + below % 2, k⟩

/-- The first grid tried: its unit exceeds the value. -/
def coarsest (i : Interval) : Int :=
  ((Nat.repr i.value).length : Int) - ((Nat.repr i.den).length : Int) + 1

/-- The shortest decimal of the interval.  Two grids hold nothing at most before the leading digit,
and seventeen digits single out a number of eight bytes. -/
def shortest (i : Interval) (tie : Tie) : Scaled :=
  ((List.range 20).findSome? fun (n : Nat) => i.onGrid tie (i.coarsest - n)).getD ⟨i.value, 0⟩

end Interval

def Double.shortest (x : Double) (tie : Tie) : Scaled :=
  if x.magnitude = 0 then ⟨0, 0⟩
  else
    let (m, e) := double.decode x.magnitude
    (Interval.around double m e).shortest tie

end SqlAssembly.Decimal
