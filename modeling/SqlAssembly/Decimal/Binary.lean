/-! # Binary floating-point numbers

The interchange formats as bit patterns.  A pattern without its sign is a natural number that grows
with the value it stands for, so rounding a positive ratio is one exact division followed by one
addition: the exponent is placed above the significand, and a significand that rounds up to the next
power of two carries into it.
-/
namespace SqlAssembly.Decimal

/-- A power of a natural or an integer is the core library's, whatever else a module imports. -/
@[default_instance 20000]
instance (priority := 2000) corePower {α : Type} [NatPow α] : Pow α Nat := instPowNat

/-- An interchange format: the number of significant bits, the hidden one included, and the number
of exponent bits. -/
structure Format where
  precision : Nat
  exponentBits : Nat
deriving DecidableEq, Repr

def single : Format := ⟨24, 8⟩

def double : Format := ⟨53, 11⟩

/-- The quotient of two naturals rounded to the nearest, a half going to the even neighbour. -/
def roundDiv (num den : Nat) : Nat :=
  let q := num / den
  let r := num % den
  if 2 * r < den then q else if den < 2 * r then q + 1 else q + q % 2

/-- The largest `k` such that `2 ^ k` is at most the ratio of two positive naturals. -/
def floorLog2 (num den : Nat) : Int :=
  let k : Int := (num.log2 : Int) - (den.log2 : Int)
  if den * 2 ^ k.toNat ≤ num * 2 ^ (-k).toNat then k else k - 1

namespace Format

/-- The exponent of the unit in the last place of the smallest numbers. -/
def leastExponent (f : Format) : Int := 3 - 2 ^ (f.exponentBits - 1) - f.precision

/-- The pattern of infinity: all exponent bits set. -/
def infinity (f : Format) : Nat := (2 ^ f.exponentBits - 1) * 2 ^ (f.precision - 1)

def quietNaN (f : Format) : Nat := f.infinity + 2 ^ (f.precision - 2)

def ofRatio (f : Format) (num den : Nat) : Nat :=
  if num = 0 then 0
  else
    let e := max f.leastExponent (floorLog2 num den - (f.precision - 1))
    let m := roundDiv (num * 2 ^ (-e).toNat) (den * 2 ^ e.toNat)
    min ((e - f.leastExponent).toNat * 2 ^ (f.precision - 1) + m) f.infinity

def decode (f : Format) (pattern : Nat) : Nat × Int :=
  let hidden := 2 ^ (f.precision - 1)
  let field := pattern / hidden
  if field = 0 then (pattern, f.leastExponent)
  else (pattern % hidden + hidden, f.leastExponent + (field - 1 : Nat))

end Format

structure Double where
  bits : UInt64
deriving DecidableEq, Repr, Inhabited

namespace Double

def isNegative (x : Double) : Bool := 2 ^ 63 ≤ x.bits.toNat

def magnitude (x : Double) : Nat := x.bits.toNat % 2 ^ 63

def ofMagnitude (negative : Bool) (pattern : Nat) : Double :=
  ⟨UInt64.ofNat ((if negative then 2 ^ 63 else 0) + pattern)⟩

def isNaN (x : Double) : Bool := double.infinity < x.magnitude

def isInfinite (x : Double) : Bool := x.magnitude = double.infinity

def ofRatio (negative : Bool) (num den : Nat) : Double :=
  ofMagnitude negative (double.ofRatio num den)

def ofInt (n : Int) : Double := ofRatio (n < 0) n.natAbs 1

def ratio (x : Double) : Nat × Nat :=
  let (m, e) := double.decode x.magnitude
  (m * 2 ^ e.toNat, 2 ^ (-e).toNat)

def mul (x y : Double) : Double :=
  ofRatio (x.isNegative != y.isNegative) (x.ratio.1 * y.ratio.1) (x.ratio.2 * y.ratio.2)

/-- The quotient of two finite numbers, the second not zero. -/
def div (x y : Double) : Double :=
  ofRatio (x.isNegative != y.isNegative) (x.ratio.1 * y.ratio.2) (x.ratio.2 * y.ratio.1)

def neg (x : Double) : Double := ofMagnitude (!x.isNegative) x.magnitude

def toSingle (x : Double) : UInt32 :=
  let pattern :=
    if x.isNaN then single.quietNaN
    else if x.isInfinite then single.infinity
    else single.ofRatio x.ratio.1 x.ratio.2
  UInt32.ofNat ((if x.isNegative then 2 ^ 31 else 0) + pattern)

def ofSinglePattern (negative : Bool) (pattern : Nat) : Double :=
  if single.infinity < pattern then ofMagnitude negative double.quietNaN
  else if pattern = single.infinity then ofMagnitude negative double.infinity
  else
    let (m, e) := single.decode pattern
    ofRatio negative (m * 2 ^ e.toNat) (2 ^ (-e).toNat)

end Double

end SqlAssembly.Decimal
