import SqlAssembly.Decimal.Binary

/-! # Decimal numerals

The parts of a written decimal, and the binary number nearest to it.  A numeral needs one digit on
either side of the point; the point, the exponent and the signs may be left out.
-/
namespace SqlAssembly.Decimal

def digitsValue (cs : List Char) : Nat := Nat.ofDigitChars 10 cs 0

structure Numeral where
  whole : List Char
  /-- The digits after the point; none without a point. -/
  fraction : Option (List Char) := none
  /-- The written exponent; none without a mark. -/
  exponent : Option Int := none
deriving DecidableEq, Repr

namespace Numeral

/-- An integer with an optional sign, over the whole text. -/
def exponentValue? (cs : List Char) : Option Int :=
  let (sign, digits) : Int × List Char := match cs with
    | '-' :: ds => (-1, ds)
    | '+' :: ds => (1, ds)
    | ds => (1, ds)
  if digits ≠ [] ∧ digits.all Char.isDigit then some (sign * digitsValue digits) else none

/-- The numeral completed by what follows its digits: nothing, or a mark and an exponent. -/
def withExponent? (n : Numeral) : List Char → Option Numeral
  | [] => some n
  | c :: cs =>
    if c = 'e' ∨ c = 'E' then (exponentValue? cs).map fun e => { n with exponent := some e }
    else none

def ofChars? (cs : List Char) : Option Numeral :=
  let whole := cs.takeWhile Char.isDigit
  match cs.dropWhile Char.isDigit with
  | '.' :: rest =>
    withExponent? { whole, fraction := some (rest.takeWhile Char.isDigit) }
      (rest.dropWhile Char.isDigit)
  | rest => withExponent? { whole } rest

def digits (n : Numeral) : List Char := n.whole ++ n.fraction.getD []

def scale (n : Numeral) : Int := n.exponent.getD 0 - (n.fraction.getD []).length

end Numeral

/-- The pattern nearest to `value · 10 ^ scale`.  Beyond four hundred places on either side every
format has reached infinity or zero, so no power of that size is formed. -/
def Format.ofScaled (f : Format) (value : Nat) (scale : Int) : Nat :=
  let point := (Nat.repr value).length + scale
  if value = 0 ∨ point < -400 then 0
  else if 400 < point then f.infinity
  else f.ofRatio (value * 10 ^ scale.toNat) (10 ^ (-scale).toNat)

def signed (cs : List Char) : Bool × List Char :=
  match cs with
  | '-' :: rest => (true, rest)
  | '+' :: rest => (false, rest)
  | rest => (false, rest)

/-- The sign and pattern that a text writes: a numeral, or infinity or NaN in any letter case. -/
def Format.read? (f : Format) (text : String) : Option (Bool × Nat) :=
  let (negative, body) := signed text.toList
  match Numeral.ofChars? body with
  | some n =>
    if n.digits = [] then none else some (negative, f.ofScaled (digitsValue n.digits) n.scale)
  | none =>
    let word := String.ofList (body.map Char.toLower)
    if word = "inf" ∨ word = "infinity" then some (negative, f.infinity)
    else if word = "nan" then some (negative, f.quietNaN)
    else none

def Double.read? (text : String) : Option Double :=
  (double.read? text).map fun (negative, pattern) => Double.ofMagnitude negative pattern

def Double.readSingle? (text : String) : Option Double :=
  (single.read? text).map fun (negative, pattern) => Double.ofSinglePattern negative pattern

end SqlAssembly.Decimal
