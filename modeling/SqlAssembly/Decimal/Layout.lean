import SqlAssembly.Decimal.Shortest

/-! # The layout of a decimal

How a chosen decimal is laid out in text: positionally, or with one digit before the point and an
exponent.  A `Style` holds every decision a format makes.
-/
namespace SqlAssembly.Decimal

structure Style where
  /-- Which neighbour a tie takes. -/
  tie : Tie
  /-- The positions of the point, counted from the first digit, that are written positionally;
  none restricts nothing. -/
  positional : Option (Int × Int) := none
  /-- Whether a whole number keeps `.0`. -/
  keepsPoint : Bool
  /-- The sign of an exponent that is not negative. -/
  plus : String := ""
  infinite : String := "inf"
  notANumber : String := "NaN"

/-- The digits with the point at `point`, zeros filling what they leave open. -/
def positional (keepsPoint : Bool) (digits : List Char) (point : Int) : List Char :=
  if point ≤ 0 then '0' :: '.' :: (List.replicate (-point).toNat '0' ++ digits)
  else
    let whole := digits.take point.toNat
    let fraction := digits.drop point.toNat
    whole ++ List.replicate (point.toNat - whole.length) '0' ++
      if fraction = [] then (if keepsPoint then ['.', '0'] else []) else '.' :: fraction

/-- The digits with the point after the first, and the exponent that moves it to `point`. -/
def scientific (plus : String) (digits : List Char) (point : Int) : List Char :=
  let fraction := digits.drop 1
  let exponent := point - 1
  digits.take 1 ++ (if fraction = [] then [] else '.' :: fraction) ++ 'e' ::
    ((if exponent < 0 then "" else plus) ++ toString exponent).toList

def Double.toText (style : Style) (x : Double) : String :=
  let sign := if x.isNegative then "-" else ""
  if x.isNaN then style.notANumber
  else if x.isInfinite then sign ++ style.infinite
  else
    let decimal := x.shortest style.tie
    let digits := (Nat.repr decimal.digits).toList
    let point := digits.length + decimal.exponent
    let isPositional := match style.positional with
      | none => true
      | some (least, greatest) => least ≤ point ∧ point ≤ greatest
    sign ++ String.ofList
      (if isPositional then positional style.keepsPoint digits point
        else scientific style.plus digits point)

end SqlAssembly.Decimal
