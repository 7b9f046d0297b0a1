import TurtleArt.Decimal.Binary64

/-! The shortest decimal that reads back as a given binary64 magnitude, and its layout as text. -/

namespace TurtleArt.Decimal

/-- The decimal `0.d₁d₂… · 10 ^ point`, with its digits as characters. -/
structure Digits where
  digits : List Char
  point : Int

namespace Binary64

def gridBelow (num den : Nat) (unit : Int) : Nat :=
  if 0 ≤ unit then num / (den * tenTo unit.toNat) else num * tenTo (-unit).toNat / den

/-- The number of digits before the decimal point of `num / den`; not positive for a number
below one tenth. -/
def decimalOrder (num den : Nat) : Int :=
  let e : Int := ((Nat.toDigits 10 num).length : Int) - (Nat.toDigits 10 den).length
  let reached :=
    if 0 ≤ e then decide (den * tenTo e.toNat ≤ num) else decide (den ≤ num * tenTo (-e).toNat)
  if reached then e + 1 else e

def compareGrid (k : Nat) (unit : Int) (num den : Nat) : Ordering :=
  if 0 ≤ unit then compare (k * tenTo unit.toNat * den) num
  else compare (k * den) (num * tenTo (-unit).toNat)

/-- Whether `k · 10 ^ unit` rounds to `f`. The numbers that do lie within half a gap of `f`, the
ends counting just when the significand is even. Below a power of two the gap is half as wide. -/
def readsBack (f : Binary64) (k : Nat) (unit : Int) : Bool :=
  let even := f.significand % 2 = 0
  let below := if f.significand = leadingBit ∧ minExponent < f.exponent then 1 else 2
  let low := (⟨4 * f.significand - below, f.exponent - 2⟩ : Binary64).ratio
  let high := (⟨4 * f.significand + 2, f.exponent - 2⟩ : Binary64).ratio
  let fromLow := compareGrid k unit low.1 low.2
  let toHigh := compareGrid k unit high.1 high.2
  (fromLow = .gt || (fromLow = .eq && even)) && (toHigh = .lt || (toHigh = .eq && even))

def onGrid? (f : Binary64) (unit : Int) : Option Nat :=
  let (num, den) := f.ratio
  let k := gridBelow num den unit
  match f.readsBack k unit, f.readsBack (k + 1) unit with
  | true, true =>
    match compareGrid (2 * k + 1) unit (2 * num) den with
    | .gt => some k
    | .lt => some (k + 1)
    | .eq => some (if k % 2 = 0 then k else k + 1)
  | true, false => some k
  | false, true => some (k + 1)
  | false, false => none

/-- The decimal of least length that reads back. Seventeen digits always suffice. -/
def shortest (f : Binary64) : Digits :=
  let (num, den) := f.ratio
  let order := decimalOrder num den
  let found := (List.range' 1 17).findSome? fun (n : Nat) =>
    let unit := order - n
    (f.onGrid? unit).map fun k => (k, unit)
  match found with
  | some (k, unit) =>
    let digits := Nat.toDigits 10 k
    ⟨(digits.reverse.dropWhile (· = '0')).reverse, unit + digits.length⟩
  | none => ⟨['0'], 1⟩

end Binary64

/-- Digits as text: positional from `10 ^ -5` to below `10 ^ 16`, always with a point, and else
with a signed exponent. -/
def Digits.text (d : Digits) : List Char :=
  let order := d.point - 1
  if -5 ≤ order ∧ order ≤ 15 then
    if d.point ≤ 0 then
      ['0', '.'] ++ List.replicate (-d.point).toNat '0' ++ d.digits
    else
      let n := d.point.toNat
      let whole := d.digits.take n ++ List.replicate (n - d.digits.length) '0'
      let fraction := d.digits.drop n
      whole ++ ['.'] ++ (if fraction.isEmpty then ['0'] else fraction)
  else
    let fraction := d.digits.drop 1
    d.digits.take 1 ++ (if fraction.isEmpty then [] else '.' :: fraction) ++
      ['e', if order < 0 then '-' else '+'] ++ Nat.toDigits 10 order.natAbs

def text (negative : Bool) (f : Binary64) : List Char :=
  (if negative then ['-'] else []) ++
    if f.significand = 0 then ['0', '.', '0'] else f.shortest.text

end TurtleArt.Decimal
