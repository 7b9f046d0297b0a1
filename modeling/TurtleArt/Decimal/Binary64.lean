/-! Magnitudes of the finite numbers of the binary64 format, `significand · 2 ^ exponent`, with
exact arithmetic rounded to the nearest of them, ties to the even significand. -/

namespace TurtleArt.Decimal

structure Binary64 where
  significand : Nat
  exponent : Int
  deriving DecidableEq

def tenTo (k : Nat) : Nat :=
  Nat.pow 10 k

namespace Binary64

def leadingBit : Nat := 0x10000000000000

def minExponent : Int := -1074

def maxExponent : Int := 971

def ratio (f : Binary64) : Nat × Nat :=
  if 0 ≤ f.exponent then
    (f.significand <<< f.exponent.toNat, 1)
  else
    (f.significand, 1 <<< (-f.exponent).toNat)

/-- The quotient `num / (den · 2 ^ q)`, as numerator and denominator. -/
def descale (num den : Nat) (q : Int) : Nat × Nat :=
  if 0 ≤ q then (num, den <<< q.toNat) else (num <<< (-q).toNat, den)

/-- The exponent of the greatest power of two that is at most `num / den`. -/
def binaryOrder (num den : Nat) : Int :=
  let e : Int := (num.log2 : Int) - den.log2
  let (n, d) := descale num den e
  if d ≤ n then e else e - 1

def roundHalfEven (num den : Nat) : Nat :=
  let quotient := num / den
  let twice := 2 * (num % den)
  if twice > den ∨ (twice = den ∧ quotient % 2 = 1) then quotient + 1 else quotient

/-- The magnitude nearest to `num / den`, unless that lies beyond the greatest one. -/
def ofRatio? (num den : Nat) : Option Binary64 :=
  if num = 0 then some ⟨0, 0⟩
  else
    let q := max minExponent (binaryOrder num den - 52)
    let (n, d) := descale num den q
    let m := roundHalfEven n d
    let f : Binary64 := if m = 2 * leadingBit then ⟨leadingBit, q + 1⟩ else ⟨m, q⟩
    if f.exponent ≤ maxExponent then some f else none

def mul? (f g : Binary64) : Option Binary64 :=
  ofRatio? (f.ratio.1 * g.ratio.1) (f.ratio.2 * g.ratio.2)

def div? (f g : Binary64) : Option Binary64 :=
  ofRatio? (f.ratio.1 * g.ratio.2) (f.ratio.2 * g.ratio.1)

/-- Multiplies by `10 ^ e`, itself rounded, in steps that stay within the exponents for which
that power is finite. A magnitude that is not zero overflows when `e` is beyond them. -/
def scale? (f : Binary64) (e : Int) : Option Binary64 :=
  if e.natAbs ≤ 308 then do
    let power ← ofRatio? (tenTo e.natAbs) 1
    if 0 ≤ e then f.mul? power else f.div? power
  else if f.significand = 0 then some f
  else if 0 ≤ e then none
  else do
    let power ← ofRatio? (tenTo 308) 1
    let f ← f.div? power
    f.scale? (e + 308)
termination_by e.natAbs
decreasing_by omega

end Binary64
end TurtleArt.Decimal
