import TurtleArt.Decimal.Binary64

/-! Number literals and their values. An integer that fits in 64 bits is one; every other
literal stands for a binary64 number, if there is one near it. -/

namespace TurtleArt.Json

/-- A number literal, digit by digit. A fraction without digits is no fraction. -/
structure Numeral where
  negative : Bool
  whole : List Nat
  fraction : List Nat := []
  exponent : Option (Bool × List Nat) := none
  deriving DecidableEq

inductive Number
  | integer (i : Int)
  | floating (negative : Bool) (magnitude : Decimal.Binary64)
  deriving DecidableEq

namespace Numeral

def digitsOf (n : Nat) : List Nat :=
  (Nat.toDigits 10 n).map fun c => c.toNat - '0'.toNat

def ofInt (i : Int) : Numeral where
  negative := i < 0
  whole := digitsOf i.natAbs

def significandLimit : Nat := 0x10000000000000000

/-- Appends digits to a significand for as long as it fits in 64 bits, and returns the digits
left over. -/
def gather (significand : Nat) : List Nat → Nat × List Nat
  | [] => (significand, [])
  | d :: rest =>
    if significand * 10 + d < significandLimit then gather (significand * 10 + d) rest
    else (significand, d :: rest)

def exponentLimit : Nat := 0x7fffffff

def clamp (e : Int) : Int :=
  max (-(exponentLimit + 1 : Nat)) (min exponentLimit e)

def magnitude? (significand : Nat) (shift : Int) :
    Option (Bool × List Nat) → Option Decimal.Binary64
  | none => scaled shift
  | some (negative, digits) =>
    let e := digits.foldl (fun e d => e * 10 + d) 0
    if exponentLimit < e then
      if significand = 0 ∨ negative then some ⟨0, 0⟩ else none
    else scaled (clamp (if negative then shift - e else shift + e))
where
  scaled (e : Int) : Option Decimal.Binary64 := do
    let f ← Decimal.Binary64.ofRatio? significand 1
    f.scale? e

/-- The value of a literal; `none` if it is beyond the greatest binary64 number. Whole digits
that do not fit the significand count as powers of ten, digits of the fraction that do not fit
are dropped. -/
def number? (n : Numeral) : Option Number :=
  let (significand, overflow) := gather 0 n.whole
  if n.fraction = [] ∧ n.exponent = none ∧ overflow = [] then
    if !n.negative then some (.integer significand)
    else if 0 < significand ∧ 2 * significand ≤ significandLimit then some (.integer (-significand))
    else (Decimal.Binary64.ofRatio? significand 1).map (.floating true)
  else
    let (significand, dropped) := gather significand n.fraction
    let shift : Int := (overflow.length : Int) - (n.fraction.length - dropped.length)
    (magnitude? significand shift n.exponent).map (.floating n.negative)

end Numeral
end TurtleArt.Json
