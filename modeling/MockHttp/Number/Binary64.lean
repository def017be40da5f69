/-!
# Non-negative double-precision numbers

A double as an integer significand below `2 ^ 53` times a power of two, with every operation
carried out exactly and then rounded to the nearest double, a tie going to the even significand.
-/

namespace MockHttp

def twoTo (exponent : Nat) : Nat :=
  Nat.pow 2 exponent

def tenTo (exponent : Nat) : Nat :=
  Nat.pow 10 exponent

/-- A fraction, as numerator and denominator, times a power with any exponent. -/
def timesPower (power : Nat → Nat) (exponent : Int) (num den : Nat) : Nat × Nat :=
  if exponent < 0 then (num, den * power exponent.natAbs) else (num * power exponent.natAbs, den)

/-- A non-negative double. -/
inductive Binary64 where
  | finite (significand : Nat) (exponent : Int)
  | infinite
  deriving DecidableEq, Repr

namespace Binary64

def minExponent : Int := -1074

def maxExponent : Int := 971

/-- A quotient rounded to the nearest integer, a half to the even one. -/
def roundDiv (num den : Nat) : Nat :=
  let q := num / den
  let twice := 2 * (num % den)
  if twice < den then q
  else if den < twice then q + 1
  else if q % 2 = 0 then q else q + 1

/-- The double nearest to a fraction. -/
def ofRatio (num den : Nat) : Binary64 :=
  if num = 0 then .finite 0 minExponent
  else
    let magnitude : Int := (num.log2 : Int) - den.log2
    let coarse := max (magnitude - 53) minExponent
    let (n, d) := timesPower twoTo (-coarse) num den
    let exponent := if twoTo 53 ≤ n / d then coarse + 1 else coarse
    let (n, d) := timesPower twoTo (-exponent) num den
    let m := roundDiv n d
    let (m, exponent) := if m = twoTo 53 then (twoTo 52, exponent + 1) else (m, exponent)
    if maxExponent < exponent then .infinite else .finite m exponent

def ofNat (n : Nat) : Binary64 :=
  ofRatio n 1

/-- The exact value of a finite double, as numerator and denominator. -/
def ratio (significand : Nat) (exponent : Int) : Nat × Nat :=
  timesPower twoTo exponent significand 1

def mul : Binary64 → Binary64 → Binary64
  | .finite m e, .finite m' e' =>
      let (n, d) := ratio m e
      let (n', d') := ratio m' e'
      ofRatio (n * n') (d * d')
  | _, _ => .infinite

/-- Rounded quotient by a number other than zero. -/
def div : Binary64 → Binary64 → Binary64
  | .finite m e, .finite m' e' =>
      let (n, d) := ratio m e
      let (n', d') := ratio m' e'
      ofRatio (n * d') (d * n')
  | .infinite, _ => .infinite
  | .finite _ _, .infinite => .finite 0 minExponent

end Binary64

end MockHttp
