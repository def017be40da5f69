import MockHttp.Number.Binary64
/-!
# Shortest decimal text of a double

The fewest digits that read back as the same double, and among those the nearest to it.  They are
written positionally while the leading digit stands between the fifth place after the point and
the sixteenth before it, and with an exponent otherwise.
-/

namespace MockHttp.Binary64

def digitCount (n : Nat) : Nat :=
  (Nat.toDigits 10 n).length

/-- The place `p` of a positive fraction: `10 ^ (p - 1) ≤ num / den < 10 ^ p`. -/
def place (num den : Nat) : Int :=
  let t : Int := (digitCount num : Int) - digitCount den
  let (n, d) := timesPower tenTo (-t) num den
  if d ≤ n then t + 1 else t

/-- Whether the decimal `digits * 10 ^ unit` reads back as the double `significand * 2 ^ exponent`:
whether it lies between the halves of the gaps to the neighbouring doubles, the ends themselves
counting for an even significand. -/
def readsBack (significand : Nat) (exponent : Int) (digits : Nat) (unit : Int) : Bool :=
  let gapBelow := if significand = twoTo 52 ∧ minExponent < exponent then 1 else 2
  let (lowNum, lowDen) := ratio (4 * significand - gapBelow) (exponent - 2)
  let (highNum, highDen) := ratio (4 * significand + 2) (exponent - 2)
  let (num, den) := timesPower tenTo unit digits 1
  if significand % 2 = 0 then lowNum * den ≤ num * lowDen ∧ num * highDen ≤ highNum * den
  else lowNum * den < num * lowDen ∧ num * highDen < highNum * den

/-- The decimal of the given number of digits that reads back, as digits and their unit, if one
of the double's two neighbours on that grid does; of two, the nearer, or the even one. -/
def ofLength? (significand : Nat) (exponent : Int) (length : Nat) : Option (Nat × Int) :=
  let (num, den) := ratio significand exponent
  let unit := place num den - length
  let (n, d) := timesPower tenTo (-unit) num den
  let below := n / d
  let fitsBelow := readsBack significand exponent below unit
  let fitsAbove := readsBack significand exponent (below + 1) unit
  if fitsBelow && fitsAbove then
    some (roundDiv n d, unit)
  else if fitsBelow then some (below, unit)
  else if fitsAbove then some (below + 1, unit)
  else none

/-- The shortest decimal that reads back as a positive double. -/
def shortest (significand : Nat) (exponent : Int) : Nat × Int :=
  ((List.range 17).findSome? fun i => ofLength? significand exponent (i + 1)).getD
    (significand, exponent)

/-- Digits without the zeros at their end, and the unit of the last one that is left. -/
def trimZeros : Nat → Nat → Int → Nat × Int
  | 0, digits, unit => (digits, unit)
  | fuel + 1, digits, unit =>
      if digits % 10 = 0 then trimZeros fuel (digits / 10) (unit + 1) else (digits, unit)

/-- The exponent mark: a sign and at least two digits. -/
def exponentMark (exponent : Int) : List Char :=
  let digits := Nat.toDigits 10 exponent.natAbs
  ['e', if exponent < 0 then '-' else '+'] ++ (if digits.length < 2 then '0' :: digits else digits)

/-- A decimal with digits before and after the point. -/
def layout (digits : List Char) (point : Int) : List Char :=
  if point - 1 < -5 ∨ 15 < point - 1 then
    match digits with
    | [] => []
    | first :: [] => first :: exponentMark (point - 1)
    | first :: others => first :: '.' :: others ++ exponentMark (point - 1)
  else if point ≤ 0 then '0' :: '.' :: List.replicate point.natAbs '0' ++ digits
  else if digits.length ≤ point.natAbs then
    digits ++ List.replicate (point.natAbs - digits.length) '0' ++ ['.', '0']
  else digits.take point.natAbs ++ '.' :: digits.drop point.natAbs

def text (negative : Bool) (value : Binary64) : String :=
  let sign := if negative then ['-'] else []
  match value with
  | .infinite => String.ofList (sign ++ ['i', 'n', 'f'])
  | .finite 0 _ => String.ofList (sign ++ ['0', '.', '0'])
  | .finite m e =>
      let (digits, unit) := shortest m e
      let (digits, unit) := trimZeros 17 digits unit
      let shown := Nat.toDigits 10 digits
      String.ofList (sign ++ layout shown (unit + shown.length))

end MockHttp.Binary64
