import MockHttp.Json.Literal
/-!
# Numbers

An integer that fits a 64-bit word stays exact.  Any other number is a double: as many leading
digits as fit a word, rounded, and then multiplied or divided by a rounded power of ten.
-/

namespace MockHttp.Json

inductive Number where
  | natural (value : Nat)
  | belowZero (magnitude : Nat)
  | fraction (negative : Bool) (value : Binary64)

def Number.found : Number → Found
  | .natural value => .integer value
  | .belowZero magnitude => .integer (-magnitude)
  | .fraction negative value => .fraction negative value

def isDigit (b : UInt8) : Bool :=
  ascii '0' ≤ b ∧ b ≤ ascii '9'

def digitValue (b : UInt8) : Nat :=
  b.toNat - 48

def maxWord : Nat := 18446744073709551615

def maxBelowZero : Nat := 9223372036854775808

/-- The leading digits of an integer that fit a word, and how many do not. -/
def wholePart (digits : Bytes) : Nat × Nat :=
  digits.foldl (fun (value, dropped) d =>
    let next := value * 10 + digitValue d
    if dropped = 0 ∧ next ≤ maxWord then (next, 0) else (value, dropped + 1)) (0, 0)

/-- Goes on with the digits behind the point, and counts those taken before the word is full. -/
def fractionPart (value : Nat) : Bytes → Nat × Nat
  | [] => (value, 0)
  | d :: digits =>
      let next := value * 10 + digitValue d
      if next ≤ maxWord then
        let (value, taken) := fractionPart next digits
        (value, taken + 1)
      else (value, 0)

def powerOfTen (exponent : Nat) : Binary64 :=
  .ofNat (tenTo exponent)

/-- The double for digits and a power of ten; `none` when it is out of range.  Powers beyond
`10 ^ 308` are divided out in two steps, after which nothing but zero is left. -/
def scaleByTen (digits : Nat) (exponent : Int) : Option Binary64 :=
  let value := Binary64.ofNat digits
  let zero := Binary64.ofNat 0
  if digits = 0 then some zero
  else if 308 < exponent then none
  else if 0 ≤ exponent then
    match value.mul (powerOfTen exponent.natAbs) with
    | .infinite => none
    | product => some product
  else if -308 ≤ exponent then some (value.div (powerOfTen exponent.natAbs))
  else if -616 ≤ exponent then
    some ((value.div (powerOfTen 308)).div (powerOfTen (exponent + 308).natAbs))
  else some zero

/-- A number with its power of ten, once all of it is read. -/
def scaledNumber (negative : Bool) (digits : Nat) (exponent : Int) : Reader Number := fun s =>
  match scaleByTen digits exponent with
  | some value => .ok (.fraction negative value, s)
  | none => .error (.before .numberOutOfRange s)

/-- Greatest exponent that is told apart from an unbounded one. -/
def maxExponentValue : Nat := 2147483647

/-- Reads the digits of an exponent; `none` as soon as it exceeds the greatest one. -/
def exponentDigits (value : Nat) : Bytes → Option Nat × Bytes
  | [] => (some value, [])
  | b :: s =>
      if isDigit b then
        let next := value * 10 + digitValue b
        if maxExponentValue < next then (none, s) else exponentDigits next s
      else (some value, b :: s)

/-- What is left behind an optional sign, and whether it was a minus. -/
def signed : Bytes → Bool × Bytes
  | [] => (false, [])
  | b :: s =>
      if b = ascii '+' then (false, s) else if b = ascii '-' then (true, s) else (false, b :: s)

def exponentPart (negative : Bool) (digits : Nat) (exponent : Int) : Reader Number := fun s =>
  let (down, s) := signed s
  match s with
  | [] => .error (.before .endInValue [])
  | b :: rest =>
      if isDigit b then
        match exponentDigits (digitValue b) rest with
        | (some value, rest) =>
            scaledNumber negative digits (if down then exponent - value else exponent + value) rest
        | (none, rest) =>
            if digits ≠ 0 ∧ !down then .error (.before .numberOutOfRange rest)
            else .ok (.fraction negative (.ofNat 0), rest.dropWhile isDigit)
      else .error (.before .badNumber rest)

def isExponentMark (b : UInt8) : Bool :=
  b = ascii 'e' ∨ b = ascii 'E'

def pointPart (negative : Bool) (digits : Nat) (dropped : Nat) : Reader Number := fun s =>
  let places := s.takeWhile isDigit
  let rest := s.dropWhile isDigit
  if places.isEmpty then .error (.at (if rest.isEmpty then .endInValue else .badNumber) rest)
  else
    let (digits, taken) := fractionPart digits places
    let exponent : Int := (dropped : Int) - taken
    match rest with
    | b :: s =>
        if isExponentMark b then exponentPart negative digits exponent s
        else scaledNumber negative digits exponent rest
    | [] => scaledNumber negative digits exponent []

/-- The number whose integer digits are all that is written. -/
def wholeNumber (negative : Bool) (digits dropped : Nat) : Reader Number := fun s =>
  if dropped ≠ 0 then scaledNumber negative digits dropped s
  else if !negative then .ok (.natural digits, s)
  else if digits = 0 ∨ maxBelowZero < digits then .ok (.fraction true (.ofNat digits), s)
  else .ok (.belowZero digits, s)

def behindWhole (negative : Bool) (digits dropped : Nat) : Reader Number
  | [] => wholeNumber negative digits dropped []
  | b :: s =>
      if b = ascii '.' then pointPart negative digits dropped s
      else if isExponentMark b then exponentPart negative digits dropped s
      else wholeNumber negative digits dropped (b :: s)

def startsWithDigit : Bytes → Bool
  | [] => false
  | b :: _ => isDigit b

def number (negative : Bool) : Reader Number
  | [] => .error (.before .endInValue [])
  | b :: s =>
      if b = ascii '0' then
        if startsWithDigit s then .error (.at .badNumber s) else behindWhole negative 0 0 s
      else if isDigit b then
        let (digits, dropped) := wholePart (b :: s.takeWhile isDigit)
        behindWhole negative digits dropped (s.dropWhile isDigit)
      else .error (.before .badNumber s)

def skipExponent (s : Bytes) : Except Fault Bytes :=
  match (signed s).2 with
  | [] => .error (.before .badNumber [])
  | b :: s => if isDigit b then .ok (s.dropWhile isDigit) else .error (.before .badNumber s)

def skipBehindDigits : Bytes → Except Fault Bytes
  | [] => .ok []
  | b :: s => if isExponentMark b then skipExponent s else .ok (b :: s)

def skipBehindWhole : Bytes → Except Fault Bytes
  | [] => .ok []
  | b :: s =>
      if b = ascii '.' then
        let rest := s.dropWhile isDigit
        if startsWithDigit s then skipBehindDigits rest else .error (.at .badNumber rest)
      else skipBehindDigits (b :: s)

def skipNumber : Bytes → Except Fault Bytes
  | [] => .error (.before .badNumber [])
  | b :: s =>
      if b = ascii '0' then
        if startsWithDigit s then .error (.at .badNumber s) else skipBehindWhole s
      else if isDigit b then skipBehindWhole (s.dropWhile isDigit)
      else .error (.before .badNumber s)

end MockHttp.Json
