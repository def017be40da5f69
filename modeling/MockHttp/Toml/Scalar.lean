import MockHttp.Number.Binary64
import MockHttp.Text.Digits
import MockHttp.Toml.Item
/-!
# Booleans, numbers and dates

A scalar other than a string is a run of letters, digits and a few marks, and its form alone says
what it is.
-/

namespace MockHttp.Toml

open Text (digit? mark ofDigits)

def isScalarChar (c : Char) : Bool :=
  c.isAlphanum || c = '+' || c = '-' || c = '.' || c = ':' || c = '_'

/-- Digits with single underscores between them. -/
def digitRun? (base : Nat) : List Char → Option (List Nat)
  | [] => none
  | [c] => (digit? base c).map fun d => [d]
  | c :: '_' :: rest => do some ((← digit? base c) :: (← digitRun? base rest))
  | c :: rest => do some ((← digit? base c) :: (← digitRun? base rest))

/-- A text without its sign, and whether that was a minus. -/
def unsigned : List Char → Bool × List Char
  | '+' :: rest => (false, rest)
  | '-' :: rest => (true, rest)
  | s => (false, s)

def maxInteger : Nat := 9223372036854775807

def integer? (negative : Bool) (magnitude : Nat) : Option Item :=
  if negative then if magnitude ≤ maxInteger + 1 then some (.integer (-magnitude)) else none
  else if magnitude ≤ maxInteger then some (.integer magnitude) else none

/-- Whether a decimal `digits * 10 ^ exponent` is too large for a double. -/
def overflows (digits : Nat) (exponent : Int) : Bool :=
  let places : Int := (Nat.toDigits 10 digits).length + exponent
  if digits = 0 ∨ places < 300 then false
  else if 310 < places then true
  else
    let (num, den) := timesPower tenTo exponent digits 1
    Binary64.ofRatio num den = .infinite

/-- A fraction; a positive one may not overflow. -/
def fraction? (negative : Bool) (digits : Nat) (exponent : Int) : Option Item :=
  if !negative && overflows digits exponent then none else some .fraction

def isRunChar (c : Char) : Bool :=
  c.isDigit || c = '_'

def exponent? (s : List Char) : Option Int := do
  let (negative, digits) := unsigned s
  let value := ofDigits 10 (← digitRun? 10 digits)
  some (if negative then -value else value)

def decimal? (s : List Char) : Option Item := do
  let (negative, s) := unsigned s
  let whole ← digitRun? 10 (s.takeWhile isRunChar)
  if whole.head? = some 0 ∧ 1 < whole.length then none
  else
    match s.dropWhile isRunChar with
    | [] => integer? negative (ofDigits 10 whole)
    | '.' :: rest => do
        let places ← digitRun? 10 (rest.takeWhile isRunChar)
        let exponent ← match rest.dropWhile isRunChar with
          | [] => some 0
          | mark :: rest => if mark = 'e' ∨ mark = 'E' then exponent? rest else none
        fraction? negative (ofDigits 10 (whole ++ places)) (exponent - places.length)
    | mark :: rest =>
        if mark = 'e' ∨ mark = 'E' then do
          fraction? negative (ofDigits 10 whole) (← exponent? rest)
        else none

/-- A number: to the base sixteen, eight or two behind its mark, and else to the base ten, infinite
or none at all. -/
def number? (s : List Char) : Option Item :=
  match s with
  | '0' :: 'x' :: rest => (digitRun? 16 rest).bind fun ds => integer? false (ofDigits 16 ds)
  | '0' :: 'o' :: rest => (digitRun? 8 rest).bind fun ds => integer? false (ofDigits 8 ds)
  | '0' :: 'b' :: rest => (digitRun? 2 rest).bind fun ds => integer? false (ofDigits 2 ds)
  | _ =>
      if [['i', 'n', 'f'], ['n', 'a', 'n']].contains (unsigned s).2 then some .fraction
      else decimal? s

def fixed (length : Nat) (s : List Char) : Option (Nat × List Char) := do
  let digits ← (s.take length).mapM (digit? 10)
  if digits.length = length then some (ofDigits 10 digits, s.drop length) else none

def twoDigits (low high : Nat) (s : List Char) : Option (Nat × List Char) := do
  let (value, rest) ← fixed 2 s
  if low ≤ value ∧ value ≤ high then some (value, rest) else none

def daysOf (year month : Nat) : Nat :=
  if month = 2 then
    if year % 4 = 0 ∧ (year % 100 ≠ 0 ∨ year % 400 = 0) then 29 else 28
  else if [4, 6, 9, 11].contains month then 30 else 31

def date (s : List Char) : Option (List Char) := do
  let (year, s) ← fixed 4 s
  let (month, s) ← twoDigits 1 12 (← mark '-' s)
  let (_, s) ← twoDigits 1 (daysOf year month) (← mark '-' s)
  some s

def time (s : List Char) : Option (List Char) := do
  let (_, s) ← twoDigits 0 23 s
  let (_, s) ← twoDigits 0 59 (← mark ':' s)
  let (_, s) ← twoDigits 0 60 (← mark ':' s)
  match s with
  | '.' :: rest =>
      if (rest.takeWhile Char.isDigit).isEmpty then none else some (rest.dropWhile Char.isDigit)
  | _ => some s

/-- Whether a text is the rest of a time: nothing, or its distance from universal time. -/
def isOffset : List Char → Bool
  | [] => true
  | ['Z'] => true
  | ['z'] => true
  | sign :: rest =>
      (sign = '+' || sign = '-') &&
        (do
          let (_, s) ← twoDigits 0 23 rest
          let (_, s) ← twoDigits 0 59 (← mark ':' s)
          some s) = some []

def isOffsetTime (s : List Char) : Bool :=
  ((time s).map isOffset).getD false

def isMoment (s : List Char) : Bool :=
  time s = some [] ||
    match date s with
    | none => false
    | some [] => true
    | some (separator :: rest) => (separator = 'T' || separator = 't') && isOffsetTime rest

def scalar? (s : List Char) : Option Item :=
  if s = ['t', 'r', 'u', 'e'] then some (.boolean true)
  else if s = ['f', 'a', 'l', 's', 'e'] then some (.boolean false)
  else if isMoment s then some .moment
  else number? s

/-- Reads a scalar that is not a string.  A date may be followed by a space and a time. -/
def scalar (s : List Char) : Option (Item × List Char) :=
  let first := s.takeWhile isScalarChar
  let rest := s.dropWhile isScalarChar
  match date first, rest with
  | some [], ' ' :: behind =>
      let second := behind.takeWhile isScalarChar
      if isOffsetTime second then some (.moment, behind.dropWhile isScalarChar)
      else some (.moment, rest)
  | _, _ => (scalar? first).map fun item => (item, rest)

end MockHttp.Toml
