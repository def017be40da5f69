import MockHttp.Json.Number
/-!
# Passing over a value

A value that nothing is made of is checked for its form alone, however deep it nests: the open
brackets are kept on a list.  The raw text of a value is what was passed over.
-/

namespace MockHttp.Json

inductive Bracket where
  | list
  | object
  deriving DecidableEq

def Bracket.atEnd : Bracket → Cause
  | .list => .endInList
  | .object => .endInObject

/-- The fault of something else where a comma or the end of a bracket is wanted. -/
def Bracket.noComma : Bracket → Cause
  | .list => .noCommaInList
  | .object => .noCommaInObject

def Bracket.closing : Bracket → UInt8
  | .list => ascii ']'
  | .object => ascii '\x7d'

/-- Passes over a key and its colon, if members are what the bracket holds. -/
def skipKey (bracket : Bracket) (s : Bytes) : Except Fault Bytes :=
  match bracket with
  | .list => .ok s
  | .object =>
      match skipBlank s with
      | [] => .error (.at .endInObject [])
      | b :: s =>
          if b ≠ ascii '"' then .error (.at .keyNotString (b :: s))
          else do
            let s ← skipString s
            match skipBlank s with
            | [] => throw (.at .endInObject [])
            | b :: s => if b = ascii ':' then return s else throw (.at .noColon (b :: s))

def skipScalar : Bytes → Except Fault Bytes
  | [] => .error (.at .endInValue [])
  | b :: s =>
      if b = ascii 'n' then word ['u', 'l', 'l'] s
      else if b = ascii 't' then word ['r', 'u', 'e'] s
      else if b = ascii 'f' then word ['a', 'l', 's', 'e'] s
      else if b = ascii '-' then skipNumber s
      else if isDigit b then skipNumber (b :: s)
      else if b = ascii '"' then skipString s
      else .error (.at .noValue (b :: s))

def opened? (b : UInt8) : Option Bracket :=
  if b = ascii '[' then some .list
  else if b = ascii '\x7b' then some .object
  else none

mutual

/-- Passes over a value and then over what the open brackets still hold. -/
def skipValue : Nat → List Bracket → Bytes → Except Fault Bytes
  | 0, _, s => .error (.at .endInValue s)
  | steps + 1, brackets, s =>
      match skipBlank s with
      | [] => .error (.at .endInValue [])
      | b :: s =>
          match opened? b with
          | none => do
              let s ← skipScalar (b :: s)
              skipBehindValue steps brackets s
          | some bracket =>
              match skipBlank s with
              | [] => .error (.at bracket.atEnd [])
              | b :: s =>
                  if b = bracket.closing then skipBehindValue steps brackets s
                  else do
                    let s ← skipKey bracket (b :: s)
                    skipValue steps (bracket :: brackets) s

/-- Passes over what the open brackets still hold behind a value. -/
def skipBehindValue : Nat → List Bracket → Bytes → Except Fault Bytes
  | _, [], s => .ok s
  | 0, _ :: _, s => .error (.at .endInValue s)
  | steps + 1, bracket :: brackets, s =>
      match skipBlank s with
      | [] => .error (.at bracket.atEnd [])
      | b :: s =>
          if b = ascii ',' then do
            let s ← skipKey bracket s
            skipValue steps (bracket :: brackets) s
          else if b = bracket.closing then skipBehindValue steps brackets s
          else .error (.at bracket.noComma (b :: s))

end

/-- Passes over one value.  Every step but the last takes at least a byte. -/
def skip (s : Bytes) : Except Fault Bytes :=
  skipValue (s.length + 1) [] s

/-- Reads the raw text of one value, which has to be valid UTF-8; the place of a byte that is not
is just behind it. -/
def raw : Reader Bytes := fun s => do
  let s := skipBlank s
  let rest ← skip s
  let taken := s.take (s.length - rest.length)
  let valid := Text.validLength taken
  if valid = taken.length then return (taken, rest)
  else throw ⟨.badCodePoint, s.length - (valid + 1)⟩

end MockHttp.Json
