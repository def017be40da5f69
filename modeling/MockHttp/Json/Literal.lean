import MockHttp.Json.Fault
/-!
# Blanks, words and strings

A string literal is read in two ways: for the text it denotes, which pairs surrogates and wants
valid UTF-8, or only up to its closing quote, which asks no more than well-formed escapes.
-/

namespace MockHttp.Json

@[inline] def ascii (c : Char) : UInt8 :=
  UInt8.ofNat c.toNat

/-- Space, tab, carriage return and line feed. -/
def isBlank (b : UInt8) : Bool :=
  b = 32 ∨ b = 9 ∨ b = 13 ∨ b = 10

def skipBlank (s : Bytes) : Bytes :=
  s.dropWhile isBlank

def word : List Char → Bytes → Except Fault Bytes
  | [], s => .ok s
  | _ :: _, [] => .error (.before .endInValue [])
  | c :: cs, b :: s => if b = ascii c then word cs s else .error (.before .badIdent s)

def hexDigit? (b : UInt8) : Option Nat :=
  if ascii '0' ≤ b ∧ b ≤ ascii '9' then some (b.toNat - 48)
  else if ascii 'a' ≤ b ∧ b ≤ ascii 'f' then some (b.toNat - 87)
  else if ascii 'A' ≤ b ∧ b ≤ ascii 'F' then some (b.toNat - 55)
  else none

def hexUnit : Reader Nat
  | a :: b :: c :: d :: s =>
      match hexDigit? a, hexDigit? b, hexDigit? c, hexDigit? d with
      | some a, some b, some c, some d => .ok (((a * 16 + b) * 16 + c) * 16 + d, s)
      | _, _, _, _ => .error (.before .badEscape s)
  | _ => .error (.before .endInString [])

def shortEscape? (b : UInt8) : Option UInt8 :=
  if b = ascii '"' ∨ b = ascii '\\' ∨ b = ascii '/' then some b
  else if b = ascii 'b' then some 8
  else if b = ascii 'f' then some 12
  else if b = ascii 'n' then some 10
  else if b = ascii 'r' then some 13
  else if b = ascii 't' then some 9
  else none

def isHighSurrogate (unit : Nat) : Bool :=
  0xD800 ≤ unit ∧ unit ≤ 0xDBFF

def isLowSurrogate (unit : Nat) : Bool :=
  0xDC00 ≤ unit ∧ unit ≤ 0xDFFF

def encodePoint (code : Nat) : Bytes :=
  String.utf8EncodeChar (Char.ofNat code)

/-- Reads the second half of a surrogate pair, from its backslash on. -/
def lowSurrogate : Reader Nat
  | [] => .error (.before .endInString [])
  | b :: s =>
      if b ≠ ascii '\\' then .error (.before .unfinishedSurrogate s)
      else
        match s with
        | [] => .error (.before .endInString [])
        | u :: s =>
            if u ≠ ascii 'u' then .error (.before .unfinishedSurrogate s)
            else do
              let (unit, s) ← hexUnit s
              if isLowSurrogate unit then return (unit, s)
              else throw (.before .loneSurrogate s)

/-- Reads an escape behind its backslash, for the bytes it denotes. -/
def escape : Reader Bytes
  | [] => .error (.before .endInString [])
  | e :: s =>
      match shortEscape? e with
      | some b => .ok ([b], s)
      | none =>
          if e ≠ ascii 'u' then .error (.before .badEscape s)
          else do
            let (unit, s) ← hexUnit s
            if isLowSurrogate unit then throw (.before .loneSurrogate s)
            else if isHighSurrogate unit then do
              let (low, s) ← lowSurrogate s
              return (encodePoint ((unit - 0xD800) * 0x400 + (low - 0xDC00) + 0x10000), s)
            else return (encodePoint unit, s)

/-- Reads the pieces of a string, up to and with its closing quote, for the bytes it denotes.  There
are at most as many of them as the first list has bytes, which is not looked at otherwise. -/
def content : Bytes → Reader Bytes
  | [], s => .error (.before .endInString s)
  | _ :: _, [] => .error (.before .endInString [])
  | _ :: left, b :: s =>
      if b = ascii '"' then .ok ([], s)
      else if b = ascii '\\' then do
        let (denoted, s) ← escape s
        let (others, s) ← content left s
        return (denoted ++ others, s)
      else if b < 32 then .error (.before .controlCharacter s)
      else do
        let (others, s) ← content left s
        return (b :: others, s)

/-- Reads a string behind its opening quote.  Malformed UTF-8 is placed as far before the end as
there are denoted bytes from it on. -/
def string (s : Bytes) : Except Fault (String × Bytes) := do
  let (denoted, rest) ← content s s
  match Text.ofBytes? denoted with
  | some text => return (text, rest)
  | none =>
      throw ⟨.badCodePoint, rest.length + (denoted.length - Text.validLength denoted)⟩

def skipEscape : Bytes → Except Fault Bytes
  | [] => .error (.before .endInString [])
  | e :: s =>
      if (shortEscape? e).isSome then .ok s
      else if e = ascii 'u' then do
        let (_, s) ← hexUnit s
        return s
      else .error (.before .badEscape s)

def skipContent : Bytes → Bytes → Except Fault Bytes
  | [], s => .error (.before .endInString s)
  | _ :: _, [] => .error (.before .endInString [])
  | _ :: left, b :: s =>
      if b = ascii '"' then .ok s
      else if b = ascii '\\' then do
        let s ← skipEscape s
        skipContent left s
      else if b < 32 then .error (.before .controlCharacter (b :: s))
      else skipContent left s

def skipString (s : Bytes) : Except Fault Bytes :=
  skipContent s s

end MockHttp.Json
