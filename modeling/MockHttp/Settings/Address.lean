import MockHttp.Text.Digits
/-!
# Socket addresses

An IPv4 address in four decimal numbers, or an IPv6 address in brackets, and a port.
-/

namespace MockHttp

/-- Where a server listens. -/
inductive Address where
  | v4 (octets : List Nat) (port : Nat)
  | v6 (groups : List Nat) (scope : Nat) (port : Nat)
  deriving DecidableEq

namespace Address

open Text (digit? mark ofDigits)

/-- Reads a part of an address off the front of a text; `none` when it is not there. -/
abbrev Part (α : Type) := List Char → Option (α × List Char)

def digits (base : Nat) (s : List Char) : List Nat × List Char :=
  ((s.takeWhile fun c => (digit? base c).isSome).filterMap (digit? base),
    s.dropWhile fun c => (digit? base c).isSome)

def number (base bound : Nat) : Part Nat := fun s =>
  let (ds, rest) := digits base s
  if ds.isEmpty ∨ bound ≤ ofDigits base ds then none else some (ofDigits base ds, rest)

/-- Reads a number of an IPv4 address: at most three digits, and no leading zero. -/
def octet : Part Nat := fun s =>
  let (ds, _) := digits 10 s
  if 3 < ds.length ∨ (ds.head? = some 0 ∧ 1 < ds.length) then none else number 10 256 s

/-- Reads a group of an IPv6 address: at most four digits. -/
def group : Part Nat := fun s =>
  let (ds, _) := digits 16 s
  if 4 < ds.length then none else number 16 65536 s

def dotted : Part (List Nat) := fun s => do
  let (a, s) ← octet s
  let (b, s) ← octet (← mark '.' s)
  let (c, s) ← octet (← mark '.' s)
  let (d, s) ← octet (← mark '.' s)
  some ([a, b, c, d], s)

/-- The two groups that an IPv4 address at the end of an IPv6 address stands for. -/
def embedded : List Nat → List Nat
  | [a, b, c, d] => [a * 256 + b, c * 256 + d]
  | _ => []

/-- Reads up to so many groups, separated by colons; an IPv4 address may stand for two groups and
ends the run. -/
def groups : Nat → Bool → List Char → List Nat × Bool × List Char
  | 0, _, s => ([], false, s)
  | room + 1, isFirst, s =>
      let start := if isFirst then some s else mark ':' s
      match (if room = 0 then none else start.bind dotted) with
      | some (octets, rest) => (embedded octets, true, rest)
      | none =>
          match start.bind group with
          | none => ([], false, s)
          | some (value, rest) =>
              let (others, dottedEnd, rest) := groups room false rest
              (value :: others, dottedEnd, rest)

/-- Reads the eight groups of an IPv6 address, some of which `::` may stand for. -/
def hextets : Part (List Nat) := fun s =>
  let (head, dottedEnd, rest) := groups 8 true s
  if head.length = 8 then some (head, rest)
  else if dottedEnd then none
  else do
    let rest ← mark ':' (← mark ':' rest)
    let (tail, _, rest) := groups (7 - head.length) true rest
    some (head ++ List.replicate (8 - head.length - tail.length) 0 ++ tail, rest)

def scopeCount : Nat := 4294967296

def scope (s : List Char) : Nat × List Char :=
  match (mark '%' s).bind (number 10 scopeCount) with
  | some (value, rest) => (value, rest)
  | none => (0, s)

def port : Part Nat := fun s => do
  number 10 65536 (← mark ':' s)

def socketV4 : Part Address := fun s => do
  let (octets, s) ← dotted s
  let (port, s) ← port s
  some (.v4 octets port, s)

def socketV6 : Part Address := fun s => do
  let (groups, s) ← hextets (← mark '[' s)
  let (scope, s) := scope s
  let (port, s) ← port (← mark ']' s)
  some (.v6 groups scope port, s)

def parse? (text : String) : Option Address :=
  match socketV4 text.toList <|> socketV6 text.toList with
  | some (address, []) => some address
  | _ => none

def zeroRun (groups : List Nat) : Nat :=
  (groups.takeWhile (· = 0)).length

/-- The first of the longest runs of zeros: where it starts, and its length. -/
def longestZeroRun (groups : List Nat) : Nat × Nat :=
  (List.range groups.length).foldl (fun (start, length) i =>
    let run := zeroRun (groups.drop i)
    if length < run then (i, run) else (start, length)) (0, 0)

def joined (separator : String) (base : Nat) (numbers : List Nat) : String :=
  separator.intercalate (numbers.map fun n => String.ofList (Nat.toDigits base n))

/-- The text of an IPv6 address: lower-case groups, and `::` for the first of the longest runs of
at least two zeros.  An embedded IPv4 address keeps its dots. -/
def hextetText (groups : List Nat) : String :=
  match groups with
  | [0, 0, 0, 0, 0, 0xFFFF, a, b] =>
      "::ffff:" ++ joined "." 10 [a / 256, a % 256, b / 256, b % 256]
  | _ =>
      let (start, length) := longestZeroRun groups
      if length < 2 then joined ":" 16 groups
      else joined ":" 16 (groups.take start) ++ "::" ++ joined ":" 16 (groups.drop (start + length))

def text : Address → String
  | .v4 octets port => joined "." 10 octets ++ ":" ++ toString port
  | .v6 groups scope port =>
      "[" ++ hextetText groups ++ (if scope = 0 then "" else "%" ++ toString scope) ++ "]:"
        ++ toString port

end Address

end MockHttp
