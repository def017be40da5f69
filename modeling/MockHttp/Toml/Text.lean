import MockHttp.Toml.Scalar
/-!
# Strings

Strings between double quotes have escapes, strings between single quotes have none, and either
may span lines between three quotes.
-/

namespace MockHttp.Toml

open Text (digit? ofDigits)

/-- Characters that stand for themselves, quotes and backslashes aside: tabs and all that are no
controls. -/
def isPlain (c : Char) : Bool :=
  c = '\t' || (32 ≤ c.toNat && c.toNat ≠ 127)

def isBlank (c : Char) : Bool :=
  c = ' ' || c = '\t'

def skipBlanks (s : List Char) : List Char :=
  s.dropWhile isBlank

def newline : List Char → Option (List Char)
  | '\n' :: rest => some rest
  | '\r' :: '\n' :: rest => some rest
  | _ => none

def codePoint (length : Nat) (s : List Char) : Option (Char × List Char) := do
  let digits ← (s.take length).mapM (digit? 16)
  let code := ofDigits 16 digits
  if digits.length = length ∧ (code < 0xD800 ∨ (0xDFFF < code ∧ code ≤ 0x10FFFF)) then
    some (Char.ofNat code, s.drop length)
  else none

def escape : List Char → Option (Char × List Char)
  | 'b' :: s => some ('\x08', s)
  | 'f' :: s => some ('\x0c', s)
  | 'n' :: s => some ('\n', s)
  | 'r' :: s => some ('\r', s)
  | 't' :: s => some ('\t', s)
  | '"' :: s => some ('"', s)
  | '\\' :: s => some ('\\', s)
  | 'u' :: s => codePoint 4 s
  | 'U' :: s => codePoint 8 s
  | _ => none

/-- Reads at most so many characters between double quotes, and the closing quote. -/
def basic : Nat → List Char → Option (List Char × List Char)
  | 0, _ => none
  | _ + 1, [] => none
  | _ + 1, '"' :: s => some ([], s)
  | room + 1, '\\' :: s => do
      let (c, s) ← escape s
      let (cs, s) ← basic room s
      some (c :: cs, s)
  | room + 1, c :: s =>
      if isPlain c then do
        let (cs, s) ← basic room s
        some (c :: cs, s)
      else none

def verbatim : List Char → Option (List Char × List Char)
  | [] => none
  | '\'' :: s => some ([], s)
  | c :: s =>
      if isPlain c then do
        let (cs, s) ← verbatim s
        some (c :: cs, s)
      else none

/-- What is left behind spaces, tabs and line ends, of at most so many characters. -/
def skipLines : Nat → List Char → List Char
  | 0, s => s
  | room + 1, s =>
      match newline (skipBlanks s) with
      | some rest => skipLines room rest
      | none => skipBlanks s

/-- What a backslash at the end of a line takes away: the line end and all blanks behind it. -/
def continued? (s : List Char) : Option (List Char) :=
  (newline (skipBlanks s)).map fun rest => skipLines rest.length rest

/-- A run of quotes in a string over several lines.  Fewer than three are part of it; three end it,
up to two more being part of it. -/
inductive QuoteRun where
  | part (length : Nat)
  | final (length : Nat)
  | tooLong

def quoteRun (length : Nat) : QuoteRun :=
  if length < 3 then .part length else if length ≤ 5 then .final (length - 3) else .tooLong

/-- Reads at most so many pieces of a string over several lines, and its closing quotes. -/
def lines (quote : Char) (escapes : Bool) : Nat → List Char → Option (List Char × List Char)
  | 0, _ => none
  | _ + 1, [] => none
  | room + 1, c :: s =>
      if c = quote then
        let run := ((c :: s).takeWhile (· = quote)).length
        let rest := (c :: s).dropWhile (· = quote)
        match quoteRun run with
        | .part length => do
            let (cs, rest) ← lines quote escapes room rest
            some (List.replicate length quote ++ cs, rest)
        | .final length => some (List.replicate length quote, rest)
        | .tooLong => none
      else if escapes ∧ c = '\\' then
        match continued? s with
        | some rest => lines quote escapes room rest
        | none => do
            let (c, s) ← escape s
            let (cs, s) ← lines quote escapes room s
            some (c :: cs, s)
      else
        match newline (c :: s) with
        | some rest => do
            let (cs, rest) ← lines quote escapes room rest
            some ('\n' :: cs, rest)
        | none =>
            if isPlain c then do
              let (cs, s) ← lines quote escapes room s
              some (c :: cs, s)
            else none

/-- Reads a string over several lines behind its opening quotes; a line end just there is no part
of it. -/
def linesBehind (quote : Char) (escapes : Bool) (s : List Char) :
    Option (List Char × List Char) :=
  let s := (newline s).getD s
  lines quote escapes s.length s

/-- Reads a string on one line, from its opening quote on; `none` if no quote comes first. -/
def lineText : List Char → Option (String × List Char)
  | '"' :: s => (basic s.length s).map fun (cs, s) => (String.ofList cs, s)
  | '\'' :: s => (verbatim s).map fun (cs, s) => (String.ofList cs, s)
  | _ => none

def anyText : List Char → Option (String × List Char)
  | '"' :: '"' :: '"' :: s => (linesBehind '"' true s).map fun (cs, s) => (String.ofList cs, s)
  | '\'' :: '\'' :: '\'' :: s =>
      (linesBehind '\'' false s).map fun (cs, s) => (String.ofList cs, s)
  | s => lineText s

end MockHttp.Toml
