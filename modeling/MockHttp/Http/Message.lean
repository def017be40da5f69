import MockHttp.Text.Utf8
/-!
# Methods, statuses and header fields

What HTTP allows in the parts of a message.  A method and a header name are tokens; header names
are kept in lower case, and a name may have several values.
-/

namespace MockHttp

def isTokenChar (c : Char) : Bool :=
  c.isAlphanum || ['!', '#', '$', '%', '&', '\'', '*', '+', '-', '.', '^', '_', '\x60', '|',
    '~'].contains c

def isToken (text : String) : Bool :=
  text ≠ "" && text.toList.all isTokenChar

/-- A request method, told apart from others byte by byte. -/
structure Method where
  text : String
  valid : isToken text = true
  deriving DecidableEq

def Method.ofText? (text : String) : Option Method :=
  if valid : isToken text = true then some ⟨text, valid⟩ else none

structure Status where
  code : Nat
  valid : 100 ≤ code ∧ code ≤ 999
  deriving DecidableEq

def Status.ofCode? (code : Nat) : Option Status :=
  if valid : 100 ≤ code ∧ code ≤ 999 then some ⟨code, valid⟩ else none

def Status.isSuccess (status : Status) : Bool :=
  200 ≤ status.code && status.code ≤ 299

/-- Header fields in the order in which they were given: a name in lower case, and a value. -/
abbrev Headers := List (String × Bytes)

namespace Headers

def maxNameLength : Nat := 65535

/-- A header name in lower case, if the given bytes are a token of admissible length. -/
def name? (raw : Bytes) : Option String :=
  let text := String.ofList (raw.map fun b => (Char.ofNat b.toNat).toLower)
  if isToken text && raw.length ≤ maxNameLength then some text else none

/-- The bytes of a header value: visible ones, spaces, tabs and all beyond ASCII. -/
def isValueByte (b : UInt8) : Bool :=
  b = 9 ∨ (32 ≤ b ∧ b ≠ 127)

def value? (raw : Bytes) : Option Bytes :=
  if raw.all isValueByte then some raw else none

def field? (name value : Bytes) : Option (String × Bytes) :=
  match name? name, value? value with
  | some name, some value => some (name, value)
  | _, _ => none

def has (headers : Headers) (name : String) : Bool :=
  headers.any fun field => field.1 = name

def first? (headers : Headers) (name : String) : Option Bytes :=
  (headers.find? fun field => field.1 = name).map Prod.snd

/-- Puts a value under a name in place of all that were there. -/
def set (headers : Headers) (name : String) (value : Bytes) : Headers :=
  headers.filter (fun field => field.1 ≠ name) ++ [(name, value)]

def setIfAbsent (headers : Headers) (name : String) (value : Bytes) : Headers :=
  if headers.has name then headers else headers ++ [(name, value)]

def maxSlots : Nat := 32768

/-- Whether a table can be made for so many fields.  It has a slot to spare for every three of them,
and the number of its slots is a power of two. -/
def canHold (count : Nat) : Bool :=
  count + count / 3 ≤ maxSlots

/-- The fields by name, the values under one name in their own order. -/
def sorted (headers : Headers) : Headers :=
  headers.mergeSort fun a b => a.1 ≤ b.1

end Headers

structure Reply where
  status : Status
  headers : Headers
  body : Bytes
  deriving DecidableEq

end MockHttp
