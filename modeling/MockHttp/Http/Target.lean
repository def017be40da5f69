import MockHttp.Http.Message
/-!
# Request targets

A target is a path with perhaps a query, the same behind a scheme and an authority, an authority
alone, or `*`.  Nothing is decoded or normalised, and a fragment is dropped.
-/

namespace MockHttp

/-- A request target in its parts.  An absolute target without a path has the path `/`; an
authority alone has an empty one. -/
structure Target where
  scheme : Option String
  authority : String
  path : String
  query : Option String

namespace Target

def maxLength : Nat := 65534

/-- Visible characters: of ASCII those above the space, and all beyond ASCII. -/
def isVisible (c : Char) : Bool :=
  0x80 ≤ c.toNat || (0x21 ≤ c.toNat && c.toNat ≤ 0x7E)

/-- Visible characters that may not stand in a path, or end it. -/
def outsidePath : List Char := ['<', '>', '\x60', '?', '#']

/-- Visible characters that may not stand in a query, or end it. -/
def outsideQuery : List Char := ['"', '<', '>', '#']

def isPathChar (c : Char) : Bool :=
  isVisible c && !(outsidePath.contains c)

def isQueryChar (c : Char) : Bool :=
  isVisible c && !(outsideQuery.contains c)

/-- What is left of a path or a query at its end: nothing, or a fragment. -/
def isFragment : List Char → Bool
  | [] => true
  | c :: _ => c = '#'

def pathAndQuery? (text : List Char) : Option (String × Option String) :=
  let path := String.ofList (text.takeWhile isPathChar)
  match text.dropWhile isPathChar with
  | '?' :: rest =>
      if isFragment (rest.dropWhile isQueryChar) then
        some (path, some (String.ofList (rest.takeWhile isQueryChar)))
      else none
  | rest => if isFragment rest then some (path, none) else none

def isSchemeChar (c : Char) : Bool :=
  c.isAlphanum || c = '+' || c = '-' || c = '.'

def maxSchemeLength : Nat := 64

/-- What a target without a leading slash begins with. -/
inductive Opening where
  | none
  | scheme (name : String) (rest : List Char)
  | tooLong

def opening (text : List Char) : Opening :=
  let name := text.takeWhile isSchemeChar
  match text.dropWhile isSchemeChar with
  | ':' :: '/' :: '/' :: rest =>
      if maxSchemeLength < name.length then .tooLong else .scheme (String.ofList name) rest
  | _ => .none

/-- Characters of an authority, apart from brackets, `%` and the `:` and `@` that are counted. -/
def isAuthorityChar (c : Char) : Bool :=
  c.isAlphanum || ['!', '$', '&', '\'', '(', ')', '*', '+', ',', '-', '.', ';', '=', '_',
    '~'].contains c

/-- What is known of an authority that has been read up to some point.  The colons and percent
signs of user information and of an address in brackets do not count. -/
structure AuthorityScan where
  colons : Nat
  hasPercent : Bool
  openBracket : Bool
  closeBracket : Bool
  endsAtSign : Bool

def maxColons : Nat := 8

def AuthorityScan.step? (scan : AuthorityScan) (c : Char) : Option AuthorityScan :=
  let ⟨colons, hasPercent, openBracket, closeBracket, _⟩ := scan
  if c = ':' then
    if maxColons ≤ colons then none
    else some ⟨colons + 1, hasPercent, openBracket, closeBracket, false⟩
  else if c = '[' then
    if hasPercent || openBracket then none
    else some ⟨colons, hasPercent, true, closeBracket, false⟩
  else if c = ']' then
    if !openBracket || closeBracket then none else some ⟨0, false, openBracket, true, false⟩
  else if c = '@' then some ⟨0, false, openBracket, closeBracket, true⟩
  else if c = '%' then some ⟨colons, true, openBracket, closeBracket, false⟩
  else if isAuthorityChar c then
    some ⟨colons, hasPercent, openBracket, closeBracket, false⟩
  else none

def AuthorityScan.complete (scan : AuthorityScan) : Bool :=
  scan.openBracket = scan.closeBracket && scan.colons ≤ 1 && !scan.endsAtSign && !scan.hasPercent

def endsAuthority (c : Char) : Bool :=
  c = '/' || c = '?' || c = '#'

/-- Splits an authority, which may be empty, off the front of a text. -/
def authority? (text : List Char) : Option (String × List Char) := do
  let name := text.takeWhile fun c => !endsAuthority c
  let scan ← name.foldlM AuthorityScan.step? ⟨0, false, false, false, false⟩
  if scan.complete then
    some (String.ofList name, text.dropWhile fun c => !endsAuthority c)
  else none

def parse? (text : String) : Option Target :=
  if maxLength < text.utf8ByteSize then none
  else
    match text.toList with
    | [] => none
    | ['*'] => some ⟨none, "", "*", none⟩
    | '/' :: rest => do
        let (path, query) ← pathAndQuery? ('/' :: rest)
        some ⟨none, "", path, query⟩
    | chars =>
        match opening chars with
        | .tooLong => none
        | .none => do
            let (authority, rest) ← authority? chars
            if rest.isEmpty then some ⟨none, authority, "", none⟩ else none
        | .scheme name rest => do
            let (authority, rest) ← authority? rest
            if authority = "" then none
            else
              let (path, query) ← pathAndQuery? rest
              some ⟨some name, authority, if path = "" then "/" else path, query⟩

end Target

end MockHttp
