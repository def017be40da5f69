import MockHttp.Json.Skip
/-!
# Objects, lists and values of the wrong kind

The commas and brackets of objects and lists, for readers that make something of what stands
between them.
-/

namespace MockHttp.Json

/-- Reads a value of the wrong kind.  A scalar is read whole, so that its own faults come first; of
a list or an object the bracket is left. -/
def found : Reader Found
  | [] => .error (.at .noValue [])
  | b :: s =>
      if b = ascii 'n' then do return (.null, ← word ['u', 'l', 'l'] s)
      else if b = ascii 't' then do return (.boolean true, ← word ['r', 'u', 'e'] s)
      else if b = ascii 'f' then do return (.boolean false, ← word ['a', 'l', 's', 'e'] s)
      else if b = ascii '-' then do
        let (read, s) ← number true s
        return (read.found, s)
      else if isDigit b then do
        let (read, s) ← number false (b :: s)
        return (read.found, s)
      else if b = ascii '"' then do
        let (text, s) ← string s
        return (.string text, s)
      else if b = ascii '[' then .ok (.list, b :: s)
      else if b = ascii '\x7b' then .ok (.object, b :: s)
      else .error (.at .noValue (b :: s))

def refuse {α : Type} (wanted : String) : Reader α := fun s => do
  let (value, s) ← found s
  throw (.before (.wrongType value wanted) s)

/-- Reads on from the first byte of a value; an end of input is a fault. -/
def withFirst {α : Type} (read : UInt8 → Reader α) : Reader α := fun s =>
  match skipBlank s with
  | [] => .error (.at .endInValue [])
  | b :: s => read b s

def text : Reader String :=
  withFirst fun b s => if b = ascii '"' then string s else refuse "a string" (b :: s)

def colon (s : Bytes) : Except Fault Bytes :=
  match skipBlank s with
  | [] => .error (.at .endInObject [])
  | b :: s => if b = ascii ':' then .ok s else .error (.at .noColon (b :: s))

def memberValue {α : Type} (read : Reader α) : Reader α := fun s => do
  read (← colon s)

def skipMember (s : Bytes) : Except Fault Bytes := do
  skip (← colon s)

def nextKey (isFirst : Bool) : Reader (Option String) := fun s =>
  match skipBlank s with
  | [] => .error (.at .endInObject [])
  | b :: s =>
      if b = ascii '\x7d' then .ok (none, s)
      else if isFirst then
        if b = ascii '"' then do
          let (key, s) ← string s
          return (some key, s)
        else .error (.at .keyNotString (b :: s))
      else if b = ascii ',' then
        match skipBlank s with
        | [] => .error (.at .endInValue [])
        | b :: s =>
            if b = ascii '"' then do
              let (key, s) ← string s
              return (some key, s)
            else if b = ascii '\x7d' then .error (.at .trailingComma (b :: s))
            else .error (.at .keyNotString (b :: s))
      else .error (.at .noCommaInObject (b :: s))

/-- Reads at most so many members of an object and its closing brace, each step taking a key and
what follows it. -/
def members {σ : Type} (step : σ → String → Reader σ) : Nat → Bool → σ → Reader σ
  | 0, _, _, s => .error (.before .endInObject s)
  | count + 1, isFirst, state, s => do
      match ← nextKey isFirst s with
      | (none, s) => return (state, s)
      | (some key, s) =>
          let (state, s) ← step state key s
          members step count false state s

def object {σ : Type} (step : σ → String → Reader σ) (initial : σ) : Reader σ := fun s =>
  members step s.length true initial s

/-- The fault of a key that came before.  Its place is behind the blanks that follow, and behind
the closing brace if that comes next. -/
def repeated (name : String) (s : Bytes) : Fault :=
  match skipBlank s with
  | [] => .before (.duplicateField name) []
  | b :: s =>
      if b = ascii '\x7d' then .before (.duplicateField name) s
      else .before (.duplicateField name) (b :: s)

/-- Goes to the next element of a list, if there is one, or else to its closing bracket. -/
def nextElement (isFirst : Bool) : Reader Bool := fun s =>
  match skipBlank s with
  | [] => .error (.at .endInList [])
  | b :: s =>
      if b = ascii ']' then .ok (false, b :: s)
      else if isFirst then .ok (true, b :: s)
      else if b = ascii ',' then
        match skipBlank s with
        | [] => .error (.at .endInValue [])
        | b :: s =>
            if b = ascii ']' then .error (.at .trailingComma (b :: s)) else .ok (true, b :: s)
      else .error (.at .noCommaInList (b :: s))

def element? {α : Type} (read : Reader α) (isFirst : Bool) : Reader (Option α) := fun s => do
  match ← nextElement isFirst s with
  | (false, s) => return (none, s)
  | (true, s) =>
      let (value, s) ← read s
      return (some value, s)

def closeList (s : Bytes) : Except Fault Bytes :=
  match skipBlank s with
  | [] => .error (.at .endInList [])
  | b :: s =>
      if b = ascii ']' then .ok s
      else if b = ascii ',' then
        match skipBlank s with
        | [] => .error (.at .trailingCharacters [])
        | b :: s =>
            .error (.at (if b = ascii ']' then .trailingComma else .trailingCharacters) (b :: s))
      else .error (.at .trailingCharacters (b :: s))

/-- Reads at most so many elements of a list and its closing bracket. -/
def elements {α : Type} (read : Reader α) : Nat → Bool → Reader (List α)
  | 0, _, s => .error (.before .endInList s)
  | count + 1, isFirst, s => do
      match ← element? read isFirst s with
      | (none, s) => return ([], ← closeList s)
      | (some value, s) =>
          let (values, s) ← elements read count false s
          return (value :: values, s)

def list {α : Type} (read : Reader α) : Reader (List α) := fun s =>
  elements read s.length true s

/-- Refuses anything but blanks behind a document. -/
def ended (s : Bytes) : Except Fault Unit :=
  match skipBlank s with
  | [] => .ok ()
  | b :: s => .error (.at .trailingCharacters (b :: s))

/-- Reads a whole document: one value, and nothing but blanks behind it. -/
def whole {α : Type} (read : Reader α) (document : Bytes) : Except Error α :=
  match read document with
  | .error fault => .error (fault.within document)
  | .ok (value, s) =>
      match ended s with
      | .error fault => .error (fault.within document)
      | .ok () => .ok value

end MockHttp.Json
