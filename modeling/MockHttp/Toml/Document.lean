import MockHttp.Toml.Text
/-!
# Reading a settings file

A file is a run of lines: keys with values, headers of tables and of lists of tables, comments and
nothing at all.
-/

namespace MockHttp.Toml

def isKeyChar (c : Char) : Bool :=
  c.isAlphanum || c = '_' || c = '-'

def keyPart (s : List Char) : Option (String × List Char) :=
  match s with
  | '"' :: _ => lineText s
  | '\'' :: _ => lineText s
  | _ =>
      let name := s.takeWhile isKeyChar
      if name.isEmpty then none else some (String.ofList name, s.dropWhile isKeyChar)

/-- Reads at most so many parts of a key, with dots between them and blanks around each. -/
def keyParts : Nat → List Char → Option (List String × List Char)
  | 0, _ => none
  | room + 1, s => do
      let (name, s) ← keyPart (skipBlanks s)
      match skipBlanks s with
      | '.' :: s => do
          let (names, s) ← keyParts room s
          some (name :: names, s)
      | s => some ([name], s)

def maxKeyParts : Nat := 79

def key (s : List Char) : Option (List String × List Char) :=
  keyParts maxKeyParts s

def skipComment (s : List Char) : List Char :=
  s.dropWhile isPlain

/-- Reads the end of a line: blanks, perhaps a comment, and a line end or the end of the file. -/
def lineEnd (s : List Char) : Option (List Char) :=
  let rest := match skipBlanks s with
    | '#' :: s => skipComment s
    | s => s
  match rest with
  | [] => some []
  | rest => newline rest

/-- Passes over blanks, line ends and comments, of at most so many characters; a comment ends with
its line. -/
def skipFiller : Nat → List Char → Option (List Char)
  | 0, s => some s
  | room + 1, s =>
      match skipBlanks s with
      | '#' :: s => do skipFiller room (← newline (skipComment s))
      | s =>
          match newline s with
          | some rest => skipFiller room rest
          | none => some s

def filler (s : List Char) : Option (List Char) :=
  skipFiller s.length s

/-- Reads at most so many items of a list and its closing bracket; a comma may stand behind the
last one. -/
def listItems (value : List Char → Option (Item × List Char)) :
    Nat → List Char → Option (List Item × List Char)
  | 0, _ => none
  | room + 1, s => do
      match ← filler s with
      | ']' :: s => some ([], s)
      | s => do
          let (item, s) ← value s
          match ← filler s with
          | ',' :: s => do
              let (items, s) ← listItems value room s
              some (item :: items, s)
          | ']' :: s => some ([item], s)
          | _ => none

def pair (value : List Char → Option (Item × List Char)) (s : List Char) :
    Option ((List String × Item) × List Char) := do
  let (path, s) ← key s
  match s with
  | '=' :: s => do
      let (item, s) ← value (skipBlanks s)
      some ((path, item), s)
  | _ => none

/-- Reads at most so many pairs of a braced table and its closing brace. -/
def inlinePairs (value : List Char → Option (Item × List Char)) :
    Nat → List Char → Option (List (List String × Item) × List Char)
  | 0, _ => none
  | room + 1, s => do
      let (first, s) ← pair value s
      match skipBlanks s with
      | ',' :: s => do
          let (pairs, s) ← inlinePairs value room s
          some (first :: pairs, s)
      | '\x7d' :: s => some ([first], s)
      | _ => none

def inlineTable (pairs : List (List String × Item)) : Option Item := do
  let entries ← pairs.foldlM
    (fun entries (path, item) => Entries.addInline? item .written false path entries) []
  some (.inline .written entries)

def maxDepth : Nat := 79

/-- Reads a value while so many more brackets may be opened. -/
def value : Nat → List Char → Option (Item × List Char)
  | depth, '[' :: s =>
      match depth with
      | 0 => none
      | depth + 1 => do
          let (items, s) ← listItems (value depth) s.length s
          some (.list items, s)
  | depth, '\x7b' :: s =>
      match depth with
      | 0 => none
      | depth + 1 =>
          match skipBlanks s with
          | '\x7d' :: s => some (.inline .written [], s)
          | _ => do
              let (pairs, s) ← inlinePairs (value depth) s.length s
              some (← inlineTable pairs, s)
  | _, '"' :: s => (anyText ('"' :: s)).map fun (text, s) => (.text text, s)
  | _, '\'' :: s => (anyText ('\'' :: s)).map fun (text, s) => (.text text, s)
  | _, s => scalar s

inductive Line where
  | pair (path : List String) (item : Item)
  | table (path : List String)
  | tables (path : List String)
  | nothing

def line (s : List Char) : Option (Line × List Char) := do
  match skipBlanks s with
  | '[' :: '[' :: s => do
      let (path, s) ← key s
      let s ← lineEnd (← Text.mark ']' (← Text.mark ']' s))
      some (.tables path, s)
  | '[' :: s => do
      let (path, s) ← key s
      let s ← lineEnd (← Text.mark ']' s)
      some (.table path, s)
  | s =>
      match lineEnd s with
      | some rest => some (.nothing, rest)
      | none => do
          let ((path, item), s) ← pair (value maxDepth) s
          some (.pair path item, ← lineEnd s)

def readLines : Nat → List Char → Option (List Line)
  | _, [] => some []
  | 0, _ => none
  | room + 1, s => do
      let (first, s) ← line s
      some (first :: (← readLines room s))

structure Block where
  path : List String
  repeats : Bool
  pairs : List (List String × Item)

/-- The pairs before the first header, and the blocks of the headers. -/
def blocks : List Line → List (List String × Item) × List Block
  | [] => ([], [])
  | .nothing :: rest => blocks rest
  | .pair path item :: rest =>
      let (pairs, others) := blocks rest
      ((path, item) :: pairs, others)
  | .table path :: rest =>
      let (pairs, others) := blocks rest
      ([], ⟨path, false, pairs⟩ :: others)
  | .tables path :: rest =>
      let (pairs, others) := blocks rest
      ([], ⟨path, true, pairs⟩ :: others)

def fill (pairs : List (List String × Item)) (entries : Entries) : Option Entries :=
  pairs.foldlM (fun entries (path, item) => Entries.addDotted? item .written false path entries)
    entries

def Block.add? (block : Block) (root : Entries) : Option Entries :=
  match block.path.getLast? with
  | none => none
  | some key =>
      root.within?
        (if block.repeats then Entries.pushTable? (fill block.pairs) key
          else Entries.openTable? (fill block.pairs) key)
        block.path.dropLast

/-- The table that a file spells; a byte order mark at its beginning does not count. -/
def parse? (text : String) : Option Entries := do
  let chars := match text.toList with
    | '\uFEFF' :: rest => rest
    | chars => chars
  let (pairs, others) := blocks (← readLines chars.length chars)
  others.foldlM (fun root block => block.add? root) (← fill pairs [])

end MockHttp.Toml
