/-!
# Tables of a settings file

A file is a table of items.  A table remembers how it came about, for a table may be opened by one
header only, and only dotted keys may add to what dotted keys have made.
-/

namespace MockHttp.Toml

/-- How a table came about: by its own header or braces, on the way to another header, or by a
dotted key. -/
inductive Origin where
  | written
  | implied
  | dotted
  deriving DecidableEq

/-- A value, a table or a list of tables.  Of fractions and of dates only the form is kept. -/
inductive Item where
  | text (value : String)
  | integer (value : Int)
  | fraction
  | boolean (value : Bool)
  | moment
  | list (items : List Item)
  | inline (origin : Origin) (entries : List (String × Item))
  | table (origin : Origin) (entries : List (String × Item))
  | tables (last : List (String × Item)) (earlier : List (List (String × Item)))

/-- The entries of a table, each key once. -/
abbrev Entries := List (String × Item)

namespace Entries

def item? (entries : Entries) (key : String) : Option Item :=
  (entries.find? fun entry => entry.1 = key).map Prod.snd

def put (entries : Entries) (key : String) (item : Item) : Entries :=
  entries.filter (fun entry => entry.1 ≠ key) ++ [(key, item)]

def add? (entries : Entries) (key : String) (item : Item) : Option Entries :=
  if (entries.item? key).isSome then none else some (entries ++ [(key, item)])

/-- Adds an item to a braced table under a dotted key.  `origin` is that of the table itself; the
tables on the way have to be made by dotted keys, and so has the last one, unless the key has no
dot. -/
def addInline? (item : Item) (origin : Origin) (isPath : Bool) :
    List String → Entries → Option Entries
  | [], _ => none
  | [key], entries => if decide (origin = .dotted) = isPath then entries.add? key item else none
  | key :: path, entries =>
      match entries.item? key with
      | none => do
          some (entries.put key (.inline .dotted (← addInline? item .dotted true path [])))
      | some (.inline .dotted inner) => do
          some (entries.put key (.inline .dotted (← addInline? item .dotted true path inner)))
      | some _ => none

/-- Adds an item to the table of a header under a dotted key.  A table on the way may have been made
by any keys but its own header; the last one has to be made by dotted keys, unless the key has no
dot. -/
def addDotted? (item : Item) (origin : Origin) (isPath : Bool) :
    List String → Entries → Option Entries
  | [], _ => none
  | [key], entries => if decide (origin = .dotted) = isPath then entries.add? key item else none
  | key :: path, entries =>
      match entries.item? key with
      | none => do
          some (entries.put key (.table .dotted (← addDotted? item .dotted true path [])))
      | some (.table .written _) => none
      | some (.table made inner) => do
          some (entries.put key (.table made (← addDotted? item made true path inner)))
      | some (.tables last earlier) => do
          some (entries.put key (.tables (← addDotted? item .written true path last) earlier))
      | some _ => none

/-- Changes the table at the end of a path of headers, the tables on the way being made as needed.
Of a list of tables the last one is meant. -/
def within? (change : Entries → Option Entries) : List String → Entries → Option Entries
  | [], entries => change entries
  | key :: path, entries =>
      match entries.item? key with
      | none => do some (entries.put key (.table .implied (← within? change path [])))
      | some (.table made inner) => do
          some (entries.put key (.table made (← within? change path inner)))
      | some (.tables last earlier) => do
          some (entries.put key (.tables (← within? change path last) earlier))
      | some _ => none

/-- The entries that a table already has when its header comes: those of tables below it.  A table
has one header. -/
def opened? (entries : Entries) (key : String) : Option Entries :=
  match entries.item? key with
  | none => some []
  | some (.table .implied inner) => some inner
  | some _ => none

/-- Opens the table of a header; `fill` adds what stands under the header. -/
def openTable? (fill : Entries → Option Entries) (key : String) (entries : Entries) :
    Option Entries := do
  let inner ← entries.opened? key
  some (entries.put key (.table .written (← fill inner)))

def pushTable? (fill : Entries → Option Entries) (key : String) (entries : Entries) :
    Option Entries :=
  match entries.item? key with
  | none => do some (entries.put key (.tables (← fill []) []))
  | some (.tables last earlier) => do
      some (entries.put key (.tables (← fill []) (last :: earlier)))
  | some _ => none

end Entries

end MockHttp.Toml
