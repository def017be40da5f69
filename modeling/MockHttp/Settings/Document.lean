import MockHttp.Settings.Basic
import MockHttp.Text.Utf8
import MockHttp.Toml.Document
/-!
# Reading settings

Every section and every field of a settings file may be missing, and unknown ones do not matter.  A
section is a table, or a list of its fields in order.  A date can stand for a section and says
nothing about its fields.
-/

namespace MockHttp.Settings

open Toml

/-- The fields that a section gives values to, in the order of their names. -/
def sectionValues (names : List String) : Item → Option (List (Option Item))
  | .inline _ entries => some (names.map fun name => Entries.item? entries name)
  | .table _ entries => some (names.map fun name => Entries.item? entries name)
  | .list items => some (names.zipIdx.map fun (_, i) => items[i]?)
  | .tables last earlier =>
      let tables := (last :: earlier).reverse.map (Item.table .written)
      some (names.zipIdx.map fun (_, i) => tables[i]?)
  | .moment => some (names.map fun _ => none)
  | _ => none

/-- The text of a field, or what it is without one. -/
def textOr (usual : String) : Option Item → Option String
  | none => some usual
  | some (.text value) => some value
  | some _ => none

def booleanOr (usual : Bool) : Option Item → Option Bool
  | none => some usual
  | some (.boolean value) => some value
  | some _ => none

def naturalOr (usual : UInt64) : Option Item → Option UInt64
  | none => some usual
  | some (.integer value) => if 0 ≤ value then some (UInt64.ofNat value.toNat) else none
  | some _ => none

def applySection (file : Entries) (name : String) (fields : List String)
    (apply : List (Option Item) → Settings → Option Settings) (settings : Settings) :
    Option Settings :=
  match file.item? name with
  | none => some settings
  | some item => do apply (← sectionValues fields item) settings

def applyListener : List (Option Item) → Settings → Option Settings
  | [address], settings => do
      some { settings with bindAddress := ← textOr settings.bindAddress address }
  | _, _ => none

def applyRoutes : List (Option Item) → Settings → Option Settings
  | [file], settings => do some { settings with routeFile := ← textOr settings.routeFile file }
  | _, _ => none

def applyTimeouts : List (Option Item) → Settings → Option Settings
  | [seconds], settings => do
      some { settings with requestSeconds := ← naturalOr settings.requestSeconds seconds }
  | _, _ => none

def applyObservability : List (Option Item) → Settings → Option Settings
  | [level, enabled, address], settings => do
      some { settings with
        logLevel := ← textOr settings.logLevel level
        metricsEnabled := ← booleanOr settings.metricsEnabled enabled
        metricsAddress := ← textOr settings.metricsAddress address }
  | _, _ => none

/-- The settings of a file: the defaults where it says nothing. -/
def ofEntries? (file : Entries) : Option Settings := do
  let settings ← applySection file "listener" ["bind_address"] applyListener default
  let settings ← applySection file "routes" ["file"] applyRoutes settings
  let settings ← applySection file "timeouts" ["request_secs"] applyTimeouts settings
  applySection file "observability" ["log_level", "metrics_enabled", "metrics_address"]
    applyObservability settings

/-- The settings that a file spells; bytes that are not UTF-8 are read as U+FFFD. -/
def parse? (content : Bytes) : Option Settings := do
  ofEntries? (← Toml.parse? (Text.lossy content))

end MockHttp.Settings
