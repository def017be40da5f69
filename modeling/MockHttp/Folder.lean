import MockHttp.Text.Utf8
/-!
# Files

What reading a path can give, and the files below a working directory.  A path is walked part by
part, so that the first part that goes wrong decides.
-/

namespace MockHttp

/-- Why a file cannot be read: it is not there, the system refuses with a code, or the path cannot
be handed to the system. -/
inductive ReadFailure where
  | missing
  | system (code : Nat) (kind text : String)
  | nulInPath
  deriving DecidableEq

namespace ReadFailure

def isDirectory : ReadFailure := .system 21 "IsADirectory" "Is a directory"

def notDirectory : ReadFailure := .system 20 "NotADirectory" "Not a directory"

def nameTooLong : ReadFailure := .system 36 "InvalidFilename" "File name too long"

def nulText : String := "file name contained an unexpected NUL byte"

def describe : ReadFailure → String
  | missing => "No such file or directory (os error 2)"
  | system code _ text => text ++ " (os error " ++ toString code ++ ")"
  | nulInPath => nulText

end ReadFailure

abbrev Files := String → Except ReadFailure Bytes

/-- The files and directories below a working directory, by the parts of their paths.  The
directories on the way to each are there as well. -/
structure Folder where
  files : List (List String × Bytes)
  directories : List (List String)

namespace Folder

def maxPathLength : Nat := 4095

def maxNameLength : Nat := 255

def partsOf (path : String) : List String :=
  (path.toList.splitOn '/').map String.ofList

inductive Entry where
  | file (content : Bytes)
  | directory

def entry? (folder : Folder) (place : List String) : Option Entry :=
  match folder.files.find? fun file => file.1 = place with
  | some file => some (.file file.2)
  | none =>
      let all := folder.directories ++ folder.files.map Prod.fst
      if place = [] ∨ all.any (place.isPrefixOf ·) then some .directory else none

/-- Where a walk has come to: a place in the folder, or a directory outside of it. -/
inductive Location where
  | inside (place : List String) (entry : Entry)
  | outside

def step (folder : Folder) (name : String) : Location → Except ReadFailure Location
  | .inside _ (.file _) => .error .notDirectory
  | .outside =>
      if name = "" ∨ name = "." ∨ name = ".." then .ok .outside
      else if maxNameLength < name.utf8ByteSize then .error .nameTooLong
      else .error .missing
  | .inside place .directory =>
      if name = "" ∨ name = "." then .ok (.inside place .directory)
      else if name = ".." then
        if place = [] then .ok .outside else .ok (.inside place.dropLast .directory)
      else if maxNameLength < name.utf8ByteSize then .error .nameTooLong
      else
        match folder.entry? (place ++ [name]) with
        | some entry => .ok (.inside (place ++ [name]) entry)
        | none => .error .missing

def read (folder : Folder) : Files := fun path =>
  if path.toList.contains '\x00' then .error .nulInPath
  else if path = "" then .error .missing
  else if maxPathLength < path.utf8ByteSize then .error .nameTooLong
  else
    let start : Location := if path.toList.head? = some '/' then .outside else .inside [] .directory
    match (partsOf path).foldlM (fun location name => folder.step name location) start with
    | .error failure => .error failure
    | .ok (.inside _ (.file content)) => .ok content
    | .ok _ => .error .isDirectory

end Folder

end MockHttp
