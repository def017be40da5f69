import MockHttp.Http.Server
import MockHttp.Program
/-!
# The command line

Starts from the files on disk and the environment, and then answers requests that are read from
standard input, one line each: a method, a space and a target.  The end of input stops the server.
-/

namespace MockHttp.CommandLine

/-- An error code of the system, which may come negated. -/
def codeOf (code : UInt32) : Nat :=
  min code.toNat (0 - code).toNat

def failureOfCode (code : UInt32) (kind details : String) : ReadFailure :=
  match codeOf code with
  | 20 => .notDirectory
  | 21 => .isDirectory
  | 36 => .nameTooLong
  | code => .system code kind details

def failureOf : IO.Error → ReadFailure
  | .noFileOrDirectory .. => .missing
  | .inappropriateType _ code details => failureOfCode code "Other" details
  | .invalidArgument _ code details => failureOfCode code "InvalidInput" details
  | .permissionDenied _ code details => failureOfCode code "PermissionDenied" details
  | other => .system 5 "Other" (toString other)

def readFromDisk (path : String) : IO (Except ReadFailure Bytes) := do
  if path.toList.contains '\x00' then return .error .nulInPath
  if path = "" then return .error .missing
  try
    let content ← IO.FS.readBinFile path
    return .ok content.toList
  catch error => return .error (failureOf error)

/-- The files of a run: those that have been read, by path. -/
def filesOf (known : List (String × Except ReadFailure Bytes)) : Files := fun path =>
  match known.find? fun entry => entry.1 = path with
  | some entry => entry.2
  | none => .error .missing

/-- Reads the files that a run with the given options asks for: the settings first, and then the
route document that they name. -/
def filesFor (overrides : Overrides) : IO Files := do
  let settingsFiles ← overrides.settingsFile.toList.mapM fun path => do
    return (path, ← readFromDisk path)
  match Settings.resolve (filesOf settingsFiles) overrides with
  | .error _ => return filesOf settingsFiles
  | .ok settings =>
      let routeFile := settings.routeFile
      return filesOf (settingsFiles ++ [(routeFile, ← readFromDisk routeFile)])

def randomDigit : IO String := do
  return String.ofList (Text.hex (← IO.rand 0 15))

def randomDigits (count : Nat) : IO String := do
  return String.join (← (List.replicate count ()).mapM fun _ => randomDigit)

/-- A new request id, a random UUID. -/
def newRequestId : IO Bytes := do
  let variant := String.ofList (Text.hex (← IO.rand 8 11))
  let parts := [← randomDigits 8, ← randomDigits 4, "4" ++ (← randomDigits 3),
    variant ++ (← randomDigits 3), ← randomDigits 12]
  return Text.bytes ("-".intercalate parts)

def requestOf? (line : String) : Option MockHttp.Request := do
  match line.splitOn " " with
  | [method, target] =>
      some ⟨← Method.ofText? method, ← Target.parse? target, [], []⟩
  | _ => none

/-- The lines of a reply: its status, its header fields, and its body behind an empty line. -/
def replyLines (reply : Reply) : List String :=
  toString reply.status.code
    :: reply.headers.sorted.map (fun (name, value) => name ++ ": " ++ Text.lossy value)
    ++ ["", Text.lossy reply.body]

partial def serve (site : Site) (filter : Log.Filter) (input : IO.FS.Stream) : IO Unit := do
  let line ← input.getLine
  if line.isEmpty then return
  match requestOf? line.trimAscii.toString with
  | none => IO.println "400"
  | some request =>
      let answer := site.answer (← newRequestId) request
      (filter.lines [answer.event]).forM fun shown => IO.println shown
      (replyLines answer.reply).forM fun shown => IO.println shown
  serve site filter input

def runProgram (arguments : List String) : IO UInt32 := do
  let files ← match parse arguments with
    | .start overrides => filesFor overrides
    | _ => pure (filesOf [])
  match Program.run (.free files (← IO.getEnv "RUST_LOG")) arguments with
  | .helped text => IO.print text; return 0
  | .refused text => IO.eprint text; return 2
  | .failed error log =>
      log.forM fun shown => IO.println shown
      IO.eprint error
      return 1
  | .panicked log =>
      log.forM fun shown => IO.println shown
      return 101
  | .serving site _ filter log =>
      log.forM fun shown => IO.println shown
      serve site filter (← IO.getStdin)
      (filter.lines Program.stoppingEvents).forM fun shown => IO.println shown
      return 0

end MockHttp.CommandLine

def main (arguments : List String) : IO UInt32 :=
  MockHttp.CommandLine.runProgram arguments
