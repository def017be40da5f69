import MockHttp.CommandLine.Similar
import MockHttp.Settings.Resolve
/-!
# Options

The command line takes four options with a value each, and a request for help.  An option is
settled once its value is known to be complete: when the next option comes, or at the end.
-/

namespace MockHttp.CommandLine

inductive Opt where
  | file
  | config
  | bind
  | logLevel
  deriving DecidableEq

namespace Opt

def all : List Opt := [file, config, bind, logLevel]

def long : Opt → String
  | file => "file"
  | config => "config"
  | bind => "bind"
  | logLevel => "log-level"

def short? : Opt → Option Char
  | file => some 'f'
  | config => some 'c'
  | bind => some 'b'
  | logLevel => none

def valueName : Opt → String
  | file => "FILE"
  | config => "CONFIG"
  | bind => "BIND"
  | logLevel => "LOG_LEVEL"

def about : Opt → String
  | file => "The JSON file to use as the server"
  | config => "Optional TOML settings file"
  | bind => "Address to listen on"
  | logLevel => "Log level (trace, debug, info, warn, error)"

/-- Whether the value may be empty: a path may not. -/
def allowsEmpty : Opt → Bool
  | file | config => false
  | bind | logLevel => true

def usage (option : Opt) : String :=
  "--" ++ option.long ++ " <" ++ option.valueName ++ ">"

def ofLong? (name : String) : Option Opt :=
  all.find? fun option => option.long = name

def ofShort? (letter : Char) : Option Opt :=
  all.find? fun option => option.short? = some letter

end Opt

/-- What is wrong with a command line.  `used` is what was understood before. -/
inductive UsageError where
  | unexpected (argument : String) (used : List String)
  | misspelt (argument suggestion : String) (used : List String)
  | noValue (option : Opt)
  | repeated (option : Opt)
  | valueForHelp (value : String) (used : List String)
  deriving DecidableEq

inductive Request where
  | start (overrides : Overrides)
  | help
  | refuse (error : UsageError)
  deriving DecidableEq

def programName : String := "json-server"

def programAbout : String := "Mock HTTP server driven by a JSON route tree"

/-- The usage line for the given options, or for any. -/
def usageLine (used : List String) : String :=
  "Usage: " ++ programName ++ " "
    ++ (if used.isEmpty then "[OPTIONS]" else " ".intercalate used) ++ "\n"

def helpHint : String := "For more information, try '--help'.\n"

def UsageError.text : UsageError → String
  | .unexpected argument used =>
      "error: unexpected argument '" ++ argument ++ "' found\n\n"
        ++ usageLine used ++ "\n" ++ helpHint
  | .misspelt argument suggestion used =>
      "error: unexpected argument '" ++ argument ++ "' found\n\n"
        ++ "  tip: a similar argument exists: '" ++ suggestion ++ "'\n\n"
        ++ usageLine used ++ "\n" ++ helpHint
  | .noValue option =>
      "error: a value is required for '" ++ option.usage ++ "' but none was supplied\n\n"
        ++ helpHint
  | .repeated option =>
      "error: the argument '" ++ option.usage ++ "' cannot be used multiple times\n\n"
        ++ usageLine [] ++ "\n" ++ helpHint
  | .valueForHelp value used =>
      "error: unexpected value '" ++ value ++ "' for '--help' found; no more were expected\n\n"
        ++ usageLine used ++ "\n" ++ helpHint

/-- One line of the help: a short name if there is one, a long name, and the purpose. -/
def helpLine (short : Option Char) (long about : String) : String :=
  let names := (match short with
    | some letter => "  -" ++ letter.toString ++ ", "
    | none => "      ") ++ long
  names ++ String.ofList (List.replicate (31 - names.length) ' ') ++ about ++ "\n"

def helpText : String :=
  programAbout ++ "\n\n" ++ usageLine [] ++ "\nOptions:\n"
    ++ String.join (Opt.all.map fun option => helpLine option.short? option.usage option.about)
    ++ helpLine (some 'h') "--help" "Print help"

/-- What has been read so far: the settled options in the order of their first use, and the option
that is not settled yet, with its value once that is there. -/
structure Scan where
  settled : List (Opt × String)
  pending : Option (Opt × Option String)

namespace Scan

def used (scan : Scan) : List String :=
  scan.settled.map fun entry => entry.1.usage

/-- Settles an option.  A repetition is worse than an empty value. -/
def settle (scan : Scan) (option : Opt) (value : String) : Except UsageError Scan :=
  if scan.settled.any fun entry => entry.1 = option then .error (.repeated option)
  else if value = "" ∧ !option.allowsEmpty then .error (.noValue option)
  else .ok ⟨scan.settled ++ [(option, value)], none⟩

def resolve (scan : Scan) : Except UsageError Scan :=
  match scan.pending with
  | none => .ok scan
  | some (option, none) => .error (.noValue option)
  | some (option, some value) => scan.settle option value

/-- The options that count as used when an unknown one comes: the pending one too if it has a
value, even one that may not stand, unless it is a repetition. -/
def usedAtUnknown (scan : Scan) : List String :=
  match scan.pending with
  | some (option, some _) =>
      if scan.used.contains option.usage then scan.used.erase option.usage
      else scan.used ++ [option.usage]
  | _ => scan.used

def take (scan : Scan) (option : Opt) (attached : Option String) : Except UsageError Scan := do
  let scan ← scan.resolve
  match attached with
  | some value => scan.settle option value
  | none => return { scan with pending := some (option, none) }

def overrides (scan : Scan) : Overrides :=
  let value? (option : Opt) := (scan.settled.find? fun entry => entry.1 = option).map Prod.snd
  ⟨value? .config, value? .file, value? .bind, value? .logLevel⟩

end Scan

inductive Step where
  | more (scan : Scan)
  | done (request : Request)

def Step.ofExcept : Except UsageError Scan → Step
  | .ok scan => .more scan
  | .error error => .done (.refuse error)

/-- Ends with the help, unless the pending option stands in the way. -/
def helpStep (scan : Scan) : Step :=
  match scan.resolve with
  | .ok _ => .done .help
  | .error error => .done (.refuse error)

/-- Reads a long option: its name, and the value attached with `=`. -/
def longStep (scan : Scan) (name : String) (attached : Option String) : Step :=
  if name = "help" then
    match attached with
    | none => helpStep scan
    | some value => .done (.refuse (.valueForHelp value (scan.used ++ ["--help"])))
  else
    match Opt.ofLong? name with
    | some option => .ofExcept (scan.take option attached)
    | none =>
        let used := scan.usedAtUnknown
        match likest? name (Opt.all.map Opt.long ++ ["help"]) with
        | none => .done (.refuse (.unexpected ("--" ++ name) used))
        | some similar =>
            let shown := ((Opt.ofLong? similar).map Opt.usage).getD ("--" ++ similar)
            .done (.refuse (.misspelt ("--" ++ name) ("--" ++ similar)
              (if used.contains shown then used else used ++ [shown])))

/-- Reads the letters of a short option; what follows a letter with a value is that value. -/
def shortStep (scan : Scan) : List Char → Step
  | [] => .more scan
  | letter :: rest =>
      if letter = 'h' then helpStep scan
      else
        match Opt.ofShort? letter with
        | none => .done (.refuse (.unexpected ("-" ++ letter.toString) []))
        | some option =>
            let attached := match rest with
              | [] => none
              | '=' :: value => some (String.ofList value)
              | value => some (String.ofList value)
            .ofExcept (scan.take option attached)

/-- Reads an argument that is no option: the value of the pending one, or nothing that is
expected. -/
def plainStep (scan : Scan) (argument : String) : Step :=
  match scan.pending with
  | some (option, none) => .more { scan with pending := some (option, some argument) }
  | _ => .done (.refuse (.unexpected argument []))

def step (scan : Scan) (argument : String) : Step :=
  match argument.toList with
  | '-' :: '-' :: text =>
      let name := String.ofList (text.takeWhile (· ≠ '='))
      match text.dropWhile (· ≠ '=') with
      | [] => longStep scan name none
      | _ :: value => longStep scan name (some (String.ofList value))
  | '-' :: letter :: rest => shortStep scan (letter :: rest)
  | _ => plainStep scan argument

/-- Reads the arguments one by one; behind `--` no argument is expected. -/
def scanArguments (scan : Scan) : List String → Request
  | [] =>
      match scan.resolve with
      | .ok scan => .start scan.overrides
      | .error error => .refuse error
  | "--" :: argument :: _ => .refuse (.unexpected argument [])
  | "--" :: [] =>
      match scan.resolve with
      | .ok scan => .start scan.overrides
      | .error error => .refuse error
  | argument :: arguments =>
      match step scan argument with
      | .more scan => scanArguments scan arguments
      | .done request => request

def parse (arguments : List String) : Request :=
  scanArguments ⟨[], none⟩ arguments

end MockHttp.CommandLine
