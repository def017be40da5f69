import MockHttp.Log.Event
/-!
# Log filters

A filter is a list of directives.  Each says up to which level the events of a part of the program,
or those inside a span, are shown; of several for one event the most specific decides.
-/

namespace MockHttp.Log

/-- Up to which level events are shown: the rank of the least serious one that is, or nothing. -/
inductive Threshold where
  | off
  | upTo (level : Level)
  deriving DecidableEq

def Threshold.shows (threshold : Threshold) (level : Level) : Bool :=
  match threshold with
  | .off => false
  | .upTo least => least.rank ≤ level.rank

def Threshold.rank : Threshold → Nat
  | .off => 0
  | .upTo level => 5 - level.rank

/-- The threshold that a name or a number spells; an empty text is `error`. -/
def Threshold.ofText? (text : String) : Option Threshold :=
  let digits := match text.toList with
    | '+' :: rest => rest
    | cs => cs
  let number :=
    if digits.isEmpty ∨ !digits.all Char.isDigit then none
    else some (digits.foldl (fun n c => n * 10 + (c.toNat - 48)) 0)
  match number with
  | some 0 => some .off
  | some 1 => some (.upTo .error)
  | some 2 => some (.upTo .warn)
  | some 3 => some (.upTo .info)
  | some 4 => some (.upTo .debug)
  | some 5 => some (.upTo .trace)
  | _ =>
      match text.toLower with
      | "" => some (.upTo .error)
      | "off" => some .off
      | "error" => some (.upTo .error)
      | "warn" => some (.upTo .warn)
      | "info" => some (.upTo .info)
      | "debug" => some (.upTo .debug)
      | "trace" => some (.upTo .trace)
      | _ => none

structure WantedField where
  name : String
  value : Option String
  deriving DecidableEq

/-- What is shown of a part of the program, of a span, or of what has certain fields. -/
structure Directive where
  target : Option String
  span : Option String
  fields : List WantedField
  threshold : Threshold
  deriving DecidableEq

namespace Directive

/-- A target with a threshold, or either of them alone. -/
def ofPlain? (text : List Char) : Option Directive :=
  let target := String.ofList (text.takeWhile (· ≠ '='))
  match text.dropWhile (· ≠ '=') with
  | [] =>
      match Threshold.ofText? target with
      | some threshold => some ⟨none, none, [], threshold⟩
      | none => some ⟨some target, none, [], .upTo .trace⟩
  | _ :: [] => some ⟨some target, none, [], .upTo .trace⟩
  | _ :: level => do
      some ⟨some target, none, [], ← Threshold.ofText? (String.ofList level)⟩

def wantedField? (text : List Char) : Option WantedField :=
  let name := String.ofList (text.takeWhile (· ≠ '='))
  if text.isEmpty then none
  else
    match text.dropWhile (· ≠ '=') with
    | [] => some ⟨name, none⟩
    | _ :: value => some ⟨name, some (String.ofList value)⟩

/-- The name and the field between the brackets of a span, and what stands behind the brackets. -/
def spanPart? (text : List Char) : Option (Option String × List WantedField × List Char) :=
  let inName (c : Char) : Bool := c ≠ '\x7b' && c ≠ ']'
  let name := String.ofList (text.takeWhile inName)
  match text.dropWhile inName with
  | [] => none
  | ']' :: behind => some (some name, [], behind)
  | _ :: rest => do
      let field ← wantedField? (rest.takeWhile (· ≠ '\x7d'))
      match rest.dropWhile (· ≠ '\x7d') with
      | _ :: ']' :: behind => some (if name = "" then none else some name, [field], behind)
      | _ => none

def behindSpan? : List Char → Option Threshold
  | [] => some (.upTo .trace)
  | ['='] => some (.upTo .trace)
  | '=' :: level => Threshold.ofText? (String.ofList level)
  | _ => none

def isOpening (c : Char) : Bool :=
  c.isAlphanum || 0x80 ≤ c.toNat || c = '-' || c = ':' || c = '_' || c = '['

def trimmed (text : List Char) : List Char :=
  ((text.dropWhile Char.isWhitespace).reverse.dropWhile Char.isWhitespace).reverse

def parse? (text : List Char) : Option Directive :=
  let text := trimmed text
  match text with
  | [] => none
  | first :: _ =>
      if !isOpening first then none
      else
        let target := text.takeWhile (· ≠ '[')
        match text.dropWhile (· ≠ '[') with
        | [] => ofPlain? text
        | _ :: rest => do
            if target.contains '=' then none
            else
              let (span, fields, behind) ← spanPart? rest
              let threshold ← behindSpan? behind
              some ⟨if target.isEmpty then none else some (String.ofList target), span, fields,
                threshold⟩

def isScoped (directive : Directive) : Bool :=
  directive.span.isSome || !directive.fields.isEmpty

/-- Whether a directive can be judged without the spans around an event. -/
def isPlain (directive : Directive) : Bool :=
  directive.span.isNone && directive.fields.all fun field => field.value.isNone

def isAbout (directive : Directive) (target : String) : Bool :=
  match directive.target with
  | some wanted => wanted.toList.isPrefixOf target.toList
  | none => true

def findsFields (directive : Directive) (fields : List String) : Bool :=
  directive.fields.all fun field => fields.contains field.name

/-- How specific a directive is: the longer its target and the more its fields, the more. -/
def specificity (directive : Directive) : Nat × Nat :=
  (match directive.target with
    | some target => target.utf8ByteSize + 1
    | none => 0, directive.fields.length)

def isAsSpecific (a b : Directive) : Bool :=
  b.specificity.1 < a.specificity.1 ||
    (a.specificity.1 = b.specificity.1 && b.specificity.2 ≤ a.specificity.2)

end Directive

/-- A filter: its directives in the order in which they were given. -/
abbrev Filter := List Directive

namespace Filter

def errorsOnly : Filter := [⟨none, none, [], .upTo .error⟩]

/-- The directives of a text, if every one is well-formed; an empty one says nothing. -/
def parse? (text : String) : Option Filter := do
  let directives ← ((text.toList.splitOn ',').filter (!·.isEmpty)).mapM Directive.parse?
  some (if directives.isEmpty then errorsOnly else directives)

/-- The filter that shows the program's own events up to a level. -/
def defaultText (level : String) : String :=
  "json_server=" ++ level ++ ",tower_http=" ++ level

/-- The filter that holds: that of the environment if it is well-formed, or else the default. -/
def chosen (environment : Option String) (level : String) : Filter :=
  ((environment.bind parse?).orElse fun _ => parse? (defaultText level)).getD []

/-- The threshold that some directives give: that of the most specific one, and of several the
last. -/
def decisive (directives : List Directive) : Threshold :=
  match directives with
  | [] => .off
  | first :: rest =>
      (rest.foldl (fun best directive =>
        if directive.isAsSpecific best then directive else best) first).threshold

def plainDirectives (filter : Filter) (target : String) : List Directive :=
  filter.filter fun directive => directive.isPlain && directive.isAbout target

/-- The threshold that an event meets outside all spans. -/
def plainThreshold (filter : Filter) (event : Event) : Threshold :=
  decisive ((filter.plainDirectives event.target).filter fun directive =>
    directive.findsFields ("message" :: event.fields.map Prod.fst))

/-- The span that trees are mounted under. -/
def mountingSpan : String := "routes"

def mountingField : String × String := ("app", "json-server")

def mountingTarget : String := "json_server::routing::compiler"

def spanDirectives (filter : Filter) : List Directive :=
  filter.filter fun directive =>
    directive.isScoped && directive.isAbout mountingTarget &&
      directive.findsFields [mountingField.1] &&
      (match directive.span with
        | some name => name = mountingSpan
        | none => true)

/-- Whether the span of a mounting is shown.  Fields that a directive wants of an event do not keep
it from a span. -/
def showsSpan (filter : Filter) : Bool :=
  !filter.spanDirectives.isEmpty ||
    (decisive (filter.plainDirectives mountingTarget)).shows .info

/-- The threshold that the span of a mounting gives to what happens inside. -/
def spanThreshold (filter : Filter) : Threshold :=
  (filter.spanDirectives.filter fun directive =>
      directive.fields.all fun field =>
        field.value.isNone || field = ⟨mountingField.1, some mountingField.2⟩).foldl
    (fun best directive =>
      if best.rank < directive.threshold.rank then directive.threshold else best) .off

def isInside : Event → Bool
  | .treeMounted .. => false
  | event => event.inMounting

def shows (filter : Filter) (event : Event) : Bool :=
  (filter.plainThreshold event).shows event.level ||
    (isInside event && filter.spanThreshold.shows event.level)

def shownSpan : String :=
  mountingSpan ++ "\x7b" ++ mountingField.1 ++ "=" ++ Text.quote mountingField.2 ++ "\x7d"

def lines (filter : Filter) (events : List Event) : List String :=
  let span := if filter.showsSpan then some shownSpan else none
  (events.filter filter.shows).map fun event => event.logLine span

end Filter

end MockHttp.Log
