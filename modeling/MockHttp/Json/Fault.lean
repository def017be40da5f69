import MockHttp.Number.Shortest
import MockHttp.Text.Quoted
import MockHttp.Text.Utf8
/-!
# What is wrong with a document, and where

A reader takes the unread part of a document and gives back a value with what is left.  When it
refuses, it says why and how many bytes were unread at that point; the line and the column follow
from the whole document.
-/

namespace MockHttp.Json

inductive Found where
  | null
  | boolean (value : Bool)
  | integer (value : Int)
  | fraction (negative : Bool) (value : Binary64)
  | string (value : String)
  | list
  | object

def Found.describe : Found → String
  | .null => "null"
  | .boolean value => "boolean `" ++ (if value then "true" else "false") ++ "`"
  | .integer value => "integer `" ++ toString value ++ "`"
  | .fraction negative value => "floating point `" ++ value.text negative ++ "`"
  | .string value => "string " ++ Text.quote value
  | .list => "sequence"
  | .object => "map"

inductive Cause where
  | endInValue
  | endInObject
  | endInList
  | endInString
  | noColon
  | noCommaInObject
  | noCommaInList
  | badIdent
  | noValue
  | trailingComma
  | trailingCharacters
  | keyNotString
  | badNumber
  | numberOutOfRange
  | badEscape
  | controlCharacter
  | loneSurrogate
  | unfinishedSurrogate
  | badCodePoint
  | tooDeep
  | wrongType (found : Found) (wanted : String)
  | wrongValue (value : Int) (wanted : String)
  | missingField (name : String)
  | duplicateField (name : String)
  | wrongLength (length : Nat) (wanted : String)

def Cause.describe : Cause → String
  | .endInValue => "EOF while parsing a value"
  | .endInObject => "EOF while parsing an object"
  | .endInList => "EOF while parsing a list"
  | .endInString => "EOF while parsing a string"
  | .noColon => "expected `:`"
  | .noCommaInObject => "expected `,` or `\x7d`"
  | .noCommaInList => "expected `,` or `]`"
  | .badIdent => "expected ident"
  | .noValue => "expected value"
  | .trailingComma => "trailing comma"
  | .trailingCharacters => "trailing characters"
  | .keyNotString => "key must be a string"
  | .badNumber => "invalid number"
  | .numberOutOfRange => "number out of range"
  | .badEscape => "invalid escape"
  | .controlCharacter => "control character (\\u0000-\\u001F) found while parsing a string"
  | .loneSurrogate => "lone leading surrogate in hex escape"
  | .unfinishedSurrogate => "unexpected end of hex escape"
  | .badCodePoint => "invalid unicode code point"
  | .tooDeep => "recursion limit exceeded"
  | .wrongType found wanted => "invalid type: " ++ found.describe ++ ", expected " ++ wanted
  | .wrongValue value wanted =>
      "invalid value: integer `" ++ toString value ++ "`, expected " ++ wanted
  | .missingField name => "missing field `" ++ name ++ "`"
  | .duplicateField name => "duplicate field `" ++ name ++ "`"
  | .wrongLength length wanted =>
      "invalid length " ++ toString length ++ ", expected " ++ wanted

/-- A refusal: its cause, and how many bytes of the document lie behind the place it names. -/
structure Fault where
  cause : Cause
  left : Nat

/-- A fault just before the unread part. -/
def Fault.before (cause : Cause) (unread : Bytes) : Fault :=
  ⟨cause, unread.length⟩

/-- A fault at the first unread byte, which the place includes if there is one. -/
def Fault.at (cause : Cause) (unread : Bytes) : Fault :=
  ⟨cause, unread.length - 1⟩

/-- Reads a value from the unread part of a document. -/
abbrev Reader (α : Type) := Bytes → Except Fault (α × Bytes)

/-- A place in a document: a line counted from one, and the bytes of that line before it. -/
structure Place where
  line : Nat
  column : Nat

def Place.after (read : Bytes) : Place where
  line := 1 + read.count 10
  column := (read.reverse.takeWhile (· != 10)).length

structure Error where
  cause : Cause
  place : Place

/-- The refusal that a fault in a document amounts to. -/
def Fault.within (fault : Fault) (document : Bytes) : Error where
  cause := fault.cause
  place := .after (document.take (document.length - fault.left))

def Error.message (error : Error) : String :=
  error.cause.describe ++ " at line " ++ toString error.place.line ++ " column "
    ++ toString error.place.column

end MockHttp.Json
